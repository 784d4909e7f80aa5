/-
Module: TezosSigner.Proofs.Wire.Commands
Purpose: What a host writes is what a device reads, and a device reads nothing else.
Main exports:
  Request.Asks, Request.command, Request.Fills, Command.Refused, Command.decode_eq_ok_iff,
  Command.decode_eq_error_iff, Command.decode_agrees
-/
import TezosSigner.Proofs.Commands
import TezosSigner.Proofs.Wire.Keys

namespace TezosSigner

/-!
The host writes requests, the device reads commands, and the two are defined apart from each
other.  `Request.Asks` says which request, sent with which instruction and control byte, asks for
which command; a host that sends a request as the request itself says asks for
`Request.command`.  A device that reads a command has been sent such a request, with two
allowances: it does not look at what follows a key, nor at the payload of a query.

Everything else is refused.  More than one thing can be wrong with what is sent; `Command.Refused`
lists the causes such that each of them supposes that none of those before it applies.
-/

/-- A request that is sent with an instruction and a control byte asks for a command.  The
instructions that sign share their packets, and the packet with the key may be marked as the
last one.  Only packets and the export of a key have a control byte of their own. -/
inductive Request.Asks : Request → Instruction → UInt8 → Command → Prop where
  | signFirst {instruction : Instruction} {key : KeyPath} {last : Bool}
      (signing : instruction.isSigning = true) (steps : key.path ≠ []) :
      Asks (.signFirst key) instruction (PacketControl.mk .first last).encode
        (.signFirst instruction key { kind := .first, last := last })
  | signNext {instruction : Instruction} {control : PacketControl} {data : Bytes}
      (signing : instruction.isSigning = true) (continues : control.kind ≠ .first)
      (fits : data.length ≤ maxPayload) :
      Asks (.signNext control.last data) instruction control.encode
        (.signNext instruction control data)
  | getPublicKey {key : KeyPath} (steps : key.path ≠ []) :
      Asks (.getPublicKey key) .getPublicKey 0 (.getPublicKey key)
  | authorizeBaking {key : KeyPath} {control : UInt8} (steps : key.path ≠ []) :
      Asks (.authorizeBaking key) .authorizeBaking control (.authorizeBaking key)
  | resetHighWaterMark {level : UInt32} {control : UInt8} :
      Asks (.resetHighWaterMark level) .resetHighWaterMark control (.resetHighWaterMark level)
  | queryAuthKey {control : UInt8} : Asks .queryAuthKey .queryAuthKey control .queryAuthKey
  | queryHighWaterMark {control : UInt8} :
      Asks .queryHighWaterMark .queryHighWaterMark control .queryHighWaterMark

/-- The control byte that a host sends a request with: zero, unless it is one of a sequence of
packets. -/
def Request.controlByte (request : Request) : UInt8 :=
  (request.control.map PacketControl.encode).getD 0

/-- The command that a host asks for with a request. -/
def Request.command : Request → Command
  | .signFirst key => .signFirst .sign key { kind := .first, last := false }
  | .signNext last data => .signNext .sign { kind := .next, last := last } data
  | .getPublicKey key => .getPublicKey key
  | .authorizeBaking key => .authorizeBaking key
  | .resetHighWaterMark level => .resetHighWaterMark level
  | .queryAuthKey => .queryAuthKey
  | .queryHighWaterMark => .queryHighWaterMark

/-- The key of a request has steps, and its data fits a command. -/
def Request.WithinLimits : Request → Prop
  | .signFirst key => key.path ≠ []
  | .signNext _ data => data.length ≤ maxPayload
  | .getPublicKey key => key.path ≠ []
  | .authorizeBaking key => key.path ≠ []
  | _ => True

/-- A payload carries a request.  More bytes may follow a key, and a query goes with any
payload. -/
def Request.Fills (payload : Bytes) : Request → Prop
  | .queryAuthKey => True
  | .queryHighWaterMark => True
  | .signNext last data => payload = (Request.signNext last data).payload
  | .resetHighWaterMark level => payload = (Request.resetHighWaterMark level).payload
  | request => ∃ rest, payload = request.payload ++ rest

/-- An instruction that is sent with this control byte wants a key. -/
inductive Instruction.NamesKey : Instruction → UInt8 → Prop where
  | signFirst {instruction : Instruction} {last : Bool} (signing : instruction.isSigning = true) :
      NamesKey instruction (PacketControl.mk .first last).encode
  | getPublicKey : NamesKey .getPublicKey 0
  | authorizeBaking {control : UInt8} : NamesKey .authorizeBaking control

/-- Why what is sent is not a command. -/
inductive Command.Refused (code control : UInt8) (payload : Bytes) : SignerError → Prop where
  | oversized (long : maxPayload < payload.length) : Refused code control payload .wrongLength
  | instruction (fits : payload.length ≤ maxPayload)
      (unknown : ∀ instruction : Instruction, code ≠ instruction.code) :
      Refused code control payload .invalidInstruction
  | packet {instruction : Instruction} (fits : payload.length ≤ maxPayload)
      (named : code = instruction.code) (signing : instruction.isSigning = true)
      (unknown : ∀ packet : PacketControl, control ≠ packet.encode) :
      Refused code control payload .wrongParameter
  | parameter (fits : payload.length ≤ maxPayload) (named : code = Instruction.getPublicKey.code)
      (other : control ≠ 0) : Refused code control payload .wrongParameter
  | key {instruction : Instruction} (fits : payload.length ≤ maxPayload)
      (named : code = instruction.code) (wants : instruction.NamesKey control)
      (nowhere : KeyPath.curveByte? payload = .none) : Refused code control payload .wrongLength
  | curve {instruction : Instruction} {curveByte : UInt8} (fits : payload.length ≤ maxPayload)
      (named : code = instruction.code) (wants : instruction.NamesKey control)
      (standing : KeyPath.curveByte? payload = some curveByte)
      (unknown : ∀ curve : Curve, curveByte ≠ curve.code) :
      Refused code control payload .unsupportedCurve
  | level (fits : payload.length ≤ maxPayload)
      (named : code = Instruction.resetHighWaterMark.code) (uneven : payload.length ≠ 4) :
      Refused code control payload .wrongLength

namespace ResetRequest

variable {bytes : Bytes}

/-- A level is read off the bytes that write it and nothing else. -/
theorem decode_eq_ok_iff {request : ResetRequest} {length : Nat} :
    decode bytes = .ok (request, length) ↔ bytes = WireFormat.layout request ∧ length = 4 := by
  constructor
  · intro read
    unfold decode at read
    split at read
    · rename_i level word
      cases read
      rw [decodeWord?_eq_some_iff, List.append_nil] at word
      exact ⟨word, rfl⟩
    · cases read
  · rintro ⟨rfl, rfl⟩
    have word := decodeWord?_encodeWord request.level []
    rw [List.append_nil] at word
    simp only [WireFormat.layout, decode, word]

theorem decode_eq_error_iff {error : WireError} :
    decode bytes = .error error ↔ error = .invalidLength ∧ bytes.length ≠ 4 := by
  match bytes with
  | [] | [_] | [_, _] | [_, _, _] | [_, _, _, _] => simp [decode, decodeWord?, eq_comm]
  | _ :: _ :: _ :: _ :: _ :: _ => simp [decode, decodeWord?, eq_comm]

end ResetRequest

namespace Request

variable {request : Request} {instruction : Instruction} {control : UInt8} {command : Command}
  {payload : Bytes}

/-- A request that asks for a command fits one. -/
theorem Asks.length_le (asks : request.Asks instruction control command) :
    request.payload.length ≤ maxPayload := by
  have small (key : KeyPath) : key.layout.length ≤ maxPayload := by
    have depth : key.path.length ≤ 10 := key.depth_le
    rw [KeyPath.length_layout, maxPayload]
    omega
  cases asks with
  | signFirst => exact small _
  | signNext _ _ fits => exact fits
  | getPublicKey => exact small _
  | authorizeBaking => exact small _
  | resetHighWaterMark =>
    have word : 4 ≤ maxPayload := by decide
    exact word
  | queryAuthKey => exact Nat.zero_le _
  | queryHighWaterMark => exact Nat.zero_le _

/-- A request asks for its command if it is sent as it says itself. -/
theorem asks_command (limits : request.WithinLimits) :
    request.Asks request.instruction request.controlByte request.command := by
  cases request with
  | signFirst key => exact @Asks.signFirst .sign key false rfl limits
  | signNext last data => exact @Asks.signNext .sign ⟨.next, last⟩ data rfl nofun limits
  | getPublicKey key => exact .getPublicKey limits
  | authorizeBaking key => exact .authorizeBaking limits
  | resetHighWaterMark level => exact .resetHighWaterMark
  | queryAuthKey => exact .queryAuthKey
  | queryHighWaterMark => exact .queryHighWaterMark

theorem fills_payload (request : Request) : request.Fills request.payload := by
  cases request with
  | signFirst key => exact ⟨[], (List.append_nil _).symm⟩
  | getPublicKey key => exact ⟨[], (List.append_nil _).symm⟩
  | authorizeBaking key => exact ⟨[], (List.append_nil _).symm⟩
  | signNext last data => rfl
  | resetHighWaterMark level => rfl
  | queryAuthKey => trivial
  | queryHighWaterMark => trivial

/-- A request is read as the command that it asks for. -/
theorem Asks.decode_eq (asks : request.Asks instruction control command)
    (fits : payload.length ≤ maxPayload) (fills : request.Fills payload) :
    Command.decode instruction.code control payload = .ok command := by
  cases asks with
  | @signFirst _ _ last signing steps =>
    have named := Command.decodeKey_eq_ok_iff.2 ⟨steps, fills⟩
    rw [Command.decode_eq_decodePacket signing fits, Command.decodePacket,
      PacketControl.decode_encode, named]
    rfl
  | signNext signing continues _ =>
    cases fills
    rw [Command.decode_eq_decodePacket signing fits, Command.decodePacket_of_continues continues]
    rfl
  | getPublicKey steps =>
    have named := Command.decodeKey_eq_ok_iff.2 ⟨steps, fills⟩
    rw [Command.decode, if_neg (Nat.not_lt.2 fits), Instruction.ofCode?_code, named]
    rfl
  | authorizeBaking steps =>
    have named := Command.decodeKey_eq_ok_iff.2 ⟨steps, fills⟩
    rw [Command.decode, if_neg (Nat.not_lt.2 fits), Instruction.ofCode?_code, named]
    rfl
  | @resetHighWaterMark level _ =>
    have asked := (@ResetRequest.decode_eq_ok_iff payload ⟨level⟩ 4).2 ⟨fills, rfl⟩
    rw [Command.decode, if_neg (Nat.not_lt.2 fits), Instruction.ofCode?_code, asked]
  | queryAuthKey => rw [Command.decode, if_neg (Nat.not_lt.2 fits), Instruction.ofCode?_code]
  | queryHighWaterMark =>
    rw [Command.decode, if_neg (Nat.not_lt.2 fits), Instruction.ofCode?_code]

end Request

namespace Command

variable {code control : UInt8} {payload : Bytes} {command : Command} {error : SignerError}

/-- Whatever is read as a command is a request for it. -/
theorem exists_asks (read : decode code control payload = .ok command) :
    ∃ (request : Request) (instruction : Instruction), code = instruction.code ∧
      request.Asks instruction control command ∧ request.Fills payload := by
  have fits := length_le_of_decode read
  have reads := @reads_of_ofApdu command
    { commandClass := TezosSigner.commandClass
      instruction := code
      control := control
      payload := payload } ((if_pos rfl).trans read)
  cases reads with
  | @signFirst instruction packet key named signing decoded first key' =>
    obtain ⟨steps, starts⟩ := decodeKey_eq_ok_iff.1 key'
    obtain ⟨kind, last⟩ := packet
    cases first
    cases PacketControl.decode_eq_ok_iff.1 decoded
    exact ⟨.signFirst key, instruction, Instruction.ofCode?_eq_some_iff.1 named,
      .signFirst signing steps, starts⟩
  | @signNext instruction packet named signing decoded continues =>
    cases PacketControl.decode_eq_ok_iff.1 decoded
    exact ⟨.signNext packet.last payload, instruction, Instruction.ofCode?_eq_some_iff.1 named,
      .signNext signing continues fits, rfl⟩
  | @getPublicKey key named plain key' =>
    obtain ⟨steps, starts⟩ := decodeKey_eq_ok_iff.1 key'
    cases plain
    exact ⟨.getPublicKey key, _, Instruction.ofCode?_eq_some_iff.1 named, .getPublicKey steps,
      starts⟩
  | @authorizeBaking key named key' =>
    obtain ⟨steps, starts⟩ := decodeKey_eq_ok_iff.1 key'
    exact ⟨.authorizeBaking key, _, Instruction.ofCode?_eq_some_iff.1 named,
      .authorizeBaking steps, starts⟩
  | @resetHighWaterMark request _ named asked =>
    obtain ⟨same, _⟩ := ResetRequest.decode_eq_ok_iff.1 asked
    exact ⟨.resetHighWaterMark request.level, _, Instruction.ofCode?_eq_some_iff.1 named,
      .resetHighWaterMark, same⟩
  | queryAuthKey named =>
    exact ⟨.queryAuthKey, _, Instruction.ofCode?_eq_some_iff.1 named, .queryAuthKey, trivial⟩
  | queryHighWaterMark named =>
    exact ⟨.queryHighWaterMark, _, Instruction.ofCode?_eq_some_iff.1 named, .queryHighWaterMark,
      trivial⟩

/-- What is read as a command is a request for it, and nothing is read but that. -/
theorem decode_eq_ok_iff :
    decode code control payload = .ok command ↔
      payload.length ≤ maxPayload ∧ ∃ (request : Request) (instruction : Instruction),
        code = instruction.code ∧ request.Asks instruction control command ∧
          request.Fills payload := by
  constructor
  · intro read
    exact ⟨length_le_of_decode read, exists_asks read⟩
  · rintro ⟨fits, request, instruction, rfl, asks, fills⟩
    exact asks.decode_eq fits fills

theorem bind_decodeKey_error {next : KeyPath → Command}
    (h : (do let key ← decodeKey payload; return next key : Except SignerError Command) =
      .error error) : decodeKey payload = .error error := by
  cases decoded : decodeKey payload with
  | error reason =>
    rw [decoded] at h
    cases h
    rfl
  | ok key =>
    rw [decoded] at h
    cases h

section Refusals

variable {instruction : Instruction}

theorem refused_of_decodeKey (fits : payload.length ≤ maxPayload) (named : code = instruction.code)
    (wants : instruction.NamesKey control) (unread : decodeKey payload = .error error) :
    Refused code control payload error := by
  rcases decodeKey_eq_error_iff.1 unread with
    ⟨rfl, nowhere⟩ | ⟨rfl, curveByte, standing, unknown⟩
  · exact .key fits named wants nowhere
  · exact .curve fits named wants standing (Curve.ofCode?_eq_none_iff.1 unknown)

theorem refused_of_decodePacket (fits : payload.length ≤ maxPayload)
    (named : code = instruction.code) (signing : instruction.isSigning = true)
    (unread : decodePacket instruction control payload = .error error) :
    Refused code control payload error := by
  unfold decodePacket at unread
  split at unread
  · rename_i undecoded
    cases unread
    refine .packet fits named signing fun packet same => ?_
    rw [PacketControl.decode_eq_ok_iff.2 same] at undecoded
    cases undecoded
  · rename_i packet decoded
    cases PacketControl.decode_eq_ok_iff.1 decoded
    split at unread
    · rename_i first
      obtain ⟨kind, last⟩ := packet
      cases first
      exact refused_of_decodeKey fits named (.signFirst signing) (bind_decodeKey_error unread)
    · cases unread
    · cases unread

/-- Whatever is refused is refused for the first thing that is wrong with it. -/
theorem refused_of_decode (unread : decode code control payload = .error error) :
    Refused code control payload error := by
  unfold decode at unread
  split at unread
  · rename_i long
    cases unread
    exact .oversized long
  rename_i fits
  rw [Nat.not_lt] at fits
  split at unread <;> rename_i known
  · cases unread
    exact .instruction fits (Instruction.ofCode?_eq_none_iff.1 known)
  all_goals rw [Instruction.ofCode?_eq_some_iff] at known
  · exact refused_of_decodePacket fits known rfl unread
  · exact refused_of_decodePacket fits known rfl unread
  · exact refused_of_decodePacket fits known rfl unread
  · split at unread
    · rename_i other
      cases unread
      exact .parameter fits known other
    · rename_i plain
      cases Decidable.not_not.1 plain
      exact refused_of_decodeKey fits known .getPublicKey (bind_decodeKey_error unread)
  · exact refused_of_decodeKey fits known .authorizeBaking (bind_decodeKey_error unread)
  · split at unread
    · cases unread
    · rename_i undecoded
      obtain ⟨rfl, uneven⟩ := ResetRequest.decode_eq_error_iff.1 undecoded
      cases unread
      exact .level fits known uneven
  · cases unread
  · cases unread

/-- An instruction that wants a key is refused if there is none to be read. -/
theorem decode_of_decodeKey (fits : payload.length ≤ maxPayload)
    (wants : instruction.NamesKey control) (unread : decodeKey payload = .error error) :
    decode instruction.code control payload = .error error := by
  cases wants with
  | signFirst signing =>
    rw [decode_eq_decodePacket signing fits, decodePacket, PacketControl.decode_encode, unread]
    rfl
  | getPublicKey =>
    rw [decode, if_neg (Nat.not_lt.2 fits), Instruction.ofCode?_code, unread]
    rfl
  | authorizeBaking =>
    rw [decode, if_neg (Nat.not_lt.2 fits), Instruction.ofCode?_code, unread]
    rfl

theorem Refused.decode_eq (refused : Refused code control payload error) :
    decode code control payload = .error error := by
  cases refused with
  | oversized long => exact if_pos long
  | instruction fits unknown =>
    rw [decode, if_neg (Nat.not_lt.2 fits), Instruction.ofCode?_eq_none_iff.2 unknown]
  | packet fits named signing unknown =>
    subst named
    rw [decode_eq_decodePacket signing fits, decodePacket]
    cases decoded : PacketControl.decode control with
    | error reason => rfl
    | ok packet => exact absurd (PacketControl.decode_eq_ok_iff.1 decoded) (unknown packet)
  | parameter fits named other =>
    subst named
    rw [decode, if_neg (Nat.not_lt.2 fits), Instruction.ofCode?_code]
    exact if_pos other
  | key fits named wants nowhere =>
    subst named
    exact decode_of_decodeKey fits wants (decodeKey_eq_error_iff.2 (.inl ⟨rfl, nowhere⟩))
  | curve fits named wants standing unknown =>
    subst named
    have unread := Curve.ofCode?_eq_none_iff.2 unknown
    exact decode_of_decodeKey fits wants
      (decodeKey_eq_error_iff.2 (.inr ⟨rfl, _, standing, unread⟩))
  | level fits named uneven =>
    subst named
    have unread := ResetRequest.decode_eq_error_iff.2 ⟨rfl, uneven⟩
    rw [decode, if_neg (Nat.not_lt.2 fits), Instruction.ofCode?_code, unread]
    rfl

theorem decode_eq_error_iff :
    decode code control payload = .error error ↔ Refused code control payload error :=
  ⟨refused_of_decode, Refused.decode_eq⟩

end Refusals

/-- Host and device agree on what is sent.  A request, sent as it says itself, asks for its
command.  A request that asks for a command can be written to any buffer that has room for it, and
is read as that command.  What is read as a command is a request for it, and what is not is
refused for the first thing that is wrong with it. -/
theorem decode_agrees :
    (∀ request : Request, request.WithinLimits →
      request.Asks request.instruction request.controlByte request.command) ∧
    (∀ (request : Request) (instruction : Instruction) (control : UInt8) (command : Command),
      request.Asks instruction control command →
        ∀ buffer : Bytes, request.payload.length ≤ buffer.length →
          ∃ written, writeInto buffer request.payload = .ok written ∧
            decode instruction.code control written.content = .ok command) ∧
    (∀ (code control : UInt8) (payload : Bytes) (command : Command),
      decode code control payload = .ok command ↔
        payload.length ≤ maxPayload ∧ ∃ (request : Request) (instruction : Instruction),
          code = instruction.code ∧ request.Asks instruction control command ∧
            request.Fills payload) ∧
    (∀ (code control : UInt8) (payload : Bytes) (error : SignerError),
      decode code control payload = .error error ↔ Refused code control payload error) := by
  refine ⟨fun _ => Request.asks_command, ?_, fun _ _ _ _ => decode_eq_ok_iff,
    fun _ _ _ _ => decode_eq_error_iff⟩
  intro request instruction control command asks buffer room
  obtain ⟨written, wrote, _, content⟩ := exists_written room
  refine ⟨written, wrote, ?_⟩
  rw [content]
  exact asks.decode_eq asks.length_le request.fills_payload

/-- The export of a key is read off the buffer that it was written to, and is refused with a
control byte of its own. -/
theorem export_read_back :
    (∃ written,
      writeInto (List.replicate 12 0xff)
        (Request.getPublicKey ⟨.secp256r1, [hardened, 1], by decide⟩).payload = .ok written ∧
      decode Instruction.getPublicKey.code 0 written.content =
        .ok (.getPublicKey ⟨.secp256r1, [hardened, 1], by decide⟩)) ∧
    decode Instruction.getPublicKey.code 1 [] = .error .wrongParameter := by
  have asks := decode_agrees.1 (.getPublicKey ⟨.secp256r1, [hardened, 1], by decide⟩)
    (List.cons_ne_nil _ _)
  exact ⟨decode_agrees.2.1 _ _ _ _ asks _ (by decide),
    (decode_agrees.2.2.2 _ _ _ _).2 (.parameter (by decide) rfl (by decide))⟩

end Command

end TezosSigner
