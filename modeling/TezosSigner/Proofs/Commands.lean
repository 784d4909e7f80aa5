/-
Module: TezosSigner.Proofs.Commands
Purpose: The ways in which a command can be read from the wire.
Main exports:
  Command.Reads, Command.reads_of_ofApdu, Command.decodeKey_eq_ok_iff,
  Command.decodeKey_eq_error_iff, Command.decode_eq_decodePacket, Command.ofApdu_signNext
-/
import TezosSigner.Command
import TezosSigner.Proofs.Wire.Keys

namespace TezosSigner

namespace Command

/-- The ways in which an APDU that is well formed reads as a command. -/
inductive Reads (apdu : Apdu) : Command → Prop where
  | signFirst {instruction : Instruction} {control : PacketControl} {key : KeyPath}
      (code : Instruction.ofCode? apdu.instruction = some instruction)
      (signing : instruction.isSigning = true)
      (decoded : PacketControl.decode apdu.control = .ok control) (first : control.kind = .first)
      (named : decodeKey apdu.payload = .ok key) :
      Reads apdu (.signFirst instruction key control)
  | signNext {instruction : Instruction} {control : PacketControl}
      (code : Instruction.ofCode? apdu.instruction = some instruction)
      (signing : instruction.isSigning = true)
      (decoded : PacketControl.decode apdu.control = .ok control) (data : control.kind ≠ .first) :
      Reads apdu (.signNext instruction control apdu.payload)
  | getPublicKey {key : KeyPath}
      (code : Instruction.ofCode? apdu.instruction = some .getPublicKey)
      (plain : apdu.control = 0) (named : decodeKey apdu.payload = .ok key) :
      Reads apdu (.getPublicKey key)
  | authorizeBaking {key : KeyPath}
      (code : Instruction.ofCode? apdu.instruction = some .authorizeBaking)
      (named : decodeKey apdu.payload = .ok key) : Reads apdu (.authorizeBaking key)
  | resetHighWaterMark {request : ResetRequest} {used : Nat}
      (code : Instruction.ofCode? apdu.instruction = some .resetHighWaterMark)
      (asked : ResetRequest.decode apdu.payload = .ok (request, used)) :
      Reads apdu (.resetHighWaterMark request.level)
  | queryAuthKey (code : Instruction.ofCode? apdu.instruction = some .queryAuthKey) :
      Reads apdu .queryAuthKey
  | queryHighWaterMark (code : Instruction.ofCode? apdu.instruction = some .queryHighWaterMark) :
      Reads apdu .queryHighWaterMark

variable {command : Command} {payload : Bytes} {apdu : Apdu}

/-- A command that is read off a key holds that key. -/
private theorem bind_decodeKey_ok {next : KeyPath → Command}
    (h : (do let key ← decodeKey payload; return next key : Except SignerError Command) =
      .ok command) : ∃ key, decodeKey payload = .ok key ∧ next key = command := by
  cases decoded : decodeKey payload with
  | error reason =>
    rw [decoded] at h
    cases h
  | ok key =>
    rw [decoded] at h
    cases h
    exact ⟨key, rfl, rfl⟩

theorem reads_of_decodePacket {instruction : Instruction}
    (code : Instruction.ofCode? apdu.instruction = some instruction)
    (signing : instruction.isSigning = true)
    (h : decodePacket instruction apdu.control apdu.payload = .ok command) :
    Reads apdu command := by
  unfold decodePacket at h
  split at h
  · cases h
  rename_i control decoded
  split at h <;> rename_i kind
  · obtain ⟨key, named, rfl⟩ := bind_decodeKey_ok h
    exact .signFirst code signing decoded kind named
  · cases h
    exact .signNext code signing decoded (by simp [kind])
  · cases h
    exact .signNext code signing decoded (by simp [kind])

/-- Every command that is read was read in one of these ways. -/
theorem reads_of_ofApdu (h : ofApdu apdu = .ok command) : Reads apdu command := by
  unfold ofApdu at h
  split at h
  · unfold decode at h
    split at h
    · cases h
    split at h <;> rename_i code
    · cases h
    · exact reads_of_decodePacket code rfl h
    · exact reads_of_decodePacket code rfl h
    · exact reads_of_decodePacket code rfl h
    · split at h
      · cases h
      · rename_i plain
        obtain ⟨key, named, rfl⟩ := bind_decodeKey_ok h
        exact .getPublicKey code (Decidable.not_not.1 plain) named
    · obtain ⟨key, named, rfl⟩ := bind_decodeKey_ok h
      exact .authorizeBaking code named
    · split at h
      · rename_i asked
        cases h
        exact .resetHighWaterMark code asked
      · cases h
    · cases h
      exact .queryAuthKey code
    · cases h
      exact .queryHighWaterMark code
  · cases h

/-- What is read has kept to the limit of a payload. -/
theorem length_le_of_decode {code control : UInt8} (h : decode code control payload = .ok command) :
    payload.length ≤ maxPayload := by
  unfold decode at h
  split at h
  · cases h
  · rename_i fits
    exact Nat.not_lt.1 fits

/-- The key that a command names is the one whose bytes the payload starts with. -/
theorem decodeKey_eq_ok_iff {key : KeyPath} :
    decodeKey payload = .ok key ↔ key.path ≠ [] ∧ ∃ rest, payload = key.layout ++ rest := by
  constructor
  · intro h
    unfold decodeKey at h
    split at h
    · rename_i decoded
      cases h
      obtain ⟨steps, _, starts⟩ := KeyPath.decode_eq_ok_iff.1 decoded
      exact ⟨steps, starts⟩
    · cases h
    · cases h
  · intro starts
    rw [decodeKey, KeyPath.decode_eq_ok_iff.2 ⟨starts.1, rfl, starts.2⟩]

/-- A key that is not complete is a matter of length, and one that is complete is refused for its
curve only. -/
theorem decodeKey_eq_error_iff {error : SignerError} :
    decodeKey payload = .error error ↔
      (error = .wrongLength ∧ KeyPath.curveByte? payload = .none) ∨
        (error = .unsupportedCurve ∧ ∃ curveByte, KeyPath.curveByte? payload = some curveByte ∧
          Curve.ofCode? curveByte = .none) := by
  rw [← KeyPath.decode_eq_invalidLength_iff, ← KeyPath.decode_eq_invalidEncoding_iff, decodeKey]
  have outcomes := KeyPath.decodes payload
  generalize KeyPath.decode payload = outcome at outcomes
  cases outcomes with
  | key steps starts => simp
  | incomplete nowhere => simp [SignerError.ofWireError, eq_comm]
  | unknown standing curve => simp [eq_comm]

/-- A key that came off the wire has steps. -/
theorem path_of_decodeKey {key : KeyPath} (h : decodeKey payload = .ok key) : key.path ≠ [] :=
  (decodeKey_eq_ok_iff.1 h).1

/-- A payload of one of the instructions that sign is a packet. -/
theorem decode_eq_decodePacket {instruction : Instruction} {control : UInt8}
    (signing : instruction.isSigning = true) (fits : payload.length ≤ maxPayload) :
    decode instruction.code control payload = decodePacket instruction control payload := by
  rw [decode, if_neg (Nat.not_lt.2 fits), Instruction.ofCode?_code]
  cases instruction with
  | sign => rfl
  | signWithHash => rfl
  | signUnsafe => rfl
  | _ => cases signing

/-- A data packet is read without a look at its data. -/
theorem decodePacket_of_continues {instruction : Instruction} {control : PacketControl}
    (continues : control.kind ≠ .first) :
    decodePacket instruction control.encode payload =
      .ok (.signNext instruction control payload) := by
  rw [decodePacket, PacketControl.decode_encode]
  cases kind : control.kind with
  | first => exact absurd kind continues
  | next => simp only [kind]
  | hashOnlyNext => simp only [kind]

/-- A data packet that fits a command is read as one. -/
theorem ofApdu_signNext {instruction : Instruction} {control : PacketControl}
    (signing : instruction.isSigning = true) (data : control.kind ≠ .first)
    (fits : payload.length ≤ maxPayload) :
    ofApdu
      { commandClass := TezosSigner.commandClass
        instruction := instruction.code
        control := control.encode
        payload := payload } = .ok (.signNext instruction control payload) := by
  rw [ofApdu, if_pos rfl, decode_eq_decodePacket signing fits, decodePacket_of_continues data]

end Command

end TezosSigner
