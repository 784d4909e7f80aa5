/-
Module: TezosSigner.Proofs.PacketStreams
Purpose: The streams of data packets that a wallet accepts, and the packet at which it refuses
  any other.
Main exports:
  StreamPacket, StreamPacket.stream, StreamPacket.Legal, StreamPacket.Refused,
  StreamPacket.legal_iff, Session.Collects, Device.Receives, Device.Happens.stream_told
-/
import Mathlib.Data.Nat.Find
import TezosSigner.Proofs.BakingRequests
import TezosSigner.Proofs.Commands
import TezosSigner.Proofs.Play
import TezosSigner.Proofs.Representation

namespace TezosSigner

/-!
Once a request is opened, the host sends its message in data packets and marks the last of
them.  What a wallet makes of such a stream depends on three bounds: the counter of packets, the
room in the buffer, and the kind that the first byte tells.  They come down to what can be said
of the packets alone.  A hashed message may be of any length, since the buffer is emptied into
the hash faster than packets can fill it.
-/

/-- A data packet of a signing request, as a host sends it. -/
structure StreamPacket where
  /-- Only the hash of the message is wanted. -/
  hashOnly : Bool
  data : Bytes
  /-- The data fits the payload of a command. -/
  length_le : data.length ≤ maxPayload
deriving Repr, DecidableEq

namespace StreamPacket

/-- The control byte of a data packet. -/
def control (packet : StreamPacket) (last : Bool) : PacketControl :=
  { kind := if packet.hashOnly then .hashOnlyNext else .next, last := last }

/-- The command that carries a data packet. -/
def apdu (packet : StreamPacket) (instruction : Instruction) (last : Bool) : Apdu :=
  { commandClass := commandClass
    instruction := instruction.code
    control := (packet.control last).encode
    payload := packet.data }

/-- The data packets of a message as they arrive, with only the last marked as such. -/
def stream (instruction : Instruction) : List StreamPacket → List Input
  | [] => []
  | packet :: packets =>
      .apdu (packet.apdu instruction packets.isEmpty) :: stream instruction packets

/-- The message in some data packets. -/
def message (packets : List StreamPacket) : Bytes :=
  packets.flatMap (·.data)

/-- The first byte of the first packet, if it has any. -/
def leading? (packets : List StreamPacket) : Option UInt8 :=
  packets.head?.bind (·.data.head?)

/-- The first packet begins like an operation. -/
def LeadsOperation (packets : List StreamPacket) : Prop :=
  leading? packets = some 0x03 ∨ leading? packets = some 0x04 ∨ leading? packets = some 0x05

instance (packets : List StreamPacket) : Decidable (LeadsOperation packets) :=
  instDecidableOr

/-- The packets that make up a message which a wallet takes. -/
def Legal (instruction : Instruction) (packets : List StreamPacket) : Prop :=
  packets.length ≤ 255 ∧
    if instruction = .signUnsafe then (message packets).length ≤ 1024
    else LeadsOperation packets

instance (instruction : Instruction) (packets : List StreamPacket) :
    Decidable (Legal instruction packets) :=
  instDecidableAnd

/-- The last of these packets is one that a wallet does not take after the others. -/
def Refused (instruction : Instruction) (sent : List StreamPacket) : Prop :=
  sent.length = 256 ∨
    if instruction = .signUnsafe then 1024 < (message sent).length
    else sent.length = 1 ∧ ¬ LeadsOperation sent

instance (instruction : Instruction) (sent : List StreamPacket) :
    Decidable (Refused instruction sent) :=
  instDecidableOr

variable {instruction : Instruction} {packets sent : List StreamPacket} {packet : StreamPacket}

@[simp] theorem last_control (packet : StreamPacket) (last : Bool) :
    (packet.control last).last = last := rfl

/-- A data packet is not mistaken for the one that opens a request. -/
theorem kind_control_ne_first (packet : StreamPacket) (last : Bool) :
    (packet.control last).kind ≠ .first := by
  unfold control
  split <;> simp

@[simp] theorem message_concat : message (sent ++ [packet]) = message sent ++ packet.data := by
  simp [message]

theorem length_message_take_le (packets : List StreamPacket) (number : Nat) :
    (message (packets.take number)).length ≤ (message packets).length := by
  have split : message packets =
      message (packets.take number) ++ message (packets.drop number) := by
    rw [message, message, message, ← List.flatMap_append, List.take_append_drop]
  rw [split, List.length_append]
  exact Nat.le_add_right _ _

theorem leadsOperation_take_iff {number : Nat} (nonzero : number ≠ 0) :
    LeadsOperation (packets.take number) ↔ LeadsOperation packets := by
  simp only [LeadsOperation, leading?, List.head?_take, if_neg nonzero]

theorem not_refused_nil : ¬ Refused instruction [] := by
  unfold Refused
  split <;> simp [message]

/-- A message is legal if none of its packets is refused. -/
theorem legal_iff (nonempty : packets ≠ []) :
    Legal instruction packets ↔
      ∀ number ≤ packets.length, ¬ Refused instruction (packets.take number) := by
  constructor
  · rintro ⟨short, rest⟩ number within (full | other)
    · rw [List.length_take] at full
      omega
    · split at rest <;> rename_i raw
      · rw [if_pos raw] at other
        have shorter := length_message_take_le packets number
        omega
      · rw [if_neg raw, List.length_take] at other
        rw [leadsOperation_take_iff (by omega)] at other
        exact other.2 rest
  · intro taken
    refine ⟨?_, ?_⟩
    · by_contra long
      refine taken 256 (by omega) (.inl ?_)
      rw [List.length_take]
      omega
    · split <;> rename_i raw
      · by_contra long
        refine taken packets.length (Nat.le_refl _) (.inr ?_)
        rw [if_pos raw, List.take_length]
        omega
      · by_contra unknown
        have present : 0 < packets.length := List.length_pos_iff.2 nonempty
        refine taken 1 present (.inr ?_)
        rw [if_neg raw, List.length_take, leadsOperation_take_iff (by decide)]
        exact ⟨by omega, unknown⟩

/-- In a message that is not legal there is a first packet that is refused. -/
theorem exists_first_refused (nonempty : packets ≠ []) (illegal : ¬ Legal instruction packets) :
    ∃ number ≤ packets.length, Refused instruction (packets.take number) ∧
      ∀ other < number, ¬ Refused instruction (packets.take other) := by
  rw [legal_iff nonempty] at illegal
  push Not at illegal
  obtain ⟨within, refused⟩ := Nat.find_spec illegal
  refine ⟨Nat.find illegal, within, refused, fun other before again => ?_⟩
  exact Nat.find_min illegal before ⟨by omega, again⟩

end StreamPacket

open StreamPacket

theorem StreamPacket.leadsOperation_singleton_iff {packet : StreamPacket} :
    LeadsOperation [packet] ↔ (Magic.ofPayload packet.data).isAllowed .wallet = true :=
  Magic.isAllowed_wallet_iff.symm

namespace Session

/-- A session that has taken these data packets in a wallet, and is not finished. -/
structure Collects (session : Session) (instruction : Instruction) (sent : List StreamPacket) :
    Prop where
  same : session.instruction = instruction
  signing : instruction.isSigning = true
  count : session.packets.toNat = sent.length
  /-- The first packet has told the kind of a hashed message. -/
  kind : session.isHashing = true → sent ≠ [] → session.magic.isAllowed .wallet = true
  /-- No more of a hashed message is pending than one block and one packet. -/
  held : session.isHashing = true →
    session.message.pending.length ≤ Blake2b.blockSize + maxPayload
  raw : session.isHashing = false → session.message.pending = StreamPacket.message sent

variable {session taken : Session} {instruction : Instruction} {key : KeyPath}
  {sent : List StreamPacket} {packet : StreamPacket}

theorem Collects.start (started : Session.start instruction key = .ok session) :
    session.Collects instruction [] := by
  unfold Session.start at started
  split at started
  · rename_i signing
    cases started
    exact {
      same := rfl
      signing := signing
      count := rfl
      kind := fun _ nonempty => absurd rfl nonempty
      held := fun _ => Nat.zero_le _
      raw := fun _ => rfl }
  · cases started

theorem Collects.isHashing_iff (collects : session.Collects instruction sent) :
    session.isHashing = true ↔ instruction ≠ .signUnsafe := by
  simp [isHashing, collects.same]

theorem Collects.first_iff (collects : session.Collects instruction sent) (kind : PacketKind) :
    (session.counted kind).packets = 1 ↔ sent = [] := by
  rw [packets_counted_eq_one_iff, collects.count]
  exact List.length_eq_zero_iff

/-- Only the 256th packet finds no room in the counter. -/
theorem Collects.room_iff (collects : session.Collects instruction sent) :
    session.packets < maxPackets ↔ (sent ++ [packet]).length ≠ 256 := by
  have bound := session.packets.toNat_lt
  have most : maxPackets.toNat = 255 := rfl
  rw [UInt8.lt_iff_toNat_lt, most, List.length_append, List.length_singleton]
  rw [collects.count] at bound ⊢
  omega

theorem Collects.packets_counted (collects : session.Collects instruction sent)
    (room : session.packets < maxPackets) (kind : PacketKind) :
    (session.counted kind).packets = UInt8.ofNat (sent.length + 1) := by
  rw [← UInt8.toNat_inj, toNat_packets_counted room kind, collects.count, UInt8.toNat_ofNat']
  have short : sent.length < 255 := collects.count ▸ UInt8.lt_iff_toNat_lt.1 room
  omega

/-- Where the counter has room, it is for its kind alone that a hashed message is refused. -/
theorem Collects.refused_of_hashing_iff (collects : session.Collects instruction sent)
    (room : session.packets < maxPackets) (hashing : session.isHashing = true) :
    Refused instruction (sent ++ [packet]) ↔
      sent = [] ∧ (Magic.ofPayload packet.data).isAllowed .wallet = false := by
  rw [Refused, or_iff_right (collects.room_iff.1 room), if_neg (collects.isHashing_iff.1 hashing)]
  cases sent with
  | nil =>
    rw [List.nil_append, leadsOperation_singleton_iff, Bool.not_eq_true]
    simp
  | cons first sent => simp

theorem Collects.known_of_accepted (collects : session.Collects instruction sent)
    (room : session.packets < maxPackets) (accepted : ¬ Refused instruction (sent ++ [packet]))
    (kind : PacketKind) (hashing : (session.counted kind).isHashing = true)
    (first : (session.counted kind).packets = 1) :
    (Magic.ofPayload packet.data).isAllowed .wallet = true := by
  rw [collects.first_iff] at first
  by_contra unknown
  exact accepted ((collects.refused_of_hashing_iff room hashing).2
    ⟨first, Bool.not_eq_true _ ▸ unknown⟩)

/-- It is for its length alone that a message which is not hashed is refused. -/
theorem Collects.refused_of_raw_iff (collects : session.Collects instruction sent)
    (room : session.packets < maxPackets) (raw : session.isHashing = false) :
    Refused instruction (sent ++ [packet]) ↔
      MessageBuffer.capacity < session.message.pending.length + packet.data.length := by
  have unhashed : instruction = .signUnsafe := by
    by_contra other
    rw [collects.isHashing_iff.2 other] at raw
    cases raw
  rw [Refused, or_iff_right (collects.room_iff.1 room), if_pos unhashed, message_concat,
    List.length_append, collects.raw raw]
  rfl

/-- What a session becomes by one more packet: of the message, all that matters is how much is
pending of a hashed one, and what a raw one holds. -/
theorem Collects.added (collects : session.Collects instruction sent)
    (room : session.packets < maxPackets) {kind : PacketKind} {magic : Magic} {parsed : Parsed}
    {message : MessageBuffer} (known : session.isHashing = true → magic.isAllowed .wallet = true)
    (held : session.isHashing = true →
      message.pending.length ≤ Blake2b.blockSize + maxPayload)
    (raw : session.isHashing = false →
      message.pending = session.message.pending ++ packet.data) :
    Collects { (session.counted kind).classifyAs magic parsed with message := message }
      instruction (sent ++ [packet]) where
  same := collects.same
  signing := collects.signing
  count := by
    rw [List.length_append, List.length_singleton, ← collects.count]
    exact toNat_packets_counted room kind
  kind := fun hashing _ => known hashing
  held := held
  raw := by
    intro unhashed
    rw [message_concat, ← collects.raw unhashed]
    exact raw unhashed

/-- A packet that is not refused fits behind what is pending. -/
theorem Collects.take {read : Session} {kind : PacketKind} {exchanges : List Exchange}
    (collects : session.Collects instruction sent)
    (accepted : ¬ Refused instruction (sent ++ [packet]))
    (classifies : Mode.wallet.Classifies (session.counted kind) packet.data exchanges read) :
    ∃ taken, read.append packet.data = (.ok (), taken) ∧
      taken.Collects instruction (sent ++ [packet]) := by
  have room := collects.room_iff.2 fun full => accepted (.inl full)
  have known : session.isHashing = true → read.magic.isAllowed .wallet = true := by
    intro hashing
    refine classifies.isAllowed hashing fun later => ?_
    rw [Ne, collects.first_iff kind] at later
    exact collects.kind hashing later
  obtain ⟨magic, parsed, rfl⟩ := exists_of_classifies classifies
  cases hashing : session.isHashing with
  | true =>
    -- A block at most is held back, so there is room for any packet.
    have fits : MessageBuffer.heldBack session.message.pending.length + packet.data.length ≤
        Blake2b.blockSize + maxPayload :=
      Nat.add_le_add (MessageBuffer.heldBack_le_blockSize _) packet.length_le
    have hashes : ((session.counted kind).classifyAs magic parsed).isHashing = true := hashing
    refine ⟨_, (append_of_hashing hashes _).trans
      (if_neg (Nat.not_lt.2 (Nat.le_trans fits (by decide)))),
      collects.added room known (fun _ => ?_) fun raw => ?_⟩
    · rw [List.length_append, MessageBuffer.length_pending_absorb]
      exact fits
    · rw [hashing] at raw
      cases raw
  | false =>
    have unhashed : ((session.counted kind).classifyAs magic parsed).isHashing = false := hashing
    rw [collects.refused_of_raw_iff room hashing] at accepted
    refine ⟨_, (append_of_raw unhashed _).trans (if_neg accepted),
      collects.added room known (fun hashes => ?_) fun _ => rfl⟩
    rw [hashing] at hashes
    cases hashes

end Session

namespace Mode

variable {session : Session} {data : Bytes}

/-- A wallet classifies every data packet but a first one of no known kind. -/
theorem classify_wallet_ok {exchanges : List Exchange} {outcome : Except SignerError Session}
    (known : session.isHashing = true → session.packets = 1 →
      (Magic.ofPayload data).isAllowed .wallet = true)
    (h : (Mode.wallet.classify session session.packets data).Yields exchanges outcome) :
    ∃ read, outcome = .ok read ∧ Mode.wallet.Classifies session data exchanges read := by
  rcases classify_yields h with ⟨rfl, error, rfl⟩ | classified
  · unfold classify at h
    split at h
    · rename_i hashing
      simp only [classifyForWallet] at h
      split at h
      · cases (Act.yields_pure_iff.1 h).2
      · rename_i first
        rw [if_pos (known hashing (Decidable.not_not.1 first)), Act.yields_bind_pure_iff] at h
        obtain ⟨_, reading, _⟩ := h
        obtain ⟨_, impossible, _⟩ := readOperations_yields_iff.1 reading
        cases impossible
    · cases (Act.yields_pure_iff.1 h).2
  · exact classified

/-- There is a prompt for every message of a kind that a wallet signs. -/
theorem walletPrompt_of_isAllowed (hash : Digest)
    (allowed : session.magic.isAllowed .wallet = true) :
    ∃ prompt, walletPrompt session hash = .ok prompt := by
  cases kind : session.magic with
  | unsafeOp =>
    cases parsed : session.parsed with
    | _ => simp [walletPrompt, kind, parsed]
  | unsafeOp2 => simp [walletPrompt, kind]
  | unsafeOp3 => simp [walletPrompt, kind]
  | _ =>
    rw [kind] at allowed
    cases allowed

/-- A wallet asks the operator about every finished message of a kind that it signs. -/
theorem completeForWallet_finish
    (kind : session.isHashing = true → session.magic.isAllowed .wallet = true) :
    ∃ pending, completeForWallet session.finish = .ok (.awaits pending) := by
  cases hashing : session.isHashing with
  | true =>
    have hashes : session.finish.isHashing = true := by simpa using hashing
    have finished : session.finish.finalHash = some session.message.stream.digest := by
      rw [Session.finish_of_hashing hashing]
    have allowed : session.finish.magic.isAllowed .wallet = true := by
      simpa using kind hashing
    obtain ⟨prompt, chosen⟩ :=
      walletPrompt_of_isAllowed session.message.stream.digest allowed
    refine ⟨{ prompt := prompt, action := .sign session.finish }, ?_⟩
    rw [completeForWallet, if_pos hashes, finished]
    simp only [chosen]
    rfl
  | false =>
    have raw : session.finish.isHashing = false := by simpa using hashing
    exact ⟨_, by rw [completeForWallet, raw]; rfl⟩

end Mode

/-- The command that a data packet brings. -/
theorem StreamPacket.command?_apdu {instruction : Instruction} (packet : StreamPacket)
    (signing : instruction.isSigning = true) (last : Bool) :
    (Input.apdu (packet.apdu instruction last)).command? =
      some (.signNext instruction (packet.control last) packet.data) := by
  have read : Command.ofApdu (packet.apdu instruction last) =
      .ok (.signNext instruction (packet.control last) packet.data) :=
    Command.ofApdu_signNext signing (packet.kind_control_ne_first last) packet.length_le
  rw [Input.command?, read]
  rfl

namespace Signer

variable {signer : Signer} {state : BakingState} {session : Session} {instruction : Instruction}
  {sent : List StreamPacket} {packet : StreamPacket} {last : Bool} {exchanges : List Exchange}
  {outcome : Except SignerError (Answer × Signer)}

/-- A wallet that has taken these data packets goes on with the session. -/
theorem continues_wallet (packet : StreamPacket) (last : Bool)
    (wallet : signer.config.mode = .wallet)
    (held : signer.session = some session) (collects : session.Collects instruction sent) :
    signer.Continues instruction (packet.control last) session :=
  { held := held, same := collects.same, permitted := fun _ => wallet }

/-- A wallet refuses such a packet at once, before any call is made for it. -/
theorem signNext_refused (wallet : signer.config.mode = .wallet)
    (held : signer.session = some session) (collects : session.Collects instruction sent)
    (refused : Refused instruction (sent ++ [packet])) :
    signer.signNext state instruction (packet.control last) packet.data = throw .parseError := by
  have continues := continues_wallet packet last wallet held collects
  have carries := packet.kind_control_ne_first last
  by_cases room : session.packets < Session.maxPackets
  · rw [signNext_of_room continues carries room, wallet]
    cases hashing : session.isHashing with
    | true =>
      obtain ⟨first, unknown⟩ := (collects.refused_of_hashing_iff room hashing).1 refused
      have hashes : (session.counted (packet.control last).kind).isHashing = true := hashing
      rw [(collects.first_iff _).2 first, Mode.classify_unknown_eq hashes unknown]
      rfl
    | false =>
      have full := (collects.refused_of_raw_iff room hashing).1 refused
      have raw : (session.counted (packet.control last).kind).isHashing = false := hashing
      have unread : Mode.wallet.classify (session.counted (packet.control last).kind)
          (session.counted (packet.control last).kind).packets packet.data =
            pure (session.counted (packet.control last).kind) := by simp [Mode.classify, raw]
      have unfit := (Session.append_of_raw raw packet.data).trans (if_pos full)
      rw [unread, pure_bind, unfit]
      rfl
  · exact signNext_of_full continues carries room

/-- A wallet takes every other data packet, whatever the platform makes of it. -/
theorem signNext_taken (wallet : signer.config.mode = .wallet)
    (held : signer.session = some session) (collects : session.Collects instruction sent)
    (accepted : ¬ Refused instruction (sent ++ [packet]))
    (h : (signer.signNext state instruction (packet.control last) packet.data).Yields exchanges
      outcome) :
    ∃ taken, taken.Collects instruction (sent ++ [packet]) ∧
      if last then ∃ pending, outcome = .ok (signer.concluded (.awaits pending))
      else outcome = .ok (.none, { signer with
        session := some taken, status := .receiving (UInt8.ofNat (sent.length + 1)) }) := by
  have continues := continues_wallet packet last wallet held collects
  have room := collects.room_iff.2 fun full => accepted (.inl full)
  have known := collects.known_of_accepted room accepted (packet.control last).kind
  rw [signNext_of_room continues (packet.kind_control_ne_first last) room, wallet] at h
  rcases Act.yields_bind_iff.1 h with ⟨error, rfl, first⟩ | ⟨_, _, read, rfl, first, more⟩
  · obtain ⟨_, impossible, _⟩ := Mode.classify_wallet_ok known first
    cases impossible
  obtain ⟨_, same, classifies⟩ := Mode.classify_wallet_ok known first
  cases same
  obtain ⟨taken, appended, collected⟩ := collects.take accepted classifies
  rw [appended] at more
  rcases Act.yields_ofExcept_bind_iff.1 more with ⟨_, impossible, _⟩ | ⟨_, _, more⟩
  · cases impossible
  refine ⟨taken, collected, ?_⟩
  cases last with
  | true =>
    obtain ⟨pending, completed⟩ := @Mode.completeForWallet_finish taken
      fun hashing => collected.kind hashing (by simp)
    have completes : Mode.wallet.complete state taken.finish =
        Act.ofExcept (.ok (.awaits pending)) := congrArg Act.ofExcept completed
    simp only [last_control, if_true, completes, Act.yields_bind_pure_iff] at more
    obtain ⟨_, done, rfl⟩ := more
    obtain ⟨_, rfl⟩ := Act.yields_ofExcept_iff.1 done
    exact ⟨pending, rfl⟩
  | false =>
    simp only [last_control, Bool.false_eq_true, if_false, Act.yields_pure_iff] at more
    obtain ⟨_, rfl⟩ := more
    rw [← collects.packets_counted room]
    rfl

/-- Without a session, a wallet refuses every data packet. -/
theorem signNext_unheld {control : PacketControl} {data : Bytes}
    (wallet : signer.config.mode = .wallet) (unheld : signer.session = none) :
    signer.signNext state instruction control data = throw .parseError := by
  rw [signNext, if_neg (fun barred => barred.2 wallet), unheld]

theorem perform_signNext_of_wallet {control : PacketControl} {data : Bytes}
    (wallet : signer.config.mode = .wallet) :
    signer.perform state (.signNext instruction control data) =
      signer.signNext state instruction control data := by
  rw [perform, if_pos (by simp [Command.isAvailable, wallet])]

end Signer

namespace Telling

/-- The packets up to that of the given number were taken, and more are to come. -/
def collects (number : Nat) : Telling :=
  (some (.ok .none), .receiving (UInt8.ofNat number))

/-- The last packet was taken, and the operator is asked. -/
def asks : Telling :=
  (some (.ok .pending), .pending)

/-- The packet was refused. -/
def refuses : Telling :=
  (some (.error .parseError), .error)

end Telling

namespace Device

/-- A wallet that has taken these data packets since a request was opened. -/
structure Receives (device : Device) (instruction : Instruction) (sent : List StreamPacket) :
    Prop where
  wallet : device.signer.config.mode = .wallet
  collects : ∃ session, device.signer.session = some session ∧ session.Collects instruction sent

variable {device next : Device} {instruction : Instruction} {key : KeyPath}
  {control : PacketControl} {sent packets : List StreamPacket} {packet : StreamPacket}
  {input : Input} {last : Bool} {exchanges : List Exchange}
  {answer : Option (Except SignerError Answer)} {given : Answer}

/-- Whatever a wallet was doing, once it accepts the packet that opens a request it has taken no
data packet of it. -/
theorem Receives.opened (wallet : device.signer.config.mode = .wallet)
    (opened : Happens device (.step input exchanges (some (.ok given))) next)
    (read : input.command? = some (.signFirst instruction key control)) :
    next.Receives instruction [] := by
  obtain ⟨_, _, performs⟩ := opened.performs read
  obtain ⟨after, stored⟩ := next
  refine ⟨(congrArg Config.mode performs.config).trans wallet, ?_⟩
  generalize outcomeEq : Except.ok (_, after) = outcome at performs
  cases performs with
  | signFirst _ _ started =>
    cases outcomeEq
    exact ⟨_, rfl, .start started⟩
  | refused => cases outcomeEq
  | keyRefused _ => cases outcomeEq

/-- A data packet that arrives is a step of the session. -/
theorem Receives.happens_iff (receives : device.Receives instruction sent) :
    Happens device (.step (.apdu (packet.apdu instruction last)) exchanges answer) next ↔
      ∃ outcome, (device.signer.signNext (BakingState.decode device.record) instruction
          (packet.control last) packet.data).Yields exchanges outcome ∧
        answer = some (device.signer.settled outcome).1 ∧
        next = { signer := (device.signer.settled outcome).2
                 record := device.record.after exchanges } := by
  obtain ⟨session, _, collects⟩ := receives.collects
  rw [← Signer.perform_signNext_of_wallet receives.wallet]
  exact happens_command_iff (packet.command?_apdu collects.signing last)

/-- A packet that is refused is told to be, and the session is gone. -/
theorem Receives.refuses (receives : device.Receives instruction sent)
    (refused : Refused instruction (sent ++ [packet]))
    (happens :
      Happens device (.step (.apdu (packet.apdu instruction last)) exchanges answer) next) :
    (answer, next.signer.status) = Telling.refuses ∧ next.signer = device.signer.abort := by
  obtain ⟨session, held, collects⟩ := receives.collects
  obtain ⟨outcome, taken, rfl, rfl⟩ := receives.happens_iff.1 happens
  rw [Signer.signNext_refused receives.wallet held collects refused] at taken
  obtain ⟨_, rfl⟩ := Act.yields_throw_iff.1 taken
  exact ⟨rfl, rfl⟩

/-- Any other packet is taken. -/
theorem Receives.takes (receives : device.Receives instruction sent)
    (accepted : ¬ Refused instruction (sent ++ [packet]))
    (happens : Happens device (.step (.apdu (packet.apdu instruction false)) exchanges answer)
      next) :
    (answer, next.signer.status) = Telling.collects (sent.length + 1) ∧
      next.Receives instruction (sent ++ [packet]) := by
  obtain ⟨session, held, collects⟩ := receives.collects
  obtain ⟨outcome, taking, rfl, rfl⟩ := receives.happens_iff.1 happens
  obtain ⟨taken, collected, rfl⟩ :=
    Signer.signNext_taken receives.wallet held collects accepted taking
  exact ⟨rfl, receives.wallet, taken, rfl, collected⟩

/-- After the last packet the operator is asked. -/
theorem Receives.asks (receives : device.Receives instruction sent)
    (accepted : ¬ Refused instruction (sent ++ [packet]))
    (happens : Happens device (.step (.apdu (packet.apdu instruction true)) exchanges answer)
      next) :
    (answer, next.signer.status) = Telling.asks := by
  obtain ⟨session, held, collects⟩ := receives.collects
  obtain ⟨outcome, taking, rfl, rfl⟩ := receives.happens_iff.1 happens
  obtain ⟨_, _, pending, rfl⟩ :=
    Signer.signNext_taken receives.wallet held collects accepted taking
  rfl

/-- Without a session, a wallet refuses a whole stream. -/
theorem told_of_unheld (wallet : device.signer.config.mode = .wallet)
    (unheld : device.signer.session = none) (signing : instruction.isSigning = true)
    (platform : Platform) (earlier : List Call) (packets : List StreamPacket) :
    device.told platform earlier (stream instruction packets) =
      List.replicate packets.length Telling.refuses := by
  induction packets generalizing device earlier with
  | nil => rfl
  | cons packet packets ih =>
    obtain ⟨exchanges, answer, next, happens, told⟩ := exists_told_cons platform earlier device
      (.apdu (packet.apdu instruction packets.isEmpty)) (stream instruction packets)
    obtain ⟨outcome, refused, rfl, rfl⟩ :=
      (happens_command_iff (packet.command?_apdu signing packets.isEmpty)).1 happens
    rw [Signer.perform_signNext_of_wallet wallet, Signer.signNext_unheld wallet unheld] at refused
    obtain ⟨_, rfl⟩ := Act.yields_throw_iff.1 refused
    rw [stream, told, List.length_cons, List.replicate_succ]
    refine congrArg (Telling.refuses :: ·) (ih ?_ ?_ _)
    · exact wallet
    · rfl

/-- The packet behind some others is taken in some way that is open to the device. -/
theorem exists_told_drop (platform : Platform) (earlier : List Call) (device : Device)
    (instruction : Instruction) {count : Nat} (here : count < packets.length) :
    ∃ exchanges answer next,
      Happens device (.step (.apdu (packets[count].apdu instruction
        (packets.drop (count + 1)).isEmpty)) exchanges answer) next ∧
      device.told platform earlier (stream instruction (packets.drop count)) =
        (answer, next.signer.status) :: next.told platform (earlier ++ exchanges.map (·.call))
          (stream instruction (packets.drop (count + 1))) := by
  rw [List.drop_eq_getElem_cons here]
  exact exists_told_cons platform earlier device _ _

/-- As long as no packet is refused, all but the last are taken one after the other. -/
theorem Receives.told_take (receives : device.Receives instruction []) (platform : Platform)
    (earlier : List Call) {count : Nat} (more : count < packets.length)
    (accepted : ∀ number ≤ count, ¬ Refused instruction (packets.take number)) :
    ∃ later next, Receives next instruction (packets.take count) ∧
      device.told platform earlier (stream instruction packets) =
        (List.range' 1 count).map Telling.collects ++
          next.told platform later (stream instruction (packets.drop count)) := by
  induction count with
  | zero => exact ⟨earlier, device, receives, rfl⟩
  | succ count ih =>
    obtain ⟨later, middle, received, told⟩ :=
      ih (by omega) fun number within => accepted number (by omega)
    have here : count < packets.length := by omega
    have sent : (packets.take count).length = count := List.length_take_of_le (by omega)
    have taken : packets.take count ++ [packets[count]] = packets.take (count + 1) :=
      List.take_append_getElem here
    have rest : (packets.drop (count + 1)).isEmpty = false := by
      rw [List.isEmpty_eq_false_iff, Ne, List.drop_eq_nil_iff]
      omega
    obtain ⟨exchanges, answer, next, happens, told'⟩ :=
      exists_told_drop platform later middle instruction here
    rw [rest] at happens
    obtain ⟨tells, receives⟩ :=
      received.takes (taken ▸ accepted (count + 1) (Nat.le_refl _)) happens
    rw [taken] at receives
    refine ⟨later ++ exchanges.map (·.call), next, receives, ?_⟩
    rw [told, told', tells, sent, List.range'_1_concat, List.map_append, List.append_assoc,
      Nat.add_comm 1 count]
    rfl

/-- A stream of which no packet is refused is accepted: the operator is asked after the last. -/
theorem Receives.told_legal (receives : device.Receives instruction []) (platform : Platform)
    (earlier : List Call) (nonempty : packets ≠ []) (legal : Legal instruction packets) :
    device.told platform earlier (stream instruction packets) =
      (List.range' 1 (packets.length - 1)).map Telling.collects ++ [Telling.asks] := by
  have present : 0 < packets.length := List.length_pos_iff.2 nonempty
  have here : packets.length - 1 < packets.length := by omega
  have accepted := (legal_iff nonempty).1 legal
  have whole : packets.take (packets.length - 1) ++ [packets[packets.length - 1]] = packets := by
    rw [List.take_append_getElem here, List.take_of_length_le (by omega)]
  have rest : packets.drop (packets.length - 1 + 1) = [] := List.drop_of_length_le (by omega)
  obtain ⟨later, middle, received, told⟩ := receives.told_take platform earlier here
    fun number within => accepted number (by omega)
  obtain ⟨exchanges, answer, next, happens, told'⟩ :=
    exists_told_drop platform later middle instruction here
  rw [rest] at happens told'
  have last : ¬ Refused instruction packets := by
    have unrefused := accepted packets.length (Nat.le_refl _)
    rwa [List.take_length] at unrefused
  rw [told, told', received.asks (whole.symm ▸ last) happens]
  rfl

/-- The first packet that is refused ends the request: it and all behind it are refused. -/
theorem Receives.told_refused (receives : device.Receives instruction []) (platform : Platform)
    (earlier : List Call) {number : Nat} (within : number ≤ packets.length)
    (refused : Refused instruction (packets.take number))
    (first : ∀ other < number, ¬ Refused instruction (packets.take other)) :
    device.told platform earlier (stream instruction packets) =
      (List.range' 1 (number - 1)).map Telling.collects ++
        List.replicate (packets.length + 1 - number) Telling.refuses := by
  have nonzero : number ≠ 0 := by
    rintro rfl
    exact not_refused_nil refused
  obtain ⟨count, rfl⟩ := Nat.exists_eq_add_one_of_ne_zero nonzero
  have here : count < packets.length := within
  have taken : packets.take count ++ [packets[count]] = packets.take (count + 1) :=
    List.take_append_getElem here
  obtain ⟨later, middle, received, told⟩ := receives.told_take platform earlier here
    fun other before => first other (by omega)
  obtain ⟨exchanges, answer, next, happens, told'⟩ :=
    exists_told_drop platform later middle instruction here
  obtain ⟨tells, aborted⟩ := received.refuses (taken.symm ▸ refused) happens
  obtain ⟨session, _, collects⟩ := received.collects
  have unheld : next.signer.session = none := by rw [aborted]; rfl
  have wallet : next.signer.config.mode = .wallet := by
    rw [aborted]
    exact received.wallet
  have left : packets.length + 1 - (count + 1) = (packets.drop (count + 1)).length + 1 := by
    rw [List.length_drop]
    omega
  rw [told, told', tells, told_of_unheld wallet unheld collects.signing, left,
    List.replicate_succ, Nat.add_sub_cancel]

/-- A stream that is not legal is taken up to the first packet that is refused. -/
theorem Receives.told_illegal (receives : device.Receives instruction []) (platform : Platform)
    (earlier : List Call) (nonempty : packets ≠ []) (illegal : ¬ Legal instruction packets) :
    ∃ number ≤ packets.length, Refused instruction (packets.take number) ∧
      (∀ other < number, ¬ Refused instruction (packets.take other)) ∧
      device.told platform earlier (stream instruction packets) =
        (List.range' 1 (number - 1)).map Telling.collects ++
          List.replicate (packets.length + 1 - number) Telling.refuses := by
  obtain ⟨number, within, refused, first⟩ := exists_first_refused nonempty illegal
  exact ⟨number, within, refused, first,
    receives.told_refused platform earlier within refused first⟩

/-- Once a wallet has accepted the packet that opens a request, it accepts the data packets of
exactly the legal messages.  Of any other message it takes the packets up to the first that is
refused, whatever the platform reads in them: the first one if it has no kind that a wallet signs,
the one that a raw message is too long with, or else the 256th. -/
theorem Happens.stream_told (wallet : device.signer.config.mode = .wallet)
    (opened : Happens device (.step input exchanges (some (.ok given))) next)
    (read : input.command? = some (.signFirst instruction key control))
    (nonempty : packets ≠ []) (platform : Platform) (earlier : List Call) :
    (next.told platform earlier (stream instruction packets) =
        (List.range' 1 (packets.length - 1)).map Telling.collects ++ [Telling.asks] ↔
      Legal instruction packets) ∧
    (¬ Legal instruction packets → ∃ number ≤ packets.length,
      Refused instruction (packets.take number) ∧
      (∀ other < number, ¬ Refused instruction (packets.take other)) ∧
      next.told platform earlier (stream instruction packets) =
        (List.range' 1 (number - 1)).map Telling.collects ++
          List.replicate (packets.length + 1 - number) Telling.refuses) := by
  have receives := Receives.opened wallet opened read
  refine ⟨⟨fun accepted => ?_, receives.told_legal platform earlier nonempty⟩,
    receives.told_illegal platform earlier nonempty⟩
  by_contra illegal
  obtain ⟨number, within, _, _, told⟩ := receives.told_illegal platform earlier nonempty illegal
  have refusing : Telling.refuses ∈ (List.range' 1 (packets.length - 1)).map Telling.collects ++
      [Telling.asks] := by
    rw [← accepted, told, List.mem_append, List.mem_replicate]
    exact .inr ⟨by omega, rfl⟩
  simp [Telling.refuses, Telling.collects, Telling.asks] at refusing

/-- A message in two packets, of the second of which only the hash is wanted. -/
def twoPackets : List StreamPacket :=
  [{ hashOnly := false, data := transferBytes, length_le := by decide },
    { hashOnly := true, data := [0x00], length_le := by decide }]

theorem Happens.two_packets_told :
    ∃ next, Happens (.boot { mode := .wallet } newBaker.encode)
        (.step (.apdu openingPacket) [] (some (.ok .none))) next ∧
      Legal .sign twoPackets ∧
      ∀ platform earlier, next.told platform earlier (stream .sign twoPackets) =
        [Telling.collects 1, Telling.asks] := by
  have opened : Happens (.boot { mode := .wallet } newBaker.encode)
      (.step (.apdu openingPacket) [] (some (.ok .none)))
      { signer := (Signer.boot { mode := .wallet }).opening .sign bakingKey
        record := newBaker.encode } :=
    (happens_read_iff openingPacket_reads).2 (.opens (.inl rfl))
  have legal : Legal .sign twoPackets := by decide
  refine ⟨_, opened, legal, fun platform earlier => ?_⟩
  exact (opened.stream_told rfl rfl (by decide) platform earlier).1.2 legal

end Device

end TezosSigner
