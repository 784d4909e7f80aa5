/-
Module: TezosSigner.Proofs.Requests
Purpose: What a session holds of the signing request that it was sent.
Main exports:
  DataPacket.Understood, Session.Carries, Session.Carries.start, Session.Carries.take,
  Session.Carries.eq_of_hashing, Session.Carries.eq_of_raw
-/
import TezosSigner.Proofs.History

namespace TezosSigner

/-!
A session keeps neither the packets nor, for the most part, the bytes of its message.
`Session.Carries` says what it keeps of a request all the same: the hash under way is that
of all the bytes so far, the packets are counted, and what was understood is what the first
packet says, as long as it is the only one.  Every data packet that is taken keeps this up,
however the message is cut.
-/

/-- What the first data packet of a hashed request is understood as: a block or an
endorsement by its own bytes, an operation by what the platform read in one call. -/
def DataPacket.Understood (mode : Mode) (key : KeyPath) (packet : DataPacket)
    (parsed : Parsed) : Prop :=
  ((Magic.ofPayload packet.data).isBaking = true ∧ packet.exchanges = [] ∧
      parsed = Parsed.ofPayload packet.data) ∨
    ((Magic.ofPayload packet.data).isBaking = false ∧ ∃ reply,
      packet.exchanges = [⟨.parse key packet.data mode.acceptedTags, reply⟩] ∧
        parsed = Parsed.ofReply reply)

/-- What a hashed session has understood of a request: nothing before its first data
packet, what that packet says while it is the only one, and nothing once more have come. -/
def Session.Understands (mode : Mode) (session : Session) : List DataPacket → Prop
  | [] => session.magic = .invalid ∧ session.parsed = .invalid
  | [packet] =>
      session.magic = Magic.ofPayload packet.data ∧ session.magic.isAllowed mode = true ∧
        packet.Understood mode session.key session.parsed
  | packet :: _ :: _ =>
      session.magic = Magic.ofPayload packet.data ∧ session.magic.isAllowed mode = true ∧
        session.parsed = .invalid

namespace Session

/-- What a session that is not finished holds of a signing request. -/
structure Carries (mode : Mode) (session : Session) (request : SigningRequest) : Prop where
  signing : session.instruction.isSigning = true
  instruction : session.instruction = request.instruction
  key : session.key = request.key
  count : session.packets.toNat = request.packets.length
  unfinished : session.finalHash = none
  hashOnly : session.hashOnly = request.packets.any fun packet =>
    packet.control.kind == .hashOnlyNext
  hashed : session.isHashing = true →
    session.message.stream = Blake2b.Stream.empty.absorb request.message
  raw : session.isHashing = false →
    session.message = { hashed := none, pending := request.message }
  understands : session.isHashing = true → session.Understands mode request.packets
  /-- A baking device hashes, takes a single data packet, and always signs. -/
  baking : mode = .baking → session.isHashing = true ∧ request.packets.length ≤ 1 ∧
    ∀ packet ∈ request.packets, packet.control.kind = .next

variable {mode : Mode} {session taken : Session} {request : SigningRequest}

/-- A session that was just opened carries a request without data packets. -/
theorem Carries.start {instruction : Instruction} {key : KeyPath}
    (started : Session.start instruction key = .ok session)
    (available : instruction = .signUnsafe → mode = .wallet) :
    session.Carries mode { instruction := instruction, key := key, packets := [] } := by
  unfold Session.start at started
  split at started
  · rename_i signing
    cases started
    exact {
      signing := signing
      instruction := rfl
      key := rfl
      count := rfl
      unfinished := rfl
      hashOnly := rfl
      hashed := fun _ => rfl
      raw := fun _ => rfl
      understands := fun _ => ⟨rfl, rfl⟩
      baking := by
        intro baking
        refine ⟨?_, Nat.zero_le _, by simp⟩
        by_contra raw
        have unsafeSigning : instruction = .signUnsafe := by simpa [isHashing] using raw
        rw [available unsafeSigning] at baking
        cases baking }
  · cases started

/-- Classifying a session changes only what was understood of it. -/
theorem exists_of_classifies {data : Bytes} {exchanges : List Exchange} {read : Session}
    (classifies : mode.Classifies session data exchanges read) :
    ∃ magic parsed, read = session.classifyAs magic parsed := by
  cases classifies with
  | raw raw => exact ⟨session.magic, session.parsed, rfl⟩
  | later hashing wallet later => exact ⟨session.magic, .invalid, rfl⟩
  | payload hashing baking first kind => exact ⟨_, _, rfl⟩
  | operations hashing first allowed kind => exact ⟨_, _, rfl⟩

/-- There is room in the counter for one more packet. -/
theorem toNat_packets_counted (room : session.packets < maxPackets) (kind : PacketKind) :
    (session.counted kind).packets.toNat = session.packets.toNat + 1 := by
  have bound : session.packets.toNat < 255 := UInt8.lt_iff_toNat_lt.1 room
  simp only [counted, UInt8.toNat_add, UInt8.toNat_one]
  omega

theorem packets_counted_eq_one_iff (session : Session) (kind : PacketKind) :
    (session.counted kind).packets = 1 ↔ session.packets.toNat = 0 := by
  have bound := session.packets.toNat_lt
  simp only [counted, ← UInt8.toNat_inj, UInt8.toNat_add, UInt8.toNat_one]
  omega

theorem Understands.withMessage {packets : List DataPacket}
    (understands : session.Understands mode packets) (message : MessageBuffer) :
    Understands mode { session with message := message } packets := by
  match packets with
  | [] => exact understands
  | [_] => exact understands
  | _ :: _ :: _ => exact understands

/-- What was understood as a block or an endorsement is one. -/
theorem Understands.ofBytes? {packet : DataPacket} {payload : BakingPayload}
    (understands : session.Understands mode [packet]) (parsed : session.parsed = .baking payload) :
    BakingPayload.ofBytes? packet.data = some payload := by
  obtain ⟨_, _, ⟨_, _, same⟩ | ⟨_, reply, _, same⟩⟩ := understands
  · exact Parsed.ofPayload_eq_baking_iff.1 (same.symm.trans parsed)
  · exact absurd (same.symm.trans parsed) Parsed.ofReply_ne_baking

/-- What was understood as an operation was read by the platform, from this packet and for
this key. -/
theorem Understands.exchanges {packet : DataPacket} {group : OperationGroup}
    (understands : session.Understands mode [packet])
    (parsed : session.parsed = .operations group) :
    packet.exchanges = [⟨.parse session.key packet.data mode.acceptedTags, some group⟩] := by
  obtain ⟨_, _, ⟨_, _, same⟩ | ⟨_, reply, made, same⟩⟩ := understands
  · exact absurd (same.symm.trans parsed) Parsed.ofPayload_ne_operations
  · rw [made, Parsed.ofReply_eq_operations_iff.1 (same.symm.trans parsed)]

/-- The first data packet settles what is understood, and any further one undoes it. -/
theorem Understands.push {packets : List DataPacket} {control : PacketControl} {data : Bytes}
    {exchanges : List Exchange} {read : Session} (understands : session.Understands mode packets)
    (hashing : session.isHashing = true) (count : session.packets.toNat = packets.length)
    (classifies : mode.Classifies (session.counted control.kind) data exchanges read) :
    read.Understands mode
      (packets ++ [{ control := control, data := data, exchanges := exchanges }]) := by
  have first := packets_counted_eq_one_iff session control.kind
  rw [count, List.length_eq_zero_iff] at first
  cases packets with
  | nil =>
    have isFirst := first.2 rfl
    cases classifies with
    | raw raw =>
      have contradiction : session.isHashing = false := raw
      rw [hashing] at contradiction
      cases contradiction
    | later _ _ later => exact absurd isFirst later
    | payload _ baking _ kind =>
      subst baking
      exact ⟨rfl, Magic.isAllowed_of_isBaking kind, .inl ⟨kind, rfl, rfl⟩⟩
    | operations _ _ allowed kind => exact ⟨rfl, allowed, .inr ⟨kind, _, rfl, rfl⟩⟩
  | cons packet more =>
    have notFirst : (session.counted control.kind).packets ≠ 1 := by
      intro isFirst
      cases first.1 isFirst
    have known : session.magic = Magic.ofPayload packet.data ∧
        session.magic.isAllowed mode = true := by
      cases more with
      | nil => exact ⟨understands.1, understands.2.1⟩
      | cons next more => exact ⟨understands.1, understands.2.1⟩
    cases classifies with
    | raw raw =>
      have contradiction : session.isHashing = false := raw
      rw [hashing] at contradiction
      cases contradiction
    | later _ _ _ =>
      cases more with
      | nil => exact ⟨known.1, known.2, rfl⟩
      | cons next more => exact ⟨known.1, known.2, rfl⟩
    | payload _ _ isFirst _ => exact absurd isFirst notFirst
    | operations _ isFirst _ _ => exact absurd isFirst notFirst

/-- A baking device classifies a data packet only if it is the first. -/
theorem packets_eq_nil_of_baking {data : Bytes} {exchanges : List Exchange} {read : Session}
    {kind : PacketKind} (carries : session.Carries .baking request)
    (classifies : Mode.baking.Classifies (session.counted kind) data exchanges read) :
    request.packets = [] := by
  have first := packets_counted_eq_one_iff session kind
  rw [carries.count, List.length_eq_zero_iff] at first
  have hashing : (session.counted kind).isHashing = true := (carries.baking rfl).1
  exact first.1 (classifies.first_of_baking hashing)

/-- A session that takes a data packet carries the request with that packet. -/
theorem Carries.take {control : PacketControl} {data : Bytes} {exchanges : List Exchange}
    (carries : session.Carries mode request)
    (takes : session.Takes mode control data exchanges taken)
    (permitted : control.kind = .hashOnlyNext → mode = .wallet) :
    taken.Carries mode
      (request.push { control := control, data := data, exchanges := exchanges }) := by
  obtain ⟨kind, room, read, classifies, appending⟩ := takes
  obtain ⟨magic, parsed, rfl⟩ := exists_of_classifies classifies
  obtain ⟨message, rfl, streamEq, rawEq⟩ := append_ok appending
  exact {
    signing := carries.signing
    instruction := carries.instruction
    key := carries.key
    count := by
      have counts := toNat_packets_counted room control.kind
      rw [carries.count] at counts
      rw [SigningRequest.push, List.length_append]
      exact counts
    unfinished := carries.unfinished
    hashOnly := by
      have flag := carries.hashOnly
      simp [SigningRequest.push, counted, classifyAs, flag]
    hashed := by
      intro hashing
      have sameStream := carries.hashed hashing
      rw [SigningRequest.message_push, Blake2b.Stream.absorb_append, ← sameStream]
      exact streamEq
    raw := by
      intro raw
      have sameMessage := carries.raw raw
      rw [SigningRequest.message_push]
      have appended := rawEq raw
      simpa [counted, classifyAs, sameMessage] using appended
    understands := by
      intro hashing
      have understands := carries.understands hashing
      exact (understands.push hashing carries.count classifies).withMessage message
    baking := by
      intro baking
      subst baking
      have single := packets_eq_nil_of_baking carries classifies
      refine ⟨(carries.baking rfl).1, by simp [SigningRequest.push, single], ?_⟩
      intro packet member
      simp only [SigningRequest.push, single, List.nil_append, List.mem_singleton] at member
      subst member
      cases kindEq : control.kind with
      | first => exact absurd kindEq kind
      | next => rfl
      | hashOnlyNext => cases permitted kindEq }

/-- A data packet that a baking device takes is the only one of its request. -/
theorem Carries.take_only {control : PacketControl} {data : Bytes} {exchanges : List Exchange}
    (carries : session.Carries .baking request)
    (takes : session.Takes .baking control data exchanges taken)
    (permitted : control.kind = .hashOnlyNext → Mode.baking = .wallet) :
    request.packets = [] ∧ control.kind = .next ∧
      taken.Carries .baking { request with
        packets := [{ control := control, data := data, exchanges := exchanges }] } ∧
      taken.Understands .baking
        [{ control := control, data := data, exchanges := exchanges }] := by
  obtain ⟨_, classifies, _⟩ := takes.understood
  have none := packets_eq_nil_of_baking carries classifies
  have carried := carries.take takes permitted
  rw [SigningRequest.push, none, List.nil_append] at carried
  have kind : control.kind = .next := (carried.baking rfl).2.2 _ (List.mem_singleton.2 rfl)
  exact ⟨none, kind, carried, carried.understands (carried.baking rfl).1⟩

/-- A baking device never answers by the hash alone. -/
theorem Carries.unflagged (carries : session.Carries .baking request) :
    session.hashOnly = false := by
  rw [carries.hashOnly, List.any_eq_false]
  intro packet member
  simp [(carries.baking rfl).2.2 packet member]

/-- A finished request of a baking device has a single data packet, and nothing but its hash
is signed. -/
theorem Carries.single (carries : session.Carries .baking request) (complete : request.IsComplete) :
    ∃ data exchanges, request.packets =
      [{ control := { kind := .next, last := true }, data := data, exchanges := exchanges }] ∧
      session.Understands .baking request.packets := by
  obtain ⟨hashing, atMostOne, kinds⟩ := carries.baking rfl
  obtain ⟨front, final, split, _, last⟩ := complete
  have alone : request.packets = [final] := by
    rw [split, List.length_append, List.length_singleton] at atMostOne
    have empty : front = [] := List.length_eq_zero_iff.1 (by omega)
    rw [split, empty, List.nil_append]
  have kind : final.control.kind = .next := kinds final (by simp [alone])
  obtain ⟨⟨_, _⟩, data, exchanges⟩ := final
  cases kind
  cases last
  exact ⟨data, exchanges, alone, carries.understands hashing⟩

/-- The hash of a finished session is that of the bytes of all data packets. -/
theorem Carries.finalHash_finish (carries : session.Carries mode request)
    (hashing : session.isHashing = true) :
    session.finish.finalHash = some (Blake2b.hash request.message) := by
  rw [finish_of_hashing hashing, carries.hashed hashing, Blake2b.Stream.digest_absorb]

/-- A hashed request is signed by its hash. -/
theorem Carries.eq_of_hashing (carries : session.Carries mode request)
    (hashing : session.isHashing = true) {message : Bytes}
    (asked : session.finish.toSign? = some message) :
    message = (Blake2b.hash request.message).toList := by
  have finished := carries.finalHash_finish hashing
  simp only [toSign?, isHashing_finish, hashing, if_true, finished, Option.map_some] at asked
  split at asked
  · cases asked
  · exact (Option.some.inj asked).symm

/-- A baking device signs the hash of the one data packet. -/
theorem Carries.eq_hash_of_single {instruction : Instruction} {key : KeyPath}
    {packet : DataPacket} {message : Bytes}
    (carries : session.Carries .baking
      { instruction := instruction, key := key, packets := [packet] })
    (asked : session.finish.toSign? = some message) :
    message = (Blake2b.hash packet.data).toList := by
  have hashed := carries.eq_of_hashing (carries.baking rfl).1 asked
  rw [SigningRequest.message_singleton] at hashed
  exact hashed

/-- A raw request is signed as it is. -/
theorem Carries.eq_of_raw (carries : session.Carries mode request)
    (raw : session.isHashing = false) {message : Bytes}
    (asked : session.finish.toSign? = some message) : message = request.message := by
  have kept := carries.raw raw
  rw [finish_of_raw raw, toSign?, raw, kept] at asked
  exact (Option.some.inj asked).symm

/-- Only raw signing does without the hash. -/
theorem Carries.isHashing_iff_ne (carries : session.Carries mode request) :
    session.isHashing = true ↔ request.instruction ≠ .signUnsafe := by
  rw [isHashing, carries.instruction]
  simp

theorem Carries.isHashing_iff (carries : session.Carries mode request) :
    session.isHashing = true ↔
      request.instruction = .sign ∨ request.instruction = .signWithHash := by
  have signing := carries.signing
  rw [carries.instruction] at signing
  rw [carries.isHashing_iff_ne]
  revert signing
  cases request.instruction <;> decide

end Session

end TezosSigner
