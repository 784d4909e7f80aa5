/-
Module: TezosSigner.Proofs.Packets
Purpose: The ways in which a signer can take a data packet.
Main exports:
  Session.counted, Session.Takes, Signer.concluded, Signer.TakesPacket, Signer.signNext_of_room,
  Signer.signNext_continues, Signer.signNext_yields
-/
import TezosSigner.Proofs.Message
import TezosSigner.Proofs.Policy
import TezosSigner.Signer.Step

namespace TezosSigner

namespace Session

/-- A session that has counted one more data packet. -/
def counted (session : Session) (kind : PacketKind) : Session :=
  { session with
    packets := session.packets + 1
    hashOnly := session.hashOnly || kind == .hashOnlyNext }

/-- A data packet is counted as long as there is room in the counter. -/
theorem nextPacket_of_room {session : Session} {kind : PacketKind} (carries : kind ≠ .first)
    (room : session.packets < maxPackets) :
    session.nextPacket kind = (.ok (session.counted kind).packets, session.counted kind) := by
  cases kind with
  | first => exact absurd rfl carries
  | next => simp [nextPacket, nextPacket.count, counted, room]
  | hashOnlyNext => simp [nextPacket, nextPacket.count, counted, room]

theorem nextPacket_of_full {session : Session} {kind : PacketKind} (carries : kind ≠ .first)
    (full : ¬ session.packets < maxPackets) :
    (session.nextPacket kind).1 = .error .parseError := by
  cases kind with
  | first => exact absurd rfl carries
  | next => simp [nextPacket, nextPacket.count, full]
  | hashOnlyNext => simp [nextPacket, nextPacket.count, full]

/-- A session that takes a data packet: it counts the packet, is classified by it, and adds
its bytes to the message. -/
structure Takes (mode : Mode) (session : Session) (control : PacketControl) (data : Bytes)
    (exchanges : List Exchange) (taken : Session) : Prop where
  kind : control.kind ≠ .first
  room : session.packets < maxPackets
  understood : ∃ read, mode.Classifies (session.counted control.kind) data exchanges read ∧
    read.append data = (.ok (), taken)

/-- A block or an endorsement is taken without a call. -/
theorem Takes.eq_nil_of_isBaking {mode : Mode} {session taken : Session} {control : PacketControl}
    {data : Bytes} {exchanges : List Exchange}
    (takes : session.Takes mode control data exchanges taken)
    (kind : taken.magic.isBaking = true) : exchanges = [] := by
  obtain ⟨_, _, read, classifies, appending⟩ := takes
  obtain ⟨message, rfl, _⟩ := append_ok appending
  cases classifies with
  | operations _ _ _ other =>
    have contradiction : (Magic.ofPayload data).isBaking = true := kind
    rw [other] at contradiction
    cases contradiction
  | _ => rfl

end Session

namespace Signer

/-- Where a completed session leaves the signer. -/
def concluded (signer : Signer) : Completion → Answer × Signer
  | .answered answer => (answer, { signer with session := none, status := .complete })
  | .awaits pending => ({ signer with session := none }).suspend pending

/-- A session that a data packet of the given kind may go on with. -/
structure Continues (signer : Signer) (instruction : Instruction) (control : PacketControl)
    (session : Session) : Prop where
  held : signer.session = some session
  same : session.instruction = instruction
  permitted : control.kind = .hashOnlyNext → signer.config.mode = .wallet

/-- The ways in which a signer can take a data packet. -/
inductive TakesPacket (signer : Signer) (state : BakingState) (instruction : Instruction)
    (control : PacketControl) (data : Bytes) :
    List Exchange → Except SignerError (Answer × Signer) → Prop where
  | refused {error : SignerError} :
      TakesPacket signer state instruction control data [] (.error error)
  | overflowed {session read : Session} {exchanges : List Exchange} {error : SignerError}
      (continues : signer.Continues instruction control session)
      (classifies : signer.config.mode.Classifies (session.counted control.kind) data
        exchanges read) :
      TakesPacket signer state instruction control data exchanges (.error error)
  | collected {session taken : Session} {exchanges : List Exchange} {count : UInt8}
      (continues : signer.Continues instruction control session)
      (takes : session.Takes signer.config.mode control data exchanges taken)
      (more : control.last = false) (counts : count = session.packets + 1) :
      TakesPacket signer state instruction control data exchanges
        (.ok (.none, { signer with session := some taken, status := .receiving count }))
  | finished {session taken : Session} {exchanges after : List Exchange}
      {outcome : Except SignerError Completion}
      (continues : signer.Continues instruction control session)
      (takes : session.Takes signer.config.mode control data exchanges taken)
      (last : control.last = true)
      (completes : (signer.config.mode.complete state taken.finish).Yields after outcome) :
      TakesPacket signer state instruction control data (exchanges ++ after)
        (outcome.map signer.concluded)

variable {signer : Signer} {state : BakingState} {instruction : Instruction}
  {control : PacketControl} {data : Bytes} {exchanges : List Exchange}
  {outcome : Except SignerError (Answer × Signer)}

/-- A session that is full refuses every data packet at once. -/
theorem signNext_of_full {session : Session}
    (continues : signer.Continues instruction control session) (carries : control.kind ≠ .first)
    (full : ¬ session.packets < Session.maxPackets) :
    signer.signNext state instruction control data = throw .parseError := by
  have permitted : ¬ (control.kind = .hashOnlyNext ∧ signer.config.mode ≠ .wallet) :=
    fun ⟨flag, other⟩ => other (continues.permitted flag)
  rw [signNext, if_neg permitted, continues.held]
  simp only [continues.same, ne_eq, not_true_eq_false, if_false,
    Session.nextPacket_of_full carries full]
  rfl

/-- Otherwise the session is classified by the packet, adds its bytes to the message, and is
completed if the packet was the last. -/
theorem signNext_of_room {session : Session}
    (continues : signer.Continues instruction control session) (carries : control.kind ≠ .first)
    (room : session.packets < Session.maxPackets) :
    signer.signNext state instruction control data = (do
      let read ← signer.config.mode.classify (session.counted control.kind)
        (session.counted control.kind).packets data
      Act.ofExcept (read.append data).1
      if control.last then
        let completion ← signer.config.mode.complete state (read.append data).2.finish
        pure (signer.concluded completion)
      else
        pure (.none, { signer with
          session := some (read.append data).2
          status := .receiving (session.counted control.kind).packets })) := by
  have permitted : ¬ (control.kind = .hashOnlyNext ∧ signer.config.mode ≠ .wallet) :=
    fun ⟨flag, other⟩ => other (continues.permitted flag)
  have counted (next : UInt8 → Act (Answer × Signer)) :
      (Act.ofExcept (.ok (session.counted control.kind).packets) >>= next) =
        next (session.counted control.kind).packets := rfl
  rw [signNext, if_neg permitted, continues.held]
  simp only [continues.same, ne_eq, not_true_eq_false, if_false,
    Session.nextPacket_of_room carries room, counted]
  refine bind_congr fun read => bind_congr fun _ => ?_
  split
  · refine bind_congr fun completion => ?_
    cases completion <;> rfl
  · rfl

/-- A data packet that does not go on with the session, or finds it full, is refused at once. -/
theorem signNext_continues (signer : Signer) (state : BakingState) (instruction : Instruction)
    (control : PacketControl) (data : Bytes) :
    (∃ error, signer.signNext state instruction control data = throw error) ∨
      ∃ session, signer.Continues instruction control session ∧ control.kind ≠ .first ∧
        session.packets < Session.maxPackets := by
  by_cases barred : control.kind = .hashOnlyNext ∧ signer.config.mode ≠ .wallet
  · exact .inl ⟨_, if_pos barred⟩
  cases held : signer.session with
  | none => exact .inl ⟨.parseError, by rw [signNext, if_neg barred, held]⟩
  | some session =>
    by_cases same : session.instruction = instruction
    · have continues : signer.Continues instruction control session :=
        ⟨held, same, fun flag => Decidable.not_not.1 fun other => barred ⟨flag, other⟩⟩
      by_cases first : control.kind = .first
      · refine .inl ⟨.wrongParameter, ?_⟩
        rw [signNext, if_neg barred, held, first]
        simp only [same, ne_eq, not_true_eq_false, if_false, Session.nextPacket]
        rfl
      · by_cases room : session.packets < Session.maxPackets
        · exact .inr ⟨session, continues, first, room⟩
        · exact .inl ⟨.parseError, signNext_of_full continues first room⟩
    · refine .inl ⟨.parseError, ?_⟩
      rw [signNext, if_neg barred, held]
      exact if_pos same

theorem signNext_yields
    (h : (signer.signNext state instruction control data).Yields exchanges outcome) :
    signer.TakesPacket state instruction control data exchanges outcome := by
  rcases signNext_continues signer state instruction control data with
    ⟨error, refused⟩ | ⟨session, continues, carries, room⟩
  · rw [refused] at h
    obtain ⟨rfl, rfl⟩ := Act.yields_throw_iff.1 h
    exact .refused
  rw [signNext_of_room continues carries room] at h
  rcases Act.yields_bind_iff.1 h with ⟨error, rfl, first⟩ | ⟨front, back, read, rfl, first, more⟩
  · rcases Mode.classify_yields first with ⟨rfl, _⟩ | ⟨read, impossible, _⟩
    · exact .refused
    · cases impossible
  rcases Mode.classify_yields first with ⟨_, _, impossible⟩ | ⟨read, same, classifies⟩
  · cases impossible
  cases same
  cases appending : read.append data with
  | mk appended taken =>
  simp only [appending] at more
  rcases Act.yields_ofExcept_bind_iff.1 more with ⟨error, rfl, rfl, rfl⟩ | ⟨_, rfl, more⟩
  · rw [List.append_nil]
    exact .overflowed continues classifies
  -- From here on the packet is taken; all that is left is whether it was the last.
  have takes : session.Takes signer.config.mode control data front taken :=
    ⟨carries, room, read, classifies, appending⟩
  split at more
  · rename_i last
    obtain ⟨completed, completes, rfl⟩ := Act.yields_bind_pure_iff.1 more
    exact .finished continues takes last completes
  · rename_i notLast
    obtain ⟨rfl, rfl⟩ := Act.yields_pure_iff.1 more
    rw [List.append_nil]
    exact .collected continues takes (Bool.not_eq_true _ ▸ notLast) rfl

end Signer

end TezosSigner
