/-
Module: TezosSigner.Proofs.Refusals
Purpose: A refusal is a clean abort: nothing is stored, and nothing is left to be resumed.
Main exports:
  Command.begins, Device.Rests, Device.Aborts, Device.Happens.rests, Device.Run.refusal_aborts
-/
import TezosSigner.Proofs.BakingRequests
import TezosSigner.Proofs.Ledger

namespace TezosSigner

/-!
A step can be refused in many places: before its command is read, while a packet is taken,
after the platform has signed, or when the record could not be stored.  All of them leave the
device at rest, with the record that it had.  A device at rest refuses whatever would resume
something, without a call, and it stays at rest until it accepts a command that begins
something new.
-/

/-- Whether a command begins something new. -/
def Command.begins : Command → Bool
  | .signFirst _ _ _ => true
  | .getPublicKey _ => true
  | .authorizeBaking _ => true
  | .resetHighWaterMark _ => true
  | .none => false
  | .signNext _ _ _ => false
  | .queryAuthKey => false
  | .queryHighWaterMark => false

/-- Whether a command that begins something new was accepted. -/
def Happening.begins (happening : Happening) : Bool :=
  happening.accepted?.any Command.begins

theorem Progress.nothing_next {happening : Happening} (resting : happening.begins = false) :
    Progress.nothing.next happening = .nothing := by
  cases happening with
  | powerCut input exchanges => rfl
  | step input exchanges answer =>
    match answer with
    | none => rfl
    | some (.error error) => rfl
    | some (.ok given) =>
      rw [Happening.begins, Happening.accepted?] at resting
      cases read : input.command? with
      | none => simp only [Progress.next, read]
      | some command =>
        rw [read] at resting
        simp only [Progress.next, read]
        cases command with
        | none => rfl
        | signNext instruction control data => cases given <;> rfl
        | queryAuthKey => rfl
        | queryHighWaterMark => rfl
        | _ => cases resting

namespace Signer

variable {signer next : Signer} {record : Record} {state : BakingState} {input : Input}

/-- Whatever the reason, a refused step leaves the signer aborted. -/
theorem Steps.eq_abort {exchanges : List Exchange} {error : SignerError}
    (steps : signer.Steps record input exchanges (some (.error error)) next) :
    next = signer.abort := by
  generalize answerEq : some (Except.error error) = answer at steps
  cases steps with
  | obeyed _ _ => cases answerEq
  | confirmed _ _ => cases answerEq
  | rejected _ => cases answerEq
  | reset => cases answerEq
  | _ => rfl

/-- Without a session a data packet is refused at once, whatever its instruction. -/
theorem perform_signNext_of_unheld {instruction : Instruction} {control : PacketControl}
    {data : Bytes} (unheld : signer.session = none) :
    ∃ error, signer.perform state (.signNext instruction control data) = throw error := by
  unfold perform
  split
  · simp only [signNext]
    split
    · exact ⟨.wrongParameter, rfl⟩
    · rw [unheld]
      exact ⟨.parseError, rfl⟩
  · exact ⟨.invalidInstruction, rfl⟩

/-- A command that is refused at once is a step without a call. -/
theorem step_of_perform_throw {command : Command} {error : SignerError}
    (read : input.command? = some command)
    (refused : signer.perform (BakingState.decode record) command = throw error) :
    signer.step record input = pure (some (.error error), signer.abort) := by
  rw [step_of_command? read, update, refused]
  rfl

end Signer

namespace Device

/-- A device that has nothing under way: what would resume something is refused at once. -/
structure Rests (device : Device) : Prop where
  confirm : device.signer.step device.record .confirm =
    pure (some (.error .invalidState), device.signer.abort)
  reject : device.signer.step device.record .reject =
    pure (some (.error .invalidState), device.signer.abort)
  packet : ∀ {input : Input} {instruction : Instruction} {control : PacketControl} {data : Bytes},
    input.command? = some (.signNext instruction control data) →
      ∃ error, device.signer.step device.record input =
        pure (some (.error error), device.signer.abort)

/-- What a refused step makes of a device: nothing is under way, nothing was stored, and so it
stays, without a call for a signature, until something new begins. -/
structure Aborts (device next : Device) : Prop where
  unheld : next.signer.session = none
  unasked : next.signer.pending = none
  status : next.signer.status = .error
  config : next.signer.config = device.signer.config
  record : next.record = device.record
  rests : ∀ {stretch : List Happening} {last : Device}, Run next stretch last →
    (∀ happening ∈ stretch, happening.begins = false) →
      last.Rests ∧ ∀ happening ∈ stretch, ∀ exchange ∈ happening.exchanges, exchange.Unsigning

variable {device next : Device} {happening : Happening}

theorem Reflects.rests (reflects : device.Reflects .nothing) : device.Rests := by
  cases reflects with
  | nothing unheld unasked =>
    refine { confirm := ?_, reject := ?_, packet := ?_ }
    · simp only [Signer.step, Signer.confirm, unasked]
      rfl
    · simp only [Signer.step, Signer.reject, unasked]
    · intro input instruction control data read
      obtain ⟨error, refused⟩ := Signer.perform_signNext_of_unheld unheld
      exact ⟨error, Signer.step_of_perform_throw read refused⟩

/-- A device that has nothing under way calls for no signature. -/
theorem Happens.unsigning (reflects : device.Reflects .nothing)
    (happens : Happens device happening next) :
    ∀ exchange ∈ happening.exchanges, exchange.Unsigning := by
  intro exchange member key message reply same
  subst same
  obtain ⟨before, after, split⟩ := List.append_of_mem member
  obtain ⟨_, occasion⟩ := happens.occasion split
  cases reflects with
  | nothing unheld unasked =>
    cases occasion with
    | vouched _ _ continues =>
      have held := continues.held
      rw [unheld] at held
      cases held
    | consented _ waits =>
      rw [unasked] at waits
      cases waits

/-- It has nothing under way still, unless something new has begun. -/
theorem Happens.rests (reflects : device.Reflects .nothing)
    (happens : Happens device happening next) (resting : happening.begins = false) :
    next.Reflects .nothing := by
  have kept := happens.reflects reflects
  rw [Progress.nothing_next resting] at kept
  exact kept

theorem Run.rests {stretch : List Happening} {last : Device} (reflects : device.Reflects .nothing)
    (run : Run device stretch last)
    (resting : ∀ happening ∈ stretch, happening.begins = false) :
    last.Reflects .nothing ∧
      ∀ happening ∈ stretch, ∀ exchange ∈ happening.exchanges, exchange.Unsigning := by
  induction run with
  | nil device => exact ⟨reflects, by simp⟩
  | cons head tail ih =>
    rw [List.forall_mem_cons] at resting
    obtain ⟨kept, unsigning⟩ := ih (head.rests reflects resting.1) resting.2
    exact ⟨kept, List.forall_mem_cons.2 ⟨head.unsigning reflects, unsigning⟩⟩

/-- Any step that is refused, after any run and for whatever reason, aborts. -/
theorem Run.refusal_aborts {config : Config} {record : Record} {history : List Happening}
    {input : Input} {exchanges : List Exchange} {error : SignerError}
    (run : Run (.boot config record) history device)
    (refused : Happens device (.step input exchanges (some (.error error))) next) :
    device.Aborts next := by
  have reflects := (refused.reflects run.reflects.2 : next.Reflects .nothing)
  have aborted := refused.steps.1.eq_abort
  have unchanged : next.record = device.record := by
    rcases refused.enters run.reflects.2 with ⟨_, _, same⟩ | ⟨change, changes, _⟩
    · exact same
    · rw [Happening.change?_of_unsettled rfl] at changes
      cases changes
  refine {
    unheld := by rw [aborted]; rfl
    unasked := by rw [aborted]; rfl
    status := by rw [aborted]; rfl
    config := by rw [aborted]; rfl
    record := unchanged
    rests := ?_ }
  intro stretch last later resting
  obtain ⟨kept, unsigning⟩ := later.rests reflects resting
  exact ⟨kept.rests, unsigning⟩

/-- A block was signed, but the record could not be stored: the signature is kept back, and
the device is left as clean as after any other refusal. -/
theorem Run.unrecorded_block_aborts :
    ∃ device next,
      Run (.boot { mode := .baking } newBaker.encode)
        [.step (.apdu openingPacket) [] (some (.ok .none))] device ∧
      Happens device
        (.step (.apdu blockPacket)
          [⟨.sign bakingKey (Blake2b.hash (blockHeader mainChain 1 0)).toList, .ok signedReply⟩,
            ⟨.store { newBaker with mark := { level := 1, endorsement := false } }.encode,
              .error .storage⟩]
          (some (.error .storage))) next ∧
      device.Aborts next := by
  have decides := newBaker_decides (.error .storage)
  rw [← decode_encode_newBaker] at decides
  have baking : (Signer.boot { mode := .baking }).config.mode = .baking := rfl
  have hashed : Instruction.sign = .sign ∨ Instruction.sign = .signWithHash := .inl rfl
  have both := (run_opening_iff baking hashed (blockHeader_fits mainChain 1 0)
    openingPacket_reads rfl blockPacket_reads).2 ⟨rfl, rfl, _, decides, rfl, rfl⟩
  rw [decode_encode_newBaker] at both
  obtain ⟨device, opens, refused⟩ := run_pair_iff.1 both
  exact ⟨device, _, .single opens, refused, Run.refusal_aborts (.single opens) refused⟩

end Device

end TezosSigner
