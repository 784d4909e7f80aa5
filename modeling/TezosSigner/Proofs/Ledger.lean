/-
Module: TezosSigner.Proofs.Ledger
Purpose: The persisted record is the ledger: the changes of the history, made one by one.
Main exports: Progress.changes, ledger, Device.Happens.enters, Device.Run.enters,
  Device.KeepsLedger, Device.Run.keepsLedger
-/
import TezosSigner.Proofs.RecordCodec
import TezosSigner.Proofs.SinglePacket
import TezosSigner.Proofs.StoreCalls

namespace TezosSigner

/-!
The record is rewritten as a whole, by three operations that each read it, change a part and
write it back.  The ledger does the same without any bytes.  That both agree after every run
says that no field is lost on the way, that nothing is stored on a path that fails, and that
nothing is left behind in the bytes.

A power cut makes the change if it comes after the store, and none if it comes before.
-/

/-- The changes that a history makes, in their order. -/
def Progress.changes : Progress → List Happening → List Change
  | _, [] => []
  | progress, happening :: history =>
      (happening.change? progress).toList ++ (progress.next happening).changes history

/-- What a baking device has to remember after a history: what its record held at first, with
every change since. -/
def ledger (record : Record) (history : List Happening) : BakingState :=
  (Progress.nothing.changes history).foldl BakingState.after (.decode record)

/-- A change that was admitted reads back from the record. -/
theorem BakingState.decode_encode_after {record : Record} {change : Change}
    (admits : (decode record).Admits change) :
    decode ((decode record).after change).encode = (decode record).after change := by
  apply decode_encode
  intro key bound
  cases change with
  | authorized other =>
    cases bound
    exact admits
  | reset level => exact key_decode_path bound
  | signed mark => exact key_decode_path bound

/-- A change that was admitted keeps the level valid. -/
theorem BakingState.after_mark {state : BakingState} {change : Change}
    (admits : state.Admits change) :
    (state.after change).mark = state.mark ∨
      isValidLevel (state.after change).mark.level = true := by
  cases change with
  | authorized key => exact .inl rfl
  | reset level => exact .inr admits
  | signed mark => exact .inr admits.1

namespace Device

variable {device next first last : Device} {progress : Progress} {happening : Happening}
  {history : List Happening}

/-- A happening leaves the record alone, or enters the one change that it makes. -/
theorem Happens.enters (reflects : device.Reflects progress)
    (happens : Happens device happening next) :
    (happening.change? progress = none ∧ happening.stores = [] ∧
        next.record = device.record) ∨
      ∃ change, happening.change? progress = some change ∧
        (BakingState.decode device.record).Admits change ∧
        happening.stores = [((BakingState.decode device.record).after change).encode] ∧
        next.record = ((BakingState.decode device.record).after change).encode := by
  obtain ⟨_, record⟩ := happens.completes
  rw [Record.after_eq] at record
  rcases happens.storesChange reflects with
    ⟨unchanged, unstored⟩ | ⟨change, changes, _, admits, stored⟩
  · refine .inl ⟨unchanged, unstored, ?_⟩
    rw [record, ← Happening.stores, unstored]
    rfl
  · refine .inr ⟨change, changes, admits, stored, ?_⟩
    rw [record, ← Happening.stores, stored]
    rfl

/-- After a run the record holds the changes of the run, and is the encoding of that unless
nothing was stored. -/
theorem Run.enters (reflects : first.Reflects progress) (run : Run first history last) :
    BakingState.decode last.record =
        (progress.changes history).foldl BakingState.after (.decode first.record) ∧
      (history.flatMap Happening.stores = [] → last.record = first.record) ∧
      (history.flatMap Happening.stores ≠ [] →
        last.record = (BakingState.decode last.record).encode) ∧
      ((BakingState.decode last.record).mark = (BakingState.decode first.record).mark ∨
        isValidLevel (BakingState.decode last.record).mark.level = true) := by
  -- From the front, as the progress decides what a confirmation changes.
  induction run generalizing progress with
  | nil device => exact ⟨rfl, fun _ => rfl, fun stored => absurd rfl stored, .inl rfl⟩
  | @cons first second third happening rest head tail ih =>
    obtain ⟨held, untouched, written, valid⟩ := ih (head.reflects reflects)
    rw [Progress.changes, List.flatMap_cons]
    rcases head.enters reflects with
      ⟨unchanged, unstored, same⟩ | ⟨change, changes, admits, stored, record⟩
    · rw [same] at held untouched valid
      rw [unchanged, unstored]
      exact ⟨held, untouched, written, valid⟩
    · have entered : BakingState.decode second.record =
          (BakingState.decode first.record).after change := by
        rw [record]
        exact BakingState.decode_encode_after admits
      rw [changes, stored]
      rw [entered] at held valid
      refine ⟨held, fun unstored => (List.cons_ne_nil _ _ unstored).elim, fun _ => ?_, ?_⟩
      · -- The last store decides, and it may be this one.
        by_cases later : rest.flatMap Happening.stores = []
        · rw [untouched later, entered]
          exact record
        · exact written later
      · rcases valid with same | valid
        · rw [same]
          rcases BakingState.after_mark admits with unmoved | moved
          · exact .inl unmoved
          · exact .inr moved
        · exact .inr valid

end Device

/-!
## Queries

A query reads the ledger and does nothing else, so a run without its queries is a run, with
all other answers as they were.
-/

/-- A query for the baking state. -/
def Command.isQuery : Command → Bool
  | .queryAuthKey => true
  | .queryHighWaterMark => true
  | _ => false

/-- A query that was answered well. -/
def Happening.isAnsweredQuery (happening : Happening) : Bool :=
  happening.accepted?.any Command.isQuery

namespace Device

variable {device next first last : Device} {happening : Happening} {history : List Happening}
  {input : Input} {exchanges : List Exchange} {answer : Option (Except SignerError Answer)}

/-- What a baking device answers without any call, it answers whatever the platform does. -/
theorem Happens.answer_eq {command : Command} {given : Answer} {after : Signer}
    (happens : Happens device (.step input exchanges answer) next)
    (read : input.command? = some command)
    (performs : device.signer.perform (BakingState.decode device.record) command =
      pure (given, after)) :
    answer = some (.ok given) := by
  cases happens with
  | step yields =>
    rw [Signer.step_of_command? read, Signer.update, performs] at yields
    obtain ⟨_, same⟩ := Dialog.yields_done_iff.1 yields
    cases same
    rfl

/-- An answered query leaves a device as it is. -/
theorem Happens.eq_of_isAnsweredQuery (happens : Happens device happening next)
    (query : happening.isAnsweredQuery = true) : next = device := by
  obtain ⟨command, accepted, isQuery⟩ := (Option.any_eq_true _ _).1 query
  have idle : Mode.baking.Idle command := by
    cases command with
    | queryAuthKey => trivial
    | queryHighWaterMark => trivial
    | _ => cases isQuery
  exact (happens.eq_of_idle accepted idle).1

/-- A run without its answered queries is a run between the same devices. -/
theorem Run.without_queries (run : Run first history last) :
    Run first (history.filter fun happening => !happening.isAnsweredQuery) last := by
  induction run with
  | nil device => exact .nil device
  | @cons first second third happening rest head tail ih =>
    cases query : happening.isAnsweredQuery with
    | true =>
      have same := head.eq_of_isAnsweredQuery query
      rw [same] at ih
      simpa [query] using ih
    | false =>
      rw [List.filter_cons_of_pos (by simp [query])]
      exact .cons head ih

/-- A device that keeps its ledger: the record it holds, and what it answers about it. -/
structure KeepsLedger (config : Config) (record : Record) (history : List Happening)
    (device : Device) : Prop where
  /-- A wallet never calls to store anything, not even in vain. -/
  wallet : config.mode = .wallet →
    ∀ happening ∈ history, ∀ exchange ∈ happening.exchanges, exchange.Unstoring
  /-- The record reads as the ledger. -/
  reads : BakingState.decode device.record = ledger record history
  /-- Until something is stored, the record is the initial one. -/
  untouched : history.flatMap Happening.stores = [] → device.record = record
  /-- Once something was stored, the record is the ledger, byte for byte. -/
  written : history.flatMap Happening.stores ≠ [] →
    device.record = (ledger record history).encode
  /-- A baking device answers a query for the key from the ledger. -/
  authKey : config.mode = .baking → ∀ input exchanges answer next,
    Happens device (.step input exchanges answer) next →
    input.command? = some .queryAuthKey →
    answer = some (.ok (.authorizedKey (ledger record history).key))
  /-- A baking device answers a query for the mark from the ledger. -/
  highWaterMark : config.mode = .baking → ∀ input exchanges answer next,
    Happens device (.step input exchanges answer) next →
    input.command? = some .queryHighWaterMark →
    answer = some (.ok (.highWaterMark (ledger record history).mark))
  /-- Without its answered queries the history is still one of this device. -/
  quiet : Run (.boot config record)
    (history.filter fun happening => !happening.isAnsweredQuery) device
  /-- The reserved bits of the level are clear, unless the mark is the initial one. -/
  valid : (ledger record history).mark = (BakingState.decode record).mark ∨
    (ledger record history).mark.level &&& 0xC0000000 = 0

/-- No happening of a wallet calls to store anything. -/
theorem Run.unstoring {config : Config} {record : Record}
    (run : Run (.boot config record) history device) (wallet : config.mode = .wallet) :
    ∀ happening ∈ history, ∀ exchange ∈ happening.exchanges, exchange.Unstoring := by
  refine Run.concat_induction (motive := fun history _ =>
    ∀ happening ∈ history, ∀ exchange ∈ happening.exchanges, exchange.Unstoring) ?_ ?_ run
  · intro happening member
    cases member
  · intro history middle last happening before earlier happens taken member
    obtain ⟨sameConfig, reflects⟩ := before.reflects
    rcases List.mem_append.1 member with old | new
    · exact earlier taken old
    · rw [List.mem_singleton.1 new]
      exact happens.unstoring reflects (by rw [sameConfig, wallet])

/-- Every device keeps its ledger, from any record, whatever its platform does. -/
theorem Run.keepsLedger {config : Config} {record : Record}
    (run : Run (.boot config record) history device) :
    device.KeepsLedger config record history := by
  obtain ⟨sameConfig, _⟩ := run.reflects
  obtain ⟨reads, untouched, written, valid⟩ := run.enters (.boot config record)
  have reads : BakingState.decode device.record = ledger record history := reads
  have baking (mode : config.mode = .baking) : device.signer.config.mode = .baking := by
    rw [sameConfig, mode]
  rw [reads] at written valid
  refine {
    wallet := run.unstoring
    reads := reads
    untouched := untouched
    written := written
    authKey := ?_
    highWaterMark := ?_
    quiet := run.without_queries
    valid := valid.imp_right (isValidLevel_iff _).1 }
  · intro mode input exchanges answer next happens read
    have performs : device.signer.perform (BakingState.decode device.record) .queryAuthKey =
        pure (.authorizedKey (BakingState.decode device.record).key, device.signer) := by
      simp [Signer.perform, Command.isAvailable, baking mode]
    rw [← reads]
    exact happens.answer_eq read performs
  · intro mode input exchanges answer next happens read
    have performs : device.signer.perform (BakingState.decode device.record)
        .queryHighWaterMark =
        pure (.highWaterMark (BakingState.decode device.record).mark, device.signer) := by
      simp [Signer.perform, Command.isAvailable, baking mode]
    rw [← reads]
    exact happens.answer_eq read performs

/-- A new baker keeps its ledger over its first block. -/
theorem Run.first_block_kept :
    ∃ history device, Run (.boot { mode := .baking } newBaker.encode) history device ∧
      device.record = { newBaker with mark := { level := 1, endorsement := false } }.encode ∧
      device.KeepsLedger { mode := .baking } newBaker.encode history :=
  ⟨_, _, Run.bakes_first, rfl, Run.keepsLedger Run.bakes_first⟩

end Device

end TezosSigner
