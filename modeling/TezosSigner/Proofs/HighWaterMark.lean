/-
Module: TezosSigner.Proofs.HighWaterMark
Purpose: Between two resets of the mark, blocks and endorsements are released in order.
Main exports:
  Happening.released?, Device.Happens.released, Device.Run.released_increasing,
  Device.Run.cuts_reset, Device.Run.unanswered_reset_releases_twice
-/
import TezosSigner.Proofs.Ledger

namespace TezosSigner

/-!
A signature of a block or an endorsement leaves the device only after its mark was stored.
So whatever is released lies beyond the mark that the record holds at that time, and from
then on the record holds a mark that is at least as high.  Failed stores, power cuts, new
sessions and new keys may move the mark up or leave it where it is; only a reset can move it
back.

A reset counts from the moment that its record is stored, even if power is lost before the
operator's consent is answered.  It has to: the mark has moved back by then, and from there on
the blocks that were released before can be released again.
-/

/-- The payload whose signature was answered to a data packet. -/
def Happening.released? : Happening → Option Bytes
  | .step input _ (some (.ok (.signature _ _))) =>
      match input.command? with
      | some (.signNext _ _ data) => some data
      | _ => none
  | _ => none

/-- The mark of a payload. -/
def BakingPayload.markOf? (data : Bytes) : Option Mark :=
  (BakingPayload.ofBytes? data).map (·.mark)

/-- The hash of whatever was released is what the platform was called to sign. -/
def Happening.SignsReleased (happening : Happening) : Prop :=
  ∀ data, happening.released? = some data → ∃ key reply rest,
    happening.exchanges = ⟨.sign key (Blake2b.hash data).toList, .ok reply⟩ :: rest

namespace Mark

theorem lt_irrefl (mark : Mark) : ¬ mark < mark := by
  rw [lt_iff]
  rintro (higher | ⟨_, fresh, endorsed⟩)
  · exact UInt32.lt_irrefl mark.level higher
  · rw [fresh] at endorsed
    cases endorsed

/-- A block is beyond a mark only at a higher level. -/
theorem level_lt_of_block {mark next : Mark} (above : mark < next)
    (block : next.endorsement = false) : mark.level < next.level := by
  rcases lt_iff.1 above with higher | ⟨_, _, endorsed⟩
  · exact higher
  · rw [block] at endorsed
    cases endorsed

/-- Marks that increase from a higher mark increase from a lower one. -/
theorem pairwise_lt_of_lt {mark next : Mark} {marks : List Mark} (above : mark < next)
    (increasing : (next :: marks).Pairwise (· < ·)) : (mark :: marks).Pairwise (· < ·) := by
  obtain ⟨beyond, rest⟩ := List.pairwise_cons.1 increasing
  exact List.pairwise_cons.2 ⟨fun other member => lt_trans above (beyond other member), rest⟩

end Mark

/-- A payload was released in answer to its data packet. -/
theorem Happening.accepted?_of_released? {happening : Happening} {data : Bytes}
    (released : happening.released? = some data) :
    ∃ instruction control digest signature,
      happening.accepted? = some (.signNext instruction control data) ∧
      happening = .step happening.input happening.exchanges
        (some (.ok (.signature digest signature))) := by
  unfold released? at released
  split at released
  · rename_i input exchanges digest signature
    split at released
    · rename_i instruction control given read
      cases released
      exact ⟨instruction, control, digest, signature, read, rfl⟩
    · cases released
  · cases released

namespace Device

variable {device next first last start : Device} {progress : Progress} {happening : Happening}
  {front stretch : List Happening} {data : Bytes}

/-- A payload is released once its hash was signed and the record has its mark, which is
beyond the one before. -/
theorem Happens.released (reflects : device.Reflects progress)
    (happens : Happens device happening next) (released : happening.released? = some data) :
    ∃ mark, BakingPayload.markOf? data = some mark ∧
      (BakingState.decode device.record).mark < mark ∧
      (BakingState.decode next.record).mark = mark ∧ happening.SignsReleased := by
  obtain ⟨instruction, control, digest, signature, accepted, shape⟩ :=
    Happening.accepted?_of_released? released
  obtain ⟨answer, sameShape, performs⟩ := happens.performs accepted
  have answered : answer = .signature digest signature := by
    rw [shape] at sameShape
    cases sameShape
    rfl
  obtain ⟨_, record⟩ := happens.completes
  have takes := performs.takes
  rw [answered] at takes
  rcases takes.stores reflects with
    ⟨_, unsigned⟩ | ⟨_, payload, key, given, _, _, _, reply, holds, admits, made, settled⟩
  · exact absurd rfl (unsigned _ _ _)
  · cases reply with
    | error error => cases settled
    | ok done =>
      have kept : next.record =
          ((BakingState.decode device.record).after (.signed payload.mark)).encode := by
        rw [record, made]
        rfl
      refine ⟨payload.mark, by rw [BakingPayload.markOf?, holds]; rfl, admits.2, ?_, ?_⟩
      · rw [kept, BakingState.decode_encode_after admits]
        rfl
      · intro other same
        rw [released] at same
        rw [← Option.some.inj same]
        exact ⟨key, given, _, made⟩

/-- Where nothing is released, the mark stays or moves up, unless it is reset. -/
theorem Happens.mark_le (reflects : device.Reflects progress)
    (happens : Happens device happening next)
    (unreset : ∀ level, happening.change? progress ≠ some (.reset level)) :
    (BakingState.decode next.record).mark = (BakingState.decode device.record).mark ∨
      (BakingState.decode device.record).mark < (BakingState.decode next.record).mark := by
  rcases happens.enters reflects with ⟨_, _, same⟩ | ⟨change, changes, admits, _, record⟩
  · rw [same]
    exact .inl rfl
  · rw [record, BakingState.decode_encode_after admits]
    cases change with
    | authorized key => exact .inl rfl
    | reset level => exact absurd changes (unreset level)
    | signed mark => exact .inr admits.2

/-- What a run without a reset releases is in order, and beyond the mark at its start. -/
theorem Run.released (reflects : first.Reflects progress) (run : Run first stretch last)
    (unreset : ∀ level, .reset level ∉ progress.changes stretch) :
    (∃ marks, (stretch.filterMap Happening.released?).map BakingPayload.markOf? =
        marks.map some ∧
        ((BakingState.decode first.record).mark :: marks).Pairwise (· < ·)) ∧
      ∀ happening ∈ stretch, happening.SignsReleased := by
  -- Each happening moves the lower bound, so the induction is over all starting marks.
  induction run generalizing progress with
  | nil device => exact ⟨⟨[], rfl, List.pairwise_singleton _ _⟩, by simp⟩
  | @cons first second third happening rest head tail ih =>
    have headUnreset : ∀ level, happening.change? progress ≠ some (.reset level) := by
      intro level changes
      apply unreset level
      simp [Progress.changes, changes]
    have tailUnreset : ∀ level, .reset level ∉ (progress.next happening).changes rest := by
      intro level member
      apply unreset level
      exact List.mem_append_right _ member
    obtain ⟨⟨marks, read, increasing⟩, signs⟩ := ih (head.reflects reflects) tailUnreset
    cases releases : happening.released? with
    | none =>
      have quiet : happening.SignsReleased := by
        intro data impossible
        rw [releases] at impossible
        cases impossible
      refine ⟨⟨marks, ?_, ?_⟩, List.forall_mem_cons.2 ⟨quiet, signs⟩⟩
      · rw [List.filterMap_cons_none releases]
        exact read
      · rcases head.mark_le reflects headUnreset with same | higher
        · rw [← same]
          exact increasing
        · exact Mark.pairwise_lt_of_lt higher increasing
    | some data =>
      obtain ⟨mark, markEq, beyond, stored, signed⟩ := head.released reflects releases
      rw [stored] at increasing
      refine ⟨⟨mark :: marks, ?_, ?_⟩, List.forall_mem_cons.2 ⟨signed, signs⟩⟩
      · rw [List.filterMap_cons_some releases, List.map_cons, markEq, read]
        rfl
      · obtain ⟨later, _⟩ := List.pairwise_cons.1 (Mark.pairwise_lt_of_lt beyond increasing)
        refine List.pairwise_cons.2 ⟨?_, increasing⟩
        exact List.forall_mem_cons.2 ⟨beyond, later⟩

/-- From any point of any run until the record of a reset is next stored, whether the reset is
then answered or power is lost first, the released blocks and endorsements increase strictly,
from the mark that is stored at that point: none comes twice, and no block comes at or below a
level that has been reached. -/
theorem Run.released_increasing {config : Config} {record : Record}
    (before : Run (.boot config record) front start) (run : Run start stretch last)
    (unreset : ∀ level, .reset level ∉ (Progress.ofHistory front).changes stretch) :
    ∃ marks,
      (stretch.filterMap Happening.released?).map BakingPayload.markOf? = marks.map some ∧
      ((BakingState.decode start.record).mark :: marks).Pairwise (· < ·) ∧
      ((BakingState.decode start.record).mark :: marks).Nodup ∧
      ((BakingState.decode start.record).mark :: marks).Pairwise (fun earlier later =>
        later.endorsement = false → earlier.level < later.level) ∧
      ∀ happening ∈ stretch, happening.SignsReleased := by
  obtain ⟨_, reflects⟩ := before.reflects
  obtain ⟨⟨marks, read, increasing⟩, signs⟩ := run.released reflects unreset
  refine ⟨marks, read, increasing, ?_, increasing.imp Mark.level_lt_of_block, signs⟩
  apply increasing.imp
  intro earlier later above same
  rw [same] at above
  exact Mark.lt_irrefl later above

/-- A new baker signs the blocks of two levels, one after the other. -/
theorem Run.two_blocks_in_order :
    ∃ start stretch last, Run (.boot { mode := .baking } newBaker.encode) [] start ∧
      Run start stretch last ∧
      (∀ level, .reset level ∉ (Progress.ofHistory []).changes stretch) ∧
      stretch.filterMap Happening.released? =
        [blockHeader mainChain 1 0, blockHeader mainChain 2 0] ∧
      ∃ marks,
        (stretch.filterMap Happening.released?).map BakingPayload.markOf? = marks.map some ∧
        ((BakingState.decode start.record).mark :: marks).Pairwise (· < ·) ∧
        ((BakingState.decode start.record).mark :: marks).Nodup ∧
        ((BakingState.decode start.record).mark :: marks).Pairwise (fun earlier later =>
          later.endorsement = false → earlier.level < later.level) ∧
        ∀ happening ∈ stretch, happening.SignsReleased := by
  have second : Run (bakerAt 1) (blockSigned 2) (bakerAt 2) :=
    Run.bakes_next rfl (by decide) (by decide)
  have run := run_append_iff.2 ⟨_, Run.bakes_first, second⟩
  have unreset (level : UInt32) :
      .reset level ∉ (Progress.ofHistory []).changes (blockSigned 1 ++ blockSigned 2) := by
    simp [blockSigned, singlePacket, Progress.changes, Happening.change?, Happening.settles,
      Happening.input, Input.change?, Input.command?, ofBytes?_blockHeader, Answer.isSignature]
  exact ⟨.boot { mode := .baking } newBaker.encode, blockSigned 1 ++ blockSigned 2, bakerAt 2,
    .nil _, run, unreset, rfl, Run.released_increasing (.nil _) run unreset⟩

/-- Whatever a baking device was doing, a confirmed reset moves its mark once its record is
stored, even if power is lost before the operator is answered. -/
theorem Run.cuts_reset {signer : Signer} {record : Record} {level : UInt32}
    (baking : signer.config.mode = .baking) (valid : isValidLevel level = true) :
    Run { signer := signer, record := record }
      [.step (.command (.resetHighWaterMark level)) [] (some (.ok .pending)),
        .powerCut .confirm
          [⟨.store { BakingState.decode record with
              mark := { level := level, endorsement := false } }.encode, .ok ()⟩]]
      (.boot signer.config
        { BakingState.decode record with
          mark := { level := level, endorsement := false } }.encode) := by
  have moves : ((Action.reset level).perform (.decode record)).Yields
      [⟨.store { BakingState.decode record with
          mark := { level := level, endorsement := false } }.encode, .ok ()⟩]
      (.ok .none) := by
    refine Act.yields_bind_pure_iff.2 ⟨.ok (), ?_, rfl⟩
    rw [BakingState.resetTo, if_pos valid]
    exact Act.yields_store_iff.2 ⟨.ok (), rfl, rfl⟩
  refine .cons (.step (Signer.step_command_yields (Signer.resetHighWaterMark_asks baking valid)))
    (.single (.powerCut ?_))
  exact Dialog.begins_iff.2 ⟨[], _, Signer.step_confirm_yields rfl moves⟩

/-- The baker of the examples signs its first block, is told to set its mark back, loses power
once the mark is stored, and signs the first block again. -/
def resetCutShort : List Happening :=
  blockSigned 1 ++
    [.step (.command (.resetHighWaterMark 0)) [] (some (.ok .pending)),
      .powerCut .confirm [⟨.store newBaker.encode, .ok ()⟩]] ++
    blockSigned 1

/-- A reset may not count only once it is answered: in this run no consent is answered at all,
and yet a block is released twice. -/
theorem Run.unanswered_reset_releases_twice :
    Run (.boot { mode := .baking } newBaker.encode) resetCutShort (bakerAt 1) ∧
      (∀ exchanges answer, .step .confirm exchanges answer ∉ resetCutShort) ∧
      resetCutShort.filterMap Happening.released? =
        [blockHeader mainChain 1 0, blockHeader mainChain 1 0] ∧
      ¬ ∃ marks,
        (resetCutShort.filterMap Happening.released?).map BakingPayload.markOf? =
          marks.map some ∧
        ((BakingState.decode newBaker.encode).mark :: marks).Pairwise (· < ·) := by
  have decoded : BakingState.decode
      { newBaker with mark := { level := 1, endorsement := false } }.encode =
        { newBaker with mark := { level := 1, endorsement := false } } :=
    BakingState.decode_encode_of_bound rfl (by decide : bakingKey.path ≠ [])
  have cut : Run (bakerAt 1)
      [.step (.command (.resetHighWaterMark 0)) [] (some (.ok .pending)),
        .powerCut .confirm [⟨.store newBaker.encode, .ok ()⟩]]
      (.boot { mode := .baking } newBaker.encode) := by
    have resets : Run (bakerAt 1)
        [.step (.command (.resetHighWaterMark 0)) [] (some (.ok .pending)), _] _ :=
      Run.cuts_reset rfl (by decide)
    rw [decoded] at resets
    exact resets
  have released : resetCutShort.filterMap Happening.released? =
      [blockHeader mainChain 1 0, blockHeader mainChain 1 0] := rfl
  refine ⟨run_append_iff.2 ⟨_, run_append_iff.2 ⟨_, Run.bakes_first, cut⟩, Run.bakes_first⟩,
    ?_, released, ?_⟩
  · simp [resetCutShort, blockSigned, singlePacket]
  · rintro ⟨marks, read, increasing⟩
    have same : [({ level := 1, endorsement := false } : Mark),
        { level := 1, endorsement := false }].map some = marks.map some := by
      rw [← read, released]
      simp [BakingPayload.markOf?, ofBytes?_blockHeader]
    obtain rfl := (List.map_inj_right fun _ _ => Option.some.inj).1 same
    obtain ⟨_, twice⟩ := List.pairwise_cons.1 increasing
    exact Mark.lt_irrefl _ ((List.pairwise_cons.1 twice).1 _ (.head _))

end Device

end TezosSigner
