/-
Module: TezosSigner.Proofs.PayloadGrammar
Purpose: Which byte strings are a block or an endorsement, and which level they carry.
Main exports:
  BakingPayload.Spells, BakingPayload.ofBytes?_eq_some_iff, BakingPayload.IsReadAt,
  BakingPayload.Spells.of_agrees, BakingPayload.reads_exactly
-/
import TezosSigner.Proofs.Policy

namespace TezosSigner.BakingPayload

/-!
The level that the guard compares with the high-water mark stands in one place in a block and in
another in an endorsement, and each place is found by counting bytes.  `Spells` says without
counting what the two look like from front to back.  The reader finds the payload of every byte
string that is spelled this way and of no other, so the guard never takes other bytes for a level.
-/

/-- A byte string is a block or an endorsement that carries a payload.  A block goes on behind its
level; in an endorsement the branch and the tag stand before the level, and nothing behind it. -/
inductive Spells : Bytes → BakingPayload → Prop where
  | block {chain : Vector UInt8 4} {level : UInt32} {further : Bytes} (continues : further ≠ []) :
      Spells ([0x01] ++ chain.toList ++ encodeWord level ++ further)
        { chain := chain, mark := { level := level, endorsement := false } }
  | endorsement {chain : Vector UInt8 4} {level : UInt32} {between : Bytes}
      (long : between.length = 33) :
      Spells ([0x02] ++ chain.toList ++ between ++ encodeWord level)
        { chain := chain, mark := { level := level, endorsement := true } }

/-- The places that a payload is read from: its kind, its chain and its level.  Where there is no
payload, only the kind was looked at. -/
def IsReadAt : Magic → Nat → Prop
  | .block, index => index < 9
  | .endorsement, index => index < 5 ∨ 38 ≤ index
  | _, index => index = 0

variable {bytes other : Bytes} {payload : BakingPayload}

/-- A byte string that reaches some offset is its first byte, the four bytes of a chain, as many
bytes between them and the offset as it takes, and what stands from there on. -/
theorem exists_parts {gap : Nat} {chain behind : Bytes} (inside : 5 + gap ≤ bytes.length)
    (front : (bytes.drop 1).take 4 = chain) (back : bytes.drop (5 + gap) = behind) :
    ∃ first between, between.length = gap ∧
      bytes = [first] ++ chain ++ between ++ behind := by
  cases bytes with
  | nil => simp at inside
  | cons first bytes =>
    rw [List.length_cons] at inside
    rw [List.drop_succ_cons, List.drop_zero] at front
    rw [show 5 + gap = (4 + gap) + 1 by omega, List.drop_succ_cons] at back
    refine ⟨first, (bytes.drop 4).take gap, ?_, ?_⟩
    · rw [List.length_take, List.length_drop]
      omega
    · rw [← front, ← back, ← List.drop_drop, List.append_assoc, List.append_assoc,
        List.take_append_drop, List.take_append_drop, List.singleton_append]

/-- A chain stands behind the first byte, and a level at its offset, with as many bytes between
them as the offset says. -/
theorem read?_eq_some_iff (gap : Nat) {endorsement : Bool} :
    read? bytes (5 + gap) endorsement = some payload ↔
      payload.mark.endorsement = endorsement ∧ ∃ first between rest, between.length = gap ∧
        bytes = [first] ++ payload.chain.toList ++ between ++ encodeWord payload.mark.level ++
          rest := by
  constructor
  · intro read
    simp only [read?, Option.bind_eq_bind, Option.bind_eq_some_iff, Option.pure_def,
      Option.some.injEq, Prod.exists] at read
    obtain ⟨chain, front, level, rest, back, rfl⟩ := read
    rw [decodeWord?_eq_some_iff] at back
    -- A level was found behind the offset, so the byte string reaches it.
    have inside : 5 + gap ≤ bytes.length := by
      have long := congrArg List.length back
      rw [List.length_drop, List.length_append, length_encodeWord] at long
      omega
    obtain ⟨first, between, counted, whole⟩ :=
      exists_parts inside (toList_of_fixed? front).symm back
    refine ⟨rfl, first, between, rest, counted, ?_⟩
    rw [whole, List.append_assoc _ (encodeWord level) rest]
  · rintro ⟨rfl, first, between, rest, counted, rfl⟩
    have front : (([first] ++ payload.chain.toList ++ between ++ encodeWord payload.mark.level ++
        rest).drop 1).take 4 = payload.chain.toList := by
      simp
    have back : ([first] ++ payload.chain.toList ++ between ++ encodeWord payload.mark.level ++
        rest).drop (5 + gap) = encodeWord payload.mark.level ++ rest := by
      rw [List.append_assoc _ _ rest]
      exact List.drop_left' (by simp [counted]; omega)
    simp only [read?, front, back, fixed?_toList, decodeWord?_encodeWord]
    rfl

/-- What is read as a block or an endorsement is one. -/
theorem spells_of_ofBytes? (read : ofBytes? bytes = some payload) : Spells bytes payload := by
  obtain ⟨chain, level, endorsement⟩ := payload
  unfold ofBytes? at read
  split at read
  · rename_i block
    split at read
    · rename_i long
      obtain ⟨rfl, first, between, rest, counted, rfl⟩ := (read?_eq_some_iff 0).1 read
      cases List.length_eq_zero_iff.1 counted
      have leading := (Magic.ofPayload_eq_iff (by decide)).1 block
      cases leading
      rw [List.append_nil]
      refine .block ?_
      rintro rfl
      simp [blockLength] at long
    · cases read
  · rename_i endorsement
    split at read
    · rename_i long
      obtain ⟨rfl, first, between, rest, counted, rfl⟩ := (read?_eq_some_iff 33).1 read
      have leading := (Magic.ofPayload_eq_iff (by decide)).1 endorsement
      cases leading
      have ends : rest = [] := by
        apply List.length_eq_zero_iff.1
        simp [endorsementLength, counted] at long
        omega
      rw [ends, List.append_nil]
      exact .endorsement counted
    · cases read
  · cases read

/-- A block or an endorsement is read as what it carries. -/
theorem Spells.ofBytes?_eq (spells : Spells bytes payload) : ofBytes? bytes = some payload := by
  cases spells with
  | @block chain level further continues =>
    have long : blockLength ≤ ([0x01] ++ chain.toList ++ encodeWord level ++ further).length := by
      have some := List.length_pos_iff.2 continues
      simp [blockLength]
      omega
    refine (if_pos long).trans ((read?_eq_some_iff 0).2 ⟨rfl, 0x01, [], further, rfl, ?_⟩)
    rw [List.append_nil]
  | @endorsement chain level between long =>
    have whole : ([0x02] ++ chain.toList ++ between ++ encodeWord level).length =
        endorsementLength := by
      simp [endorsementLength, long]
    refine (if_pos whole).trans ((read?_eq_some_iff 33).2 ⟨rfl, 0x02, between, [], long, ?_⟩)
    rw [List.append_nil]

theorem ofBytes?_eq_some_iff : ofBytes? bytes = some payload ↔ Spells bytes payload :=
  ⟨spells_of_ofBytes?, Spells.ofBytes?_eq⟩

/-- A byte string spells one payload at most, so it is not both a block and an endorsement. -/
theorem Spells.unique {second : BakingPayload} (one : Spells bytes payload)
    (two : Spells bytes second) : payload = second := by
  have same := one.ofBytes?_eq.symm.trans two.ofBytes?_eq
  exact Option.some.inj same

/-- The leading byte of a block or an endorsement tells which of the two it is. -/
theorem Spells.kind (spells : Spells bytes payload) :
    Magic.ofPayload bytes = if payload.mark.endorsement then .endorsement else .block := by
  cases spells with
  | block _ => rfl
  | endorsement _ => rfl

/-- Every payload is spelled by some byte string. -/
theorem exists_spells (payload : BakingPayload) : ∃ bytes, Spells bytes payload := by
  obtain ⟨chain, level, endorsement⟩ := payload
  cases endorsement with
  | false => exact ⟨_, .block (List.cons_ne_nil 0 [])⟩
  | true =>
    have between : (List.replicate 33 (0 : UInt8)).length = 33 := List.length_replicate
    exact ⟨_, .endorsement between⟩

/-- Byte strings with the same bytes up to some place start alike. -/
theorem take_eq_of_agrees {count : Nat}
    (agrees : ∀ index, index < count → other[index]? = bytes[index]?) :
    other.take count = bytes.take count := by
  apply List.ext_getElem?
  intro index
  rw [List.getElem?_take, List.getElem?_take]
  split
  · rename_i inside
    exact agrees index inside
  · rfl

/-- A byte string of the same length that agrees with a block or an endorsement in the places that
a payload is read from spells the same payload. -/
theorem Spells.of_agrees (spells : Spells bytes payload) (long : other.length = bytes.length)
    (agrees : ∀ index, IsReadAt (Magic.ofPayload bytes) index → other[index]? = bytes[index]?) :
    Spells other payload := by
  cases spells with
  | @block chain level further continues =>
    have front : other.take 9 = [0x01] ++ chain.toList ++ encodeWord level := by
      rw [take_eq_of_agrees agrees]
      exact List.take_left' (by simp)
    have more : other.drop 9 ≠ [] := by
      intro ended
      have some := List.length_pos_iff.2 continues
      have short := congrArg List.length ended
      simp [long] at short
      omega
    rw [← List.take_append_drop 9 other, front]
    exact .block more
  | @endorsement chain level between counted =>
    -- Nothing is known of the bytes between; that they are as many is all that the grammar asks.
    have front : other.take 5 = [0x02] ++ chain.toList := by
      rw [take_eq_of_agrees fun index inside => agrees index (.inl inside), List.append_assoc]
      exact List.take_left' (by simp)
    have back : other.drop 38 = encodeWord level := by
      have same : other.drop 38 =
          ([0x02] ++ chain.toList ++ between ++ encodeWord level).drop 38 := by
        apply List.ext_getElem?
        intro index
        rw [List.getElem?_drop, List.getElem?_drop]
        exact agrees (38 + index) (.inr (Nat.le_add_right 38 index))
      rw [same]
      exact List.drop_left' (by simp [counted])
    have middle : ((other.drop 5).take 33).length = 33 := by
      simp [long, counted]
    have whole : other = [0x02] ++ chain.toList ++ (other.drop 5).take 33 ++ encodeWord level := by
      rw [← back, ← front, List.append_assoc, ← List.drop_drop (i := 33) (j := 5),
        List.take_append_drop, List.take_append_drop]
    rw [whole]
    exact .endorsement middle

/-- What is read depends on the length and on the bytes that a payload is read from. -/
theorem ofBytes?_congr (long : other.length = bytes.length)
    (agrees : ∀ index, IsReadAt (Magic.ofPayload bytes) index → other[index]? = bytes[index]?) :
    ofBytes? other = ofBytes? bytes := by
  have leading : other.head? = bytes.head? := by
    have looked : IsReadAt (Magic.ofPayload bytes) 0 := by
      cases Magic.ofPayload bytes <;> simp [IsReadAt]
    rw [List.head?_eq_getElem?, List.head?_eq_getElem?]
    exact agrees 0 looked
  have kind := Magic.ofPayload_congr leading
  apply Option.ext
  intro payload
  rw [ofBytes?_eq_some_iff, ofBytes?_eq_some_iff]
  constructor
  · intro spells
    refine spells.of_agrees long.symm fun index looked => ?_
    rw [kind] at looked
    exact (agrees index looked).symm
  · intro spells
    exact spells.of_agrees long agrees

/-- A payload is read off the byte strings that spell it and off no other, and nothing is read off
the rest.  Of the bytes only those in the places of the kind, the chain and the level count; no
byte string spells two payloads, every payload is spelled, and what is read is of the kind that the
leading byte tells. -/
theorem reads_exactly :
    (∀ (bytes : Bytes) (payload : BakingPayload),
      ofBytes? bytes = some payload ↔ Spells bytes payload) ∧
    (∀ bytes : Bytes, ofBytes? bytes = none ↔ ∀ payload, ¬ Spells bytes payload) ∧
    (∀ bytes other : Bytes, other.length = bytes.length →
      (∀ index, IsReadAt (Magic.ofPayload bytes) index → other[index]? = bytes[index]?) →
        ofBytes? other = ofBytes? bytes) ∧
    (∀ (bytes : Bytes) (payload second : BakingPayload), Spells bytes payload →
      Spells bytes second → payload = second) ∧
    (∀ payload : BakingPayload, ∃ bytes, ofBytes? bytes = some payload) ∧
    (∀ (bytes : Bytes) (payload : BakingPayload), ofBytes? bytes = some payload →
      (Magic.ofPayload bytes).isBaking = true ∧
        Magic.ofPayload bytes = if payload.mark.endorsement then .endorsement else .block) := by
  refine ⟨fun _ _ => ofBytes?_eq_some_iff, ?_, fun _ _ => ofBytes?_congr,
    fun _ _ _ => Spells.unique, ?_, ?_⟩
  · intro bytes
    simp only [Option.eq_none_iff_forall_ne_some, ne_eq, ofBytes?_eq_some_iff]
  · intro payload
    obtain ⟨bytes, spells⟩ := exists_spells payload
    exact ⟨bytes, spells.ofBytes?_eq⟩
  · intro bytes payload read
    exact ⟨Magic.isBaking_of_ofBytes? read, (spells_of_ofBytes? read).kind⟩

/-- Two endorsements with different branches and tags carry the same level. -/
theorem any_branch_read :
    ofBytes? ([0x02, 0, 0, 0, 1] ++ List.replicate 33 0xff ++ encodeWord 501) =
        some { chain := #v[0, 0, 0, 1], mark := { level := 501, endorsement := true } } ∧
      Magic.ofPayload ([0x02, 0, 0, 0, 1] ++ List.replicate 33 0xff ++ encodeWord 501) =
        .endorsement := by
  have spells : Spells ([0x02] ++ (#v[0, 0, 0, 1] : Vector UInt8 4).toList ++
      List.replicate 33 0 ++ encodeWord 501)
      { chain := #v[0, 0, 0, 1], mark := { level := 501, endorsement := true } } :=
    .endorsement List.length_replicate
  have plain : ofBytes? ([0x02, 0, 0, 0, 1] ++ List.replicate 33 0 ++ encodeWord 501) =
      some { chain := #v[0, 0, 0, 1], mark := { level := 501, endorsement := true } } :=
    (reads_exactly.1 _ _).2 spells
  have alike : ofBytes? ([0x02, 0, 0, 0, 1] ++ List.replicate 33 0xff ++ encodeWord 501) =
      ofBytes? ([0x02, 0, 0, 0, 1] ++ List.replicate 33 0 ++ encodeWord 501) := by
    refine reads_exactly.2.2.1 _ _ rfl ?_
    rintro index (front | back)
    · rw [List.append_assoc, List.append_assoc, List.getElem?_append_left front,
        List.getElem?_append_left front]
    · rw [List.getElem?_append_right (by simpa using back),
        List.getElem?_append_right (by simpa using back)]
      rfl
  have read := alike.trans plain
  exact ⟨read, (reads_exactly.2.2.2.2.2 _ _ read).2⟩

end TezosSigner.BakingPayload
