/-
Module: TezosSigner.Proofs.Wire.KeyGrammar
Purpose: The byte strings that the two readers of keys accept, and how they refuse the others.
Main exports:
  WireFormat.ReadsExactly, KeyPath.Starts, KeyPath.NamesUnknown, AuthKeyResponse.Starts,
  AuthKeyResponse.NamesUnknown, KeyPath.readsExactly, AuthKeyResponse.readsExactly,
  AuthKeyResponse.decode_eq_map, KeyPath.readers_exact
-/
import TezosSigner.Proofs.Wire.Keys
import TezosSigner.Proofs.Wire.Responses

namespace TezosSigner

/-!
A key is written in two ways.  A request has the number of steps, the steps and the curve; the
response that tells the authorized key has the curve first, and it can say that there is none.
Each way has its reader.  A reader has three outcomes, and a grammar of two predicates tells them
apart: what starts with a key is read, what has its steps but no curve is an encoding error, and
all the rest is an error of length.

Neither way of writing keys has a key that starts with another one, because each key says how long
it is; and what one reader makes of some steps and a byte for the curve, the other makes of them as
well.
-/

/-- A reader reads exactly what starts with a message, finds exactly the unknown codes of its
format, and refuses everything else for its length. -/
structure WireFormat.ReadsExactly {Message : Type}
    (read : Bytes → Except WireError (Message × Nat)) (Starts : Bytes → Message → Nat → Prop)
    (NamesUnknown : Bytes → Prop) : Prop where
  ok_iff : ∀ bytes message length, read bytes = .ok (message, length) ↔ Starts bytes message length
  invalidEncoding_iff : ∀ bytes, read bytes = .error .invalidEncoding ↔ NamesUnknown bytes
  invalidLength_iff : ∀ bytes, read bytes = .error .invalidLength ↔
    (∀ message length, ¬ Starts bytes message length) ∧ ¬ NamesUnknown bytes

namespace WireFormat

/-- What a reader can make of a byte string, by a grammar. -/
inductive Outcome {Message : Type} (Starts : Bytes → Message → Nat → Prop)
    (NamesUnknown : Bytes → Prop) (bytes : Bytes) : Except WireError (Message × Nat) → Prop where
  | read {message : Message} {length : Nat} (starts : Starts bytes message length) :
      Outcome Starts NamesUnknown bytes (.ok (message, length))
  | unknown (names : NamesUnknown bytes) :
      Outcome Starts NamesUnknown bytes (.error .invalidEncoding)
  | refused : Outcome Starts NamesUnknown bytes (.error .invalidLength)

/-- A reader without other outcomes, which obeys both predicates of a grammar, reads exactly. -/
theorem ReadsExactly.of_outcome {Message : Type} {read : Bytes → Except WireError (Message × Nat)}
    {Starts : Bytes → Message → Nat → Prop} {NamesUnknown : Bytes → Prop}
    (outcome : ∀ bytes, Outcome Starts NamesUnknown bytes (read bytes))
    (starts : ∀ bytes message length, Starts bytes message length →
      read bytes = .ok (message, length))
    (names : ∀ bytes, NamesUnknown bytes → read bytes = .error .invalidEncoding) :
    ReadsExactly read Starts NamesUnknown where
  ok_iff bytes message length := by
    refine ⟨fun done => ?_, starts bytes message length⟩
    have result := outcome bytes
    rw [done] at result
    cases result with
    | read starts => exact starts
  invalidEncoding_iff bytes := by
    refine ⟨fun done => ?_, names bytes⟩
    have result := outcome bytes
    rw [done] at result
    cases result with
    | unknown names => exact names
  invalidLength_iff bytes := by
    constructor
    · intro done
      refine ⟨fun message length begun => ?_, fun named => ?_⟩
      · cases done.symm.trans (starts bytes message length begun)
      · cases done.symm.trans (names bytes named)
    · rintro ⟨nothing, known⟩
      generalize doneEq : read bytes = done
      have result := outcome bytes
      rw [doneEq] at result
      cases result with
      | read begun => exact absurd begun (nothing _ _)
      | unknown named => exact absurd named known
      | refused => rfl

/-- Of messages that read back whatever follows them, none starts with another one. -/
theorem ReadsBack.eq_of_isPrefix {Message : Type} [WireFormat Message] {message other : Message}
    (one : ReadsBack message) (two : ReadsBack other) (starts : layout message <+: layout other) :
    message = other := by
  obtain ⟨rest, whole⟩ := starts
  have read := one rest
  rw [whole, two.alone] at read
  cases read
  rfl

end WireFormat

namespace KeyPath

/-- A byte string starts with a key of at least one step; it has at most ten by its type. -/
structure Starts (bytes : Bytes) (key : KeyPath) (length : Nat) : Prop where
  steps : key.path ≠ []
  length_eq : length = 2 + 4 * key.path.length
  front : bytes.take length = key.layout

/-- One to ten steps are announced and are there, and the byte behind them stands for no curve. -/
inductive NamesUnknown : Bytes → Prop where
  | curve {count curveByte : UInt8} {steps rest : Bytes} (positive : 1 ≤ count.toNat)
      (depth : count.toNat ≤ maxDepth) (complete : steps.length = 4 * count.toNat)
      (unknown : ∀ curve : Curve, curveByte ≠ curve.code) :
      NamesUnknown (count :: (steps ++ curveByte :: rest))

variable {bytes : Bytes} {key : KeyPath}

theorem starts_iff {length : Nat} : Starts bytes key length ↔
    key.path ≠ [] ∧ length = key.layout.length ∧ ∃ rest, bytes = key.layout ++ rest := by
  constructor
  · rintro ⟨steps, rfl, front⟩
    refine ⟨steps, (length_layout key).symm, bytes.drop (2 + 4 * key.path.length), ?_⟩
    rw [← front, List.take_append_drop]
  · rintro ⟨steps, rfl, rest, rfl⟩
    exact ⟨steps, length_layout key, List.take_left⟩

theorem namesUnknown_iff : NamesUnknown bytes ↔
    ∃ curveByte, curveByte? bytes = some curveByte ∧ Curve.ofCode? curveByte = none := by
  constructor
  · rintro ⟨positive, depth, complete, unknown⟩
    refine ⟨_, ?_, Curve.ofCode?_eq_none_iff.2 unknown⟩
    rw [curveByte?, if_pos ⟨positive, depth⟩, ← complete,
      List.getElem?_append_right (Nat.le_refl _), Nat.sub_self]
    rfl
  · rintro ⟨curveByte, standing, unread⟩
    obtain ⟨path, rest, steps, depth, rfl⟩ := exists_words standing
    have counted := toNat_ofNat_length depth
    have positive := List.length_pos_iff.2 steps
    refine .curve ?_ ?_ ?_ (Curve.ofCode?_eq_none_iff.1 unread)
    · rwa [counted]
    · rwa [counted]
    · rw [length_encodeWords, counted]

/-- A request is read as the key that it starts with. -/
theorem readsExactly : WireFormat.ReadsExactly decode Starts NamesUnknown := by
  refine .of_outcome ?_ ?_ ?_
  · intro bytes
    have result := decodes bytes
    generalize decode bytes = done at result
    cases result with
    | key steps starts => exact .read (starts_iff.2 ⟨steps, rfl, _, starts⟩)
    | incomplete _ => exact .refused
    | unknown standing curve => exact .unknown (namesUnknown_iff.2 ⟨_, standing, curve⟩)
  · intro bytes key length starts
    exact decode_eq_ok_iff.2 (starts_iff.1 starts)
  · intro bytes names
    exact decode_eq_invalidEncoding_iff.2 (namesUnknown_iff.1 names)

/-- A key with steps reads back. -/
theorem readsBack (steps : key.path ≠ []) : WireFormat.ReadsBack key := by
  intro rest
  have read := decode_layout_append key rest steps
  rw [← length_layout] at read
  exact read

end KeyPath

namespace AuthKeyResponse

/-- A byte string starts with an authorized key, or says that there is none. -/
inductive Starts (bytes : Bytes) : AuthKeyResponse → Nat → Prop where
  | unset (zero : bytes[1]? = some 0) : Starts bytes ⟨none⟩ 2
  | key {key : KeyPath} (steps : key.path ≠ [])
      (front : bytes.take (2 + 4 * key.path.length) = layout ⟨some key⟩) :
      Starts bytes ⟨some key⟩ (2 + 4 * key.path.length)

/-- One to ten steps are announced and are there, and the byte before them stands for no curve. -/
inductive NamesUnknown : Bytes → Prop where
  | curve {count curveByte : UInt8} {steps rest : Bytes} (positive : 1 ≤ count.toNat)
      (depth : count.toNat ≤ maxDepth) (complete : steps.length = 4 * count.toNat)
      (unknown : ∀ curve : Curve, curveByte ≠ curve.code) :
      NamesUnknown (curveByte :: count :: (steps ++ rest))

/-- The reader of responses makes of some steps and the byte of a curve what the reader of
requests makes of them. -/
theorem decode_eq_map {count curveByte : UInt8} {steps : Bytes} (positive : count ≠ 0)
    (complete : steps.length = 4 * count.toNat) (rest other : Bytes) :
    decode (curveByte :: count :: (steps ++ rest)) =
      (KeyPath.decode (count :: (steps ++ curveByte :: other))).map
        fun (key, length) => (⟨some key⟩, length) := by
  have promised : count.toNat ≠ 0 := by
    intro zero
    exact positive (UInt8.toNat_inj.1 zero)
  by_cases depth : count.toNat ≤ maxDepth
  · -- Within the limits both readers come down to the same path and the same byte for the curve.
    obtain ⟨path, more, counted, rfl⟩ := exists_encodeWords count.toNat steps (by omega)
    have ended : more = [] := by
      apply List.length_eq_zero_iff.1
      rw [List.length_append, length_encodeWords] at complete
      omega
    have limits : path ≠ [] ∧ path.length ≤ maxDepth :=
      ⟨List.length_pos_iff.1 (by omega), by omega⟩
    rw [ended, List.append_nil, decode_words counted limits, KeyPath.decode_words counted limits]
    cases Curve.ofCode? curveByte with
    | none => rfl
    | some curve => rfl
  · have deep : maxDepth < count.toNat := Nat.not_le.1 depth
    rw [decode_of_limits promised (.inl deep), KeyPath.decode_of_count (.inr deep)]
    rfl

/-- What is read is no more than what the grammar says. -/
theorem outcome (bytes : Bytes) :
    WireFormat.Outcome Starts NamesUnknown bytes (decode bytes) := by
  match bytes with
  | [] => exact .refused
  | [_] => exact .refused
  | curveByte :: count :: tail =>
    by_cases zero : count = 0
    · rw [decode, if_pos zero]
      exact .read (.unset (congrArg some zero))
    have promised : count.toNat ≠ 0 := fun none => zero (UInt8.toNat_inj.1 none)
    -- Within the limits the bytes are the words of a path, so only the curve is left to look at.
    by_cases limits : maxDepth < count.toNat ∨ tail.length < count.toNat * 4
    · rw [decode_of_limits promised limits]
      exact .refused
    obtain ⟨path, rest, counted, rfl⟩ := exists_encodeWords count.toNat tail (by omega)
    have fits : path ≠ [] ∧ path.length ≤ maxDepth :=
      ⟨List.length_pos_iff.1 (by omega), by omega⟩
    rw [decode_words counted fits]
    cases curve : Curve.ofCode? curveByte with
    | none =>
      refine .unknown (.curve ?_ ?_ ?_ (Curve.ofCode?_eq_none_iff.1 curve))
      · omega
      · omega
      · rw [length_encodeWords, counted]
    | some known =>
      rw [Curve.ofCode?_eq_some_iff] at curve
      have written : layout ⟨some { curve := known, path := path, depth_le := fits.2 }⟩ =
          curveByte :: count :: encodeWords path := by
        rw [curve, ← UInt8.ofNat_toNat (x := count), ← counted]
        rfl
      refine .read (.key fits.1 ?_)
      rw [← length_layout_some, written]
      exact List.take_left' rfl

/-- A response is read as the authorized key that it starts with. -/
theorem readsExactly : WireFormat.ReadsExactly decode Starts NamesUnknown := by
  refine .of_outcome outcome ?_ ?_
  · intro bytes response length starts
    cases starts with
    | unset zero =>
      match bytes, zero with
      | _ :: _ :: _, zero =>
        cases zero
        rfl
    | @key key steps front =>
      have read := @readsBack ⟨some key⟩ (by rintro _ ⟨⟩; exact steps)
        (bytes.drop (2 + 4 * key.path.length))
      have whole : layout ⟨some key⟩ ++ bytes.drop (2 + 4 * key.path.length) = bytes := by
        rw [← front, List.take_append_drop]
      rw [← length_layout_some, ← whole]
      exact read
  · intro bytes names
    cases names with
    | @curve count curveByte steps rest positive depth complete unknown =>
      have promised : count ≠ 0 := by
        rintro rfl
        cases positive
      -- The reader of requests has been found to refuse this byte behind the same steps.
      have named : KeyPath.decode (count :: (steps ++ curveByte :: [])) =
          .error .invalidEncoding :=
        (KeyPath.readsExactly.invalidEncoding_iff _).2 (.curve positive depth complete unknown)
      rw [decode_eq_map promised complete rest [], named]
      rfl

end AuthKeyResponse

/-- Both readers of keys read exactly what their grammars say.  No key that is written in one of
the two ways starts with another one, and the readers agree on the key that is written in both. -/
theorem KeyPath.readers_exact :
    WireFormat.ReadsExactly KeyPath.decode KeyPath.Starts KeyPath.NamesUnknown ∧
    WireFormat.ReadsExactly AuthKeyResponse.decode AuthKeyResponse.Starts
      AuthKeyResponse.NamesUnknown ∧
    (∀ key other : KeyPath, key.path ≠ [] → other.path ≠ [] →
      key.layout <+: other.layout → key = other) ∧
    (∀ response other : AuthKeyResponse, (∀ key, response.key = some key → key.path ≠ []) →
      (∀ key, other.key = some key → key.path ≠ []) →
        response.layout <+: other.layout → response = other) ∧
    (∀ (count curveByte : UInt8) (steps rest other : Bytes), count ≠ 0 →
      steps.length = 4 * count.toNat →
        AuthKeyResponse.decode (curveByte :: count :: (steps ++ rest)) =
          (KeyPath.decode (count :: (steps ++ curveByte :: other))).map
            fun (key, length) => (⟨some key⟩, length)) := by
  refine ⟨KeyPath.readsExactly, AuthKeyResponse.readsExactly, ?_, ?_, ?_⟩
  · intro key other steps steps' starts
    exact (KeyPath.readsBack steps).eq_of_isPrefix (KeyPath.readsBack steps') starts
  · intro response other steps steps' starts
    exact (AuthKeyResponse.readsBack steps).eq_of_isPrefix (AuthKeyResponse.readsBack steps') starts
  · intro count curveByte steps rest other positive complete
    exact AuthKeyResponse.decode_eq_map positive complete rest other

/-- A key of one step is read from both, and is not the start of a key of two steps. -/
theorem KeyPath.one_step_read :
    KeyPath.decode [1, 0, 0, 0, 7, 2] = .ok (⟨.secp256r1, [7], by decide⟩, 6) ∧
    AuthKeyResponse.decode [2, 1, 0, 0, 0, 7, 9] =
      .ok (⟨some ⟨.secp256r1, [7], by decide⟩⟩, 6) ∧
    ¬ KeyPath.layout ⟨.secp256r1, [7], by decide⟩ <+:
      KeyPath.layout ⟨.secp256r1, [7, 7], by decide⟩ := by
  have read : KeyPath.decode [1, 0, 0, 0, 7, 2] = .ok (⟨.secp256r1, [7], by decide⟩, 6) :=
    (readers_exact.1.ok_iff _ _ _).2 ⟨List.cons_ne_nil _ _, rfl, rfl⟩
  refine ⟨read, ?_, ?_⟩
  · have agree := readers_exact.2.2.2.2 1 2 [0, 0, 0, 7] [9] [] (by decide) rfl
    exact agree.trans (congrArg (Except.map _) read)
  · intro starts
    have same := readers_exact.2.2.1 _ _ (List.cons_ne_nil _ _) (List.cons_ne_nil _ _) starts
    cases same

end TezosSigner
