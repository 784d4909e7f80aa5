/-
Module: TezosSigner.Proofs.Machine.Responses
Purpose: Reading and writing responses on a machine.
Main exports:
  SignatureResponse.writeOn, SignatureResponse.decodeWithOn, PublicKeyResponse.writeOn,
  PublicKeyResponse.decodeOn, AuthKeyResponse.writeOn, AuthKeyResponse.decodeOn, Mark.writeOn,
  Mark.decodeOn, Answer.writeOn, and for each of them that it is free of faults
-/
import TezosSigner.Proofs.Machine.Keys
import TezosSigner.Proofs.Wire.Responses

namespace TezosSigner

/-!
A response is written to a buffer of any size, and the host reads it off bytes of any length.
Signatures and public keys may be as long as a machine can hold.
-/

namespace SignatureResponse

section Definitions

variable (machine : Machine)

/-- The number of bytes that a signature and its hash ask for. -/
def lengthOn (response : SignatureResponse) : Checked Nat :=
  machine.add (if response.hash.isSome then digestSize else 0) response.signature.length

/-- Write the hash to the front of a buffer, and tell the index behind it. -/
def writeHashOn (hash : Option Digest) (buffer : Bytes) : Checked (Nat × Bytes) :=
  match hash with
  | some hash => do
      let buffer ← Slice.onFront digestSize (Slice.copyFrom hash.toList) buffer
      let index ← machine.add 0 digestSize
      .ok (index, buffer)
  | none => .ok (0, buffer)

/-- Write a signature and its hash to the front of a buffer. -/
def writeOn (response : SignatureResponse) (buffer : Bytes) :
    Checked (Except WireError Written) := do
  let length ← response.lengthOn machine
  if buffer.length < length then
    .ok (.error .invalidLength)
  else do
    let (index, buffer) ← writeHashOn machine response.hash buffer
    let buffer ← Slice.onRest index
      (Slice.onFront response.signature.length (Slice.copyFrom response.signature)) buffer
    let index ← machine.add index response.signature.length
    .ok (.ok { length := index, buffer := buffer })

/-- Read a signature, behind its hash where there is one. -/
def decodeWithOn (withHash : Bool) (bytes : Bytes) :
    Checked (Except WireError SignatureResponse) :=
  if withHash then
    if bytes.length < digestSize then
      .ok (.error .invalidLength)
    else do
      let hash ← Slice.field 32 (← Slice.front bytes digestSize)
      let signature ← Slice.rest bytes digestSize
      .ok (.ok { hash := some hash, signature := signature })
  else
    .ok (.ok { hash := none, signature := bytes })

end Definitions

variable {machine : Machine}

theorem lengthOn_eq {response : SignatureResponse} (held : machine.Holds response.signature) :
    response.lengthOn machine = .ok response.layout.length := by
  have size := machine.size_ge
  unfold Machine.Holds at held
  rw [lengthOn, Machine.add_eq, layout_eq, List.length_append, length_layout_nil]
  split
  · rw [digestSize]
    omega
  · omega

/-- The hash takes the front of the buffer. -/
theorem writeHashOn_eq {hash : Option Digest} {buffer : Bytes}
    (room : (layout ⟨hash, []⟩).length ≤ buffer.length) :
    writeHashOn machine hash buffer = .ok ((layout ⟨hash, []⟩).length,
      layout ⟨hash, []⟩ ++ buffer.drop (layout ⟨hash, []⟩).length) := by
  cases hash with
  | none => rfl
  | some hash =>
    have long : (layout ⟨some hash, []⟩).length = digestSize := length_layout_nil (some hash)
    have bytes : layout ⟨some hash, []⟩ = hash.toList := List.append_nil _
    rw [long] at room ⊢
    rw [writeHashOn, Slice.copyFront_eq (by rw [← bytes, long]) room, Checked.ok_bind,
      Machine.add_small (by decide), Checked.ok_bind, Nat.zero_add, bytes]

/-- A signature is written in bounds, and as its layout says. -/
theorem writeOn_eq {response : SignatureResponse} (held : machine.Holds response.signature)
    (buffer : Bytes) :
    response.writeOn machine buffer = .ok (writeInto buffer response.layout) := by
  have size := machine.size_ge
  rw [writeOn, lengthOn_eq held, Checked.ok_bind, writeInto]
  split
  · rfl
  rename_i room
  obtain ⟨hash, signature⟩ := response
  unfold Machine.Holds at held
  have digest : (layout ⟨hash, []⟩).length ≤ 32 := by
    rw [length_layout_nil, digestSize]
    split <;> omega
  rw [layout_eq, List.length_append, Nat.not_lt] at room
  dsimp only at held ⊢
  rw [writeHashOn_eq (by omega), Checked.ok_bind]
  dsimp only
  rw [Slice.copyRest_append rfl rfl (by rw [List.length_drop]; omega), Checked.ok_bind,
    Machine.add_eq (by omega), Checked.ok_bind, List.drop_drop, layout_eq hash signature,
    List.length_append, List.append_assoc]

/-- A signature is read in bounds, and as its decoder says. -/
theorem decodeWithOn_eq (withHash : Bool) (bytes : Bytes) :
    decodeWithOn withHash bytes = .ok (decodeWith withHash bytes) := by
  cases withHash with
  | false => rfl
  | true =>
    rw [decodeWithOn, decodeWith, if_pos rfl, if_pos rfl]
    split
    · rename_i short
      have unfilled : fixed? 32 (bytes.take digestSize) = none := by
        rw [digestSize] at short ⊢
        exact dif_neg (by rw [List.length_take]; omega)
      rw [unfilled]
    · rename_i enough
      have filled : (bytes.take digestSize).length = 32 := by
        rw [digestSize] at enough ⊢
        rw [List.length_take]
        omega
      rw [Slice.front_eq (by omega), Checked.ok_bind, Slice.field, Slice.rest_eq (by omega)]
      obtain ⟨hash, field⟩ : ∃ hash, fixed? 32 (bytes.take digestSize) = some hash :=
        ⟨_, dif_pos filled⟩
      rw [field]
      rfl

end SignatureResponse

namespace PublicKeyResponse

section Definitions

variable (machine : Machine)

/-- The number of bytes that a public key asks for. -/
def lengthOn (response : PublicKeyResponse) : Checked Nat :=
  machine.add 1 response.publicKey.length

/-- Write a public key to the front of a buffer. -/
def writeOn (response : PublicKeyResponse) (buffer : Bytes) :
    Checked (Except WireError Written) :=
  if maxPublicKey < response.publicKey.length then
    .ok (.error .invalidLength)
  else do
    let length ← machine.add response.publicKey.length 1
    if buffer.length < length then
      .ok (.error .invalidLength)
    else do
      let buffer ← Slice.setByte 0 (UInt8.ofNat response.publicKey.length) buffer
      let buffer ← Slice.onRest 1
        (Slice.onFront response.publicKey.length (Slice.copyFrom response.publicKey)) buffer
      let length ← machine.add 1 response.publicKey.length
      .ok (.ok { length := length, buffer := buffer })

/-- Read a public key behind its length. -/
def decodeOn (bytes : Bytes) : Checked (Except WireError (PublicKeyResponse × Nat)) :=
  if bytes.isEmpty then
    .ok (.error .invalidLength)
  else do
    let count ← Slice.byteAt bytes 0
    let length ← machine.add 1 count.toNat
    if bytes.length < length then
      .ok (.error .invalidLength)
    else do
      let publicKey ← Slice.front (← Slice.rest bytes 1) count.toNat
      let length ← machine.add 1 count.toNat
      .ok (.ok ({ publicKey := publicKey }, length))

end Definitions

variable {machine : Machine}

theorem lengthOn_eq {response : PublicKeyResponse} (held : machine.Holds response.publicKey) :
    response.lengthOn machine = .ok (WireFormat.encodedLength response) := by
  have size := machine.size_ge
  unfold Machine.Holds at held
  rw [lengthOn, Machine.add_eq (by omega), Nat.add_comm]
  rfl

/-- A public key is written in bounds, and as its layout says, unless it is too long. -/
theorem writeOn_eq (response : PublicKeyResponse) (buffer : Bytes) :
    response.writeOn machine buffer = .ok (WireFormat.write response buffer) := by
  have limit : maxPublicKey = 65 := rfl
  by_cases long : maxPublicKey < response.publicKey.length
  · have beyond : WireFormat.withinLimits response = false :=
      decide_eq_false (Nat.not_le.2 long)
    rw [writeOn, if_pos long, WireFormat.write, beyond]
    rfl
  have within : WireFormat.withinLimits response = true :=
    decide_eq_true (Nat.not_lt.1 long)
  have bytes : WireFormat.layout response =
      UInt8.ofNat response.publicKey.length :: response.publicKey := rfl
  rw [writeOn, if_neg long, Machine.add_small (by omega), Checked.ok_bind, WireFormat.write,
    if_pos within, writeInto, bytes, List.length_cons]
  split
  · rfl
  rename_i room
  cases buffer with
  | nil => exact absurd room (by simp)
  | cons first tail =>
    rw [List.length_cons] at room
    have copied : Slice.onRest 1
        (Slice.onFront response.publicKey.length (Slice.copyFrom response.publicKey))
        (UInt8.ofNat response.publicKey.length :: tail) =
        .ok (UInt8.ofNat response.publicKey.length ::
          (response.publicKey ++ tail.drop response.publicKey.length)) :=
      @Slice.copyRest_append [UInt8.ofNat response.publicKey.length] tail 1 response.publicKey _
        rfl rfl (by omega)
    rw [Slice.setByte_zero, Checked.ok_bind, copied, Checked.ok_bind,
      Machine.add_small (by omega), Checked.ok_bind, Nat.add_comm 1, List.drop_succ_cons]
    rfl

/-- A public key is read in bounds, and as its decoder says. -/
theorem decodeOn_eq (bytes : Bytes) : decodeOn machine bytes = .ok (decode bytes) := by
  cases bytes with
  | nil => rfl
  | cons count bytes =>
    have byte := count.toNat_lt
    rw [decodeOn, if_neg (by simp), Slice.byteAt_zero, Checked.ok_bind,
      Machine.add_small (by omega), Checked.ok_bind, decode, List.length_cons, Nat.add_comm 1]
    by_cases short : bytes.length < count.toNat
    · rw [if_pos (Nat.succ_lt_succ short), if_pos short]
    · have tail : Slice.rest (count :: bytes) 1 = .ok bytes :=
        @Slice.rest_append [count] bytes 1 rfl
      rw [if_neg (fun more => short (Nat.lt_of_succ_lt_succ more)), if_neg short, tail,
        Checked.ok_bind, Slice.front_eq (Nat.not_lt.1 short), Checked.ok_bind, Checked.ok_bind]

end PublicKeyResponse

namespace AuthKeyResponse

section Definitions

variable (machine : Machine)

/-- The number of bytes that an authorized key asks for. -/
def lengthOn (response : AuthKeyResponse) : Checked Nat := do
  let steps ←
    match response.key with
    | some key => machine.mul key.path.length 4
    | none => .ok 0
  machine.add 2 steps

/-- Write an authorized key to the front of a buffer. -/
def writeOn (response : AuthKeyResponse) (buffer : Bytes) :
    Checked (Except WireError Written) := do
  let length ← response.lengthOn machine
  if buffer.length < length then
    .ok (.error .invalidLength)
  else
    match response.key with
    | none => do
        let buffer ← Slice.onFront 2 (Slice.copyFrom [0, 0]) buffer
        .ok (.ok { length := 2, buffer := buffer })
    | some key => do
        let buffer ← Slice.setByte 0 key.curve.code buffer
        let index ← machine.add 0 1
        let buffer ← Slice.setByte index (UInt8.ofNat key.path.length) buffer
        let index ← machine.add index 1
        let (index, buffer) ← machine.putWords key.path index buffer
        .ok (.ok { length := index, buffer := buffer })

/-- The bytes of an authorized key in the order in which a request has them: the number of
steps, the steps, the curve.  There is room for ten steps. -/
def reorderOn (bytes : Bytes) (stepsLength : Nat) : Checked Bytes := do
  let count ← Slice.byteAt bytes 1
  let scratch ← Slice.setByte 0 count (List.replicate 42 0)
  let steps ← Slice.front (← Slice.rest bytes 2) stepsLength
  let scratch ← Slice.onRest 1 (Slice.onFront stepsLength (Slice.copyFrom steps)) scratch
  let curve ← Slice.byteAt bytes 0
  let scratch ← Slice.setByte (← machine.add 1 stepsLength) curve scratch
  Slice.front scratch (← machine.add 2 stepsLength)

/-- Read an authorized key, in the way a key is read off a request. -/
def decodeOn (bytes : Bytes) : Checked (Except WireError (AuthKeyResponse × Nat)) :=
  if bytes.length < 2 then
    .ok (.error .invalidLength)
  else do
    let count ← Slice.byteAt bytes 1
    if count.toNat = 0 then
      .ok (.ok ({ key := none }, 2))
    else if maxDepth < count.toNat then
      .ok (.error .invalidLength)
    else do
      let stepsLength ← machine.mul count.toNat 4
      let length ← machine.add 2 stepsLength
      if bytes.length < length then
        .ok (.error .invalidLength)
      else do
        let reordered ← reorderOn machine bytes stepsLength
        match ← KeyPath.decodeOn machine reordered with
        | .error error => .ok (.error error)
        | .ok (key, _) => do
            let length ← machine.add 2 stepsLength
            .ok (.ok ({ key := some key }, length))

end Definitions

variable {machine : Machine}

theorem lengthOn_eq (response : AuthKeyResponse) :
    response.lengthOn machine = .ok response.layout.length := by
  rw [lengthOn, length_layout]
  cases response.key with
  | none => exact Machine.add_small (by decide)
  | some key =>
    have depth : key.path.length ≤ 10 := key.depth_le
    dsimp only
    rw [Machine.mul_small (by omega), Checked.ok_bind, Machine.add_small (by omega)]

/-- An authorized key is written in bounds, and as its layout says. -/
theorem writeOn_eq (response : AuthKeyResponse) (buffer : Bytes) :
    response.writeOn machine buffer = .ok (writeInto buffer response.layout) := by
  rw [writeOn, lengthOn_eq, Checked.ok_bind, writeInto]
  split
  · rfl
  rename_i room
  rw [length_layout] at room ⊢
  obtain ⟨key⟩ := response
  cases key with
  | none =>
    dsimp only at room ⊢
    have zeros : Slice.onFront 2 (Slice.copyFrom [0, 0]) buffer = .ok ([0, 0] ++ buffer.drop 2) :=
      Slice.copyFront_eq rfl (by omega)
    rw [zeros, Checked.ok_bind]
    rfl
  | some key =>
    have depth : key.path.length ≤ 10 := key.depth_le
    dsimp only at room ⊢
    obtain _ | ⟨first, _ | ⟨second, tail⟩⟩ := buffer
    · exact absurd room (by simp)
    · exact absurd room (by simp; omega)
    · simp only [List.length_cons] at room
      have steps : machine.putWords key.path 2
          (key.curve.code :: UInt8.ofNat key.path.length :: tail) =
          .ok (2 + 4 * key.path.length, key.curve.code :: UInt8.ofNat key.path.length ::
            (encodeWords key.path ++ tail.drop (4 * key.path.length))) :=
        @Machine.putWords_append machine key.path
          [key.curve.code, UInt8.ofNat key.path.length] tail (by omega)
          (by simp only [List.length_cons, List.length_nil]; omega)
      rw [Slice.setByte_zero, Checked.ok_bind, Machine.add_small (by decide), Checked.ok_bind,
        Nat.zero_add, Slice.setByte_one, Checked.ok_bind, Machine.add_small (by decide),
        Checked.ok_bind, steps, Checked.ok_bind, Nat.mul_comm, Nat.add_comm 2,
        List.drop_succ_cons, List.drop_succ_cons]
      rfl

/-- The bytes of a key in the order of a request. -/
theorem reorderOn_eq {curveByte count : UInt8} {path : List UInt32} {bytes : Bytes}
    (depth : path.length ≤ maxDepth) :
    reorderOn machine (curveByte :: count :: (encodeWords path ++ bytes)) (path.length * 4) =
      .ok (count :: (encodeWords path ++ [curveByte])) := by
  have limit : maxDepth = 10 := rfl
  have zeros : List.replicate 41 (0 : UInt8) =
      List.replicate (path.length * 4) 0 ++ 0 :: List.replicate (40 - path.length * 4) 0 := by
    rw [← List.replicate_succ, List.replicate_append_replicate]
    congr 1
    omega
  have copied : Slice.onRest 1
      (Slice.onFront (path.length * 4) (Slice.copyFrom (encodeWords path)))
      (count :: List.replicate 41 0) =
      .ok (count :: (encodeWords path ++ 0 :: List.replicate (40 - path.length * 4) 0)) := by
    rw [zeros]
    have written := @Slice.copyRest_append [count]
      (List.replicate (path.length * 4) 0 ++ 0 :: List.replicate (40 - path.length * 4) 0) 1
      (encodeWords path) (path.length * 4) rfl (by rw [length_encodeWords, Nat.mul_comm])
      (by simp)
    rwa [List.drop_left' (List.length_replicate ..)] at written
  have curve : Slice.setByte (1 + path.length * 4) curveByte
      (count :: (encodeWords path ++ 0 :: List.replicate (40 - path.length * 4) 0)) =
      .ok (count :: (encodeWords path ++
        curveByte :: List.replicate (40 - path.length * 4) 0)) := by
    rw [← List.cons_append, ← List.cons_append]
    exact Slice.setByte_append (by simp; omega)
  have whole : Slice.front (count :: (encodeWords path ++
      curveByte :: List.replicate (40 - path.length * 4) 0)) (2 + path.length * 4) =
      .ok (count :: (encodeWords path ++ [curveByte])) := by
    have taken := @Slice.front_append (count :: (encodeWords path ++ [curveByte]))
      (List.replicate (40 - path.length * 4) 0) (2 + path.length * 4) (by simp; omega)
    simpa using taken
  have tail : Slice.rest (curveByte :: count :: (encodeWords path ++ bytes)) 2 =
      .ok (encodeWords path ++ bytes) := @Slice.rest_append [curveByte, count] _ 2 rfl
  rw [reorderOn, Slice.byteAt_one, Checked.ok_bind, List.replicate_succ, Slice.setByte_zero,
    Checked.ok_bind, tail, Checked.ok_bind,
    Slice.front_append (by rw [length_encodeWords, Nat.mul_comm]), Checked.ok_bind, copied,
    Checked.ok_bind, Slice.byteAt_zero, Checked.ok_bind, Machine.add_small (by omega),
    Checked.ok_bind, curve, Checked.ok_bind, Machine.add_small (by omega), Checked.ok_bind, whole]

/-- An authorized key is read in bounds, and as its decoder says. -/
theorem decodeOn_eq (bytes : Bytes) : decodeOn machine bytes = .ok (decode bytes) := by
  match bytes with
  | [] => rfl
  | [curveByte] => rfl
  | curveByte :: count :: bytes =>
    have limit : maxDepth = 10 := rfl
    rw [decodeOn, if_neg (by simp), Slice.byteAt_one, Checked.ok_bind]
    split
    · rename_i none
      have zero : count = 0 := UInt8.toNat_inj.1 none
      rw [decode, if_pos zero]
    rename_i promised
    split
    · rename_i deep
      rw [decode_of_limits promised (.inl deep)]
    rename_i depth
    rw [Machine.mul_small (by omega), Checked.ok_bind, Machine.add_small (by omega),
      Checked.ok_bind, List.length_cons, List.length_cons]
    split
    · rename_i short
      rw [decode_of_limits promised (.inr (by omega))]
    rename_i enough
    obtain ⟨path, rest, counted, rfl⟩ := exists_encodeWords count.toNat bytes (by omega)
    have fits : path.length ≤ maxDepth := by omega
    have steps : path ≠ [] := by
      rintro rfl
      exact promised counted.symm
    rw [decode_words counted ⟨steps, fits⟩, ← counted, reorderOn_eq fits, Checked.ok_bind,
      KeyPath.decodeOn_eq, KeyPath.decode_words counted ⟨steps, fits⟩, Checked.ok_bind]
    cases Curve.ofCode? curveByte with
    | none => rfl
    | some curve =>
      dsimp only
      rw [Checked.ok_bind, Nat.mul_comm]

end AuthKeyResponse

namespace Mark

/-- Write a mark to the front of a buffer. -/
def writeOn (mark : Mark) (buffer : Bytes) : Checked (Except WireError Written) :=
  if buffer.length < 5 then
    .ok (.error .invalidLength)
  else do
    let buffer ← Slice.putWord mark.level buffer
    let buffer ← Slice.setByte 4 (if mark.endorsement then 1 else 0) buffer
    .ok (.ok { length := 5, buffer := buffer })

/-- Read a mark. -/
def decodeOn (bytes : Bytes) : Checked (Except WireError (Mark × Nat)) :=
  if bytes.length < 5 then
    .ok (.error .invalidLength)
  else do
    let level ← Slice.word bytes
    let endorsement ← Slice.byteAt bytes 4
    .ok (.ok ({ level := level, endorsement := endorsement != 0 }, 5))

/-- A mark is written in bounds, and as its layout says. -/
theorem writeOn_eq (mark : Mark) (buffer : Bytes) :
    mark.writeOn buffer = .ok (writeInto buffer mark.layout) := by
  rw [writeOn, writeInto, length_layout]
  split
  · rfl
  rename_i room
  have last : buffer.drop 4 = buffer[4] :: buffer.drop 5 := List.drop_eq_getElem_cons (by omega)
  have flagged := @Slice.setByte_append (encodeWord mark.level) (buffer.drop 5) 4
    (if mark.endorsement then 1 else 0) buffer[4] rfl
  rw [Slice.putWord_eq (by omega), Checked.ok_bind, last, flagged, Checked.ok_bind, layout,
    List.append_assoc]
  rfl

/-- A mark is read in bounds, and as its decoder says. -/
theorem decodeOn_eq (bytes : Bytes) : decodeOn bytes = .ok (decode bytes) := by
  match bytes with
  | [] | [_] | [_, _] | [_, _, _] | [_, _, _, _] => rfl
  | a :: b :: c :: d :: endorsement :: bytes =>
    rw [decodeOn, if_neg (by simp)]
    rfl

end Mark

/-- Write the response for an answer to the front of a buffer. -/
def Answer.writeOn (machine : Machine) : Answer → Bytes → Checked (Except WireError Written)
  | .none, buffer => .ok (.ok { length := 0, buffer := buffer })
  | .pending, buffer => .ok (.ok { length := 0, buffer := buffer })
  | .rejected, buffer => .ok (.ok { length := 0, buffer := buffer })
  | .signature digest bytes, buffer =>
      SignatureResponse.writeOn machine { hash := digest, signature := bytes } buffer
  | .hash digest, buffer =>
      SignatureResponse.writeOn machine { hash := some digest, signature := [] } buffer
  | .publicKey key, buffer => PublicKeyResponse.writeOn machine { publicKey := key } buffer
  | .authorizedKey key, buffer => AuthKeyResponse.writeOn machine { key := key } buffer
  | .highWaterMark mark, buffer => mark.writeOn buffer

/-- An answer is written in bounds, and as its layout says. -/
theorem Answer.writeOn_eq {machine : Machine} {answer : Answer}
    (held : ∀ digest bytes, answer = .signature digest bytes → machine.Holds bytes)
    (buffer : Bytes) : answer.writeOn machine buffer = .ok (answer.write buffer) := by
  cases answer with
  | none => rfl
  | pending => rfl
  | rejected => rfl
  | signature digest bytes => exact SignatureResponse.writeOn_eq (held digest bytes rfl) buffer
  | hash digest =>
    have size := machine.size_ge
    exact SignatureResponse.writeOn_eq (by simp only [Machine.Holds, List.length_nil]; omega) buffer
  | publicKey key => exact PublicKeyResponse.writeOn_eq ⟨key⟩ buffer
  | authorizedKey key => exact AuthKeyResponse.writeOn_eq ⟨key⟩ buffer
  | highWaterMark mark => exact mark.writeOn_eq buffer

end TezosSigner
