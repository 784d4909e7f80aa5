/-
Module: TezosSigner.Proofs.Wire.Responses
Purpose: What a device writes into a response is what a host reads out of it.
Main exports:
  WireFormat.ReadsBack, SignatureResponse.decodeWith_layout, PublicKeyResponse.readsBack,
  AuthKeyResponse.readsBack, Mark.readsBack, Answer.layout, Answer.Encodes, Answer.encodes
-/
import TezosSigner.Answer

namespace TezosSigner

/-!
Responses but those with a signature say themselves where they end, so they read back whatever
follows them.  A signature takes all that is there, and whether a hash comes before it is for the
host to know.

An answer is written as one of these responses, or as nothing at all.  `Answer.Encodes` says that
there is a size from which on every buffer holds the answer, and that a host that knows what it
asked for finds it there.
-/

/-- A message reads back from its bytes, whatever follows them. -/
def WireFormat.ReadsBack {Message : Type} [WireFormat Message] (message : Message) : Prop :=
  ∀ rest, decode (layout message ++ rest) = .ok (message, (layout message).length)

theorem WireFormat.ReadsBack.alone {Message : Type} [WireFormat Message] {message : Message}
    (back : ReadsBack message) :
    decode (layout message) = .ok (message, (layout message).length) := by
  have read := back []
  rwa [List.append_nil] at read

namespace SignatureResponse

theorem layout_eq (hash : Option Digest) (signature : Bytes) :
    layout ⟨hash, signature⟩ = layout ⟨hash, []⟩ ++ signature := by
  cases hash with
  | none => rfl
  | some hash => simp [layout]

theorem length_layout_nil (hash : Option Digest) :
    (layout ⟨hash, []⟩).length = if hash.isSome then digestSize else 0 := by
  cases hash with
  | none => rfl
  | some hash => simp [layout, digestSize]

/-- A signature is read back by a host that knows whether it asked for the hash. -/
theorem decodeWith_layout (response : SignatureResponse) :
    decodeWith response.hash.isSome response.layout = .ok response := by
  obtain ⟨hash, signature⟩ := response
  cases hash with
  | none => rfl
  | some hash =>
    have long : hash.toList.length = digestSize := by simp [digestSize]
    simp only [layout, Option.isSome_some, decodeWith, List.take_left' long,
      List.drop_left' long, fixed?_toList, if_true]

end SignatureResponse

namespace PublicKeyResponse

/-- A public key within its limits is read back. -/
theorem readsBack {response : PublicKeyResponse}
    (limits : response.publicKey.length ≤ maxPublicKey) : WireFormat.ReadsBack response := by
  intro rest
  have count : (UInt8.ofNat response.publicKey.length).toNat = response.publicKey.length := by
    rw [maxPublicKey] at limits
    rw [UInt8.toNat_ofNat']
    omega
  have room : ¬ (response.publicKey ++ rest).length < response.publicKey.length := by simp
  simp only [WireFormat.layout, WireFormat.decode, List.cons_append, decode, count, if_neg room,
    List.take_left, List.length_cons, Nat.add_comm]

end PublicKeyResponse

namespace AuthKeyResponse

theorem length_layout (response : AuthKeyResponse) :
    response.layout.length =
      2 + match response.key with
        | some key => key.path.length * 4
        | none => 0 := by
  unfold layout
  cases response.key with
  | none => rfl
  | some key =>
    simp only [List.length_cons, length_encodeWords]
    omega

theorem length_layout_some (key : KeyPath) :
    (layout ⟨some key⟩).length = 2 + 4 * key.path.length := by
  rw [length_layout, Nat.mul_comm]

/-- A key takes the room of ten steps at most. -/
theorem length_layout_le (response : AuthKeyResponse) : response.layout.length ≤ 42 := by
  rw [length_layout]
  cases response.key with
  | none => decide
  | some key =>
    have depth : key.path.length ≤ 10 := key.depth_le
    simp only
    omega

/-- An authorized key is not read off a byte string that promises too many steps, or does not
have them. -/
theorem decode_of_limits {curveByte count : UInt8} {bytes : Bytes} (promised : count.toNat ≠ 0)
    (limits : maxDepth < count.toNat ∨ bytes.length < count.toNat * 4) :
    decode (curveByte :: count :: bytes) = .error .invalidLength := by
  have positive : count ≠ 0 := fun zero => promised (by rw [zero]; rfl)
  rw [decode, if_neg positive]
  split
  · rename_i path rest read
    obtain ⟨counted, rfl⟩ := decodeWords?_eq_some_iff.1 read
    rw [List.length_append, length_encodeWords] at limits
    exact dif_neg (by omega)
  · rfl

/-- An authorized key is read off its steps and the byte of its curve. -/
theorem decode_words {curveByte count : UInt8} {path : List UInt32} {bytes : Bytes}
    (counted : path.length = count.toNat) (limits : path ≠ [] ∧ path.length ≤ maxDepth) :
    decode (curveByte :: count :: (encodeWords path ++ bytes)) =
      match Curve.ofCode? curveByte with
      | some curve =>
          .ok ({ key := some { curve := curve, path := path, depth_le := limits.2 } },
            2 + 4 * path.length)
      | none => .error .invalidEncoding := by
  have positive : count ≠ 0 := by
    intro zero
    rw [zero] at counted
    exact limits.1 (List.length_eq_zero_iff.1 counted)
  rw [decode, if_neg positive, ← counted, decodeWords?_encodeWords]
  exact dif_pos limits.2

/-- An authorized key is read back if it has steps, and so is that there is none. -/
theorem readsBack {response : AuthKeyResponse}
    (steps : ∀ key, response.key = some key → key.path ≠ []) : WireFormat.ReadsBack response := by
  intro rest
  obtain ⟨bound⟩ := response
  cases bound with
  | none => rfl
  | some key =>
    have count := KeyPath.toNat_ofNat_length key.depth_le
    have read := @decode_words key.curve.code _ key.path rest count.symm
      ⟨steps key rfl, key.depth_le⟩
    rw [Curve.ofCode?_code] at read
    exact read.trans (by rw [← length_layout_some]; rfl)

end AuthKeyResponse

namespace Mark

@[simp] theorem length_layout (mark : Mark) : mark.layout.length = 5 := rfl

theorem readsBack (mark : Mark) : WireFormat.ReadsBack mark := by
  intro rest
  have word := decodeWord?_encodeWord mark.level ((if mark.endorsement then 1 else 0) :: rest)
  have flag : ((if mark.endorsement then 1 else 0 : UInt8) != 0) = mark.endorsement := by
    cases mark.endorsement <;> rfl
  simp only [WireFormat.layout, WireFormat.decode, layout, List.append_assoc, List.cons_append,
    List.nil_append, decode, word, flag]
  rfl

end Mark

namespace Answer

/-- The bytes of the response for an answer. -/
def layout : Answer → Bytes
  | .none => []
  | .pending => []
  | .rejected => []
  | .signature digest bytes => SignatureResponse.layout ⟨digest, bytes⟩
  | .hash digest => SignatureResponse.layout ⟨some digest, []⟩
  | .publicKey key => WireFormat.layout (PublicKeyResponse.mk key)
  | .authorizedKey key => AuthKeyResponse.layout ⟨key⟩
  | .highWaterMark mark => mark.layout

/-- Signatures and public keys are not too long, and the authorized key has steps. -/
def WithinLimits : Answer → Prop
  | .signature _ bytes => bytes.length ≤ maxSignature
  | .publicKey key => key.length ≤ maxPublicKey
  | .authorizedKey key => ∀ bound, key = some bound → bound.path ≠ []
  | _ => True

/-- A host that knows what it asked for reads the answer off the content of the response. -/
def ReadFrom (content : Bytes) : Answer → Prop
  | .none => content = []
  | .pending => content = []
  | .rejected => content = []
  | .signature digest bytes =>
      SignatureResponse.decodeWith digest.isSome content = .ok ⟨digest, bytes⟩
  | .hash digest => SignatureResponse.decodeWith true content = .ok ⟨some digest, []⟩
  | .publicKey key => PublicKeyResponse.decode content = .ok (⟨key⟩, content.length)
  | .authorizedKey key => AuthKeyResponse.decode content = .ok (⟨key⟩, content.length)
  | .highWaterMark mark => Mark.decode content = .ok (mark, content.length)

/-- The response takes so many bytes: it is written to every buffer that has them and to no other,
and the answer is read off what is written. -/
structure Encodes (answer : Answer) (size : Nat) : Prop where
  written : ∀ buffer : Bytes, size ≤ buffer.length → ∃ written, answer.write buffer = .ok written ∧
    written.length = size ∧ answer.ReadFrom written.content
  refused : ∀ buffer : Bytes, buffer.length < size → answer.write buffer = .error .invalidLength

variable {answer : Answer}

theorem write_eq (limits : answer.WithinLimits) (buffer : Bytes) :
    answer.write buffer = writeInto buffer answer.layout := by
  cases answer with
  | publicKey key =>
    have short : key.length ≤ maxPublicKey := limits
    exact if_pos (decide_eq_true short)
  | _ => rfl

theorem readFrom_layout (limits : answer.WithinLimits) : answer.ReadFrom answer.layout := by
  cases answer with
  | none => rfl
  | pending => rfl
  | rejected => rfl
  | signature digest bytes => exact SignatureResponse.decodeWith_layout ⟨digest, bytes⟩
  | hash digest => exact SignatureResponse.decodeWith_layout ⟨some digest, []⟩
  | publicKey key => exact (@PublicKeyResponse.readsBack ⟨key⟩ limits).alone
  | authorizedKey key => exact (@AuthKeyResponse.readsBack ⟨key⟩ limits).alone
  | highWaterMark mark => exact mark.readsBack.alone

/-- The longest response is a signature behind its hash. -/
theorem length_layout_le (limits : answer.WithinLimits) :
    answer.layout.length ≤ digestSize + maxSignature := by
  cases answer with
  | none => exact Nat.zero_le _
  | pending => exact Nat.zero_le _
  | rejected => exact Nat.zero_le _
  | signature digest bytes =>
    rw [layout, SignatureResponse.layout_eq, List.length_append,
      SignatureResponse.length_layout_nil]
    refine Nat.add_le_add ?_ limits
    split
    · exact Nat.le_refl _
    · exact Nat.zero_le _
  | hash digest =>
    rw [layout, SignatureResponse.length_layout_nil]
    exact Nat.le_add_right _ _
  | publicKey key =>
    have small : key.length ≤ 65 := limits
    simp only [layout, WireFormat.layout, List.length_cons, digestSize, maxSignature]
    omega
  | authorizedKey key =>
    exact Nat.le_trans (AuthKeyResponse.length_layout_le ⟨key⟩) (by decide)
  | highWaterMark mark =>
    have small : 5 ≤ digestSize + maxSignature := by decide
    exact small

/-- An answer within its limits is encoded. -/
theorem encodes (limits : answer.WithinLimits) : answer.Encodes answer.layout.length where
  written buffer room := by
    obtain ⟨written, wrote, length, content⟩ := exists_written room
    refine ⟨written, (write_eq limits buffer).trans wrote, length, ?_⟩
    rw [content]
    exact readFrom_layout limits
  refused buffer short := by
    rw [write_eq limits, writeInto_of_short short]

end Answer

end TezosSigner
