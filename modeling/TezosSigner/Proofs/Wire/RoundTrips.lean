/-
Module: TezosSigner.Proofs.Wire.RoundTrips
Purpose: Whatever is written is read back, and whatever is read can be written again.
Main exports:
  WireFormat.RoundTrips, WireFormat.RoundTrips.of_layout, WireFormat.Reproduces,
  SignatureResponse.readWith, WireFormat.round_trips, WireFormat.read_is_writable
-/
import TezosSigner.Proofs.Wire.Commands
import TezosSigner.Proofs.Wire.KeyGrammar

namespace TezosSigner

/-!
Writing and reading are two directions of one exchange.  `RoundTrips` follows a message from its
writer to its reader; `Reproduces` starts from the reader, and asks whether whatever it reads could
have been written by the other side.

The two directions do not have the same messages.  A public key says its length in one byte, and
its reader takes that byte at its word; its writer has a limit of its own, far below.  So a host
reads public keys that no device writes.  Every other reader keeps to the limits of its writer.
-/

namespace WireFormat

section

variable {Message : Type} [WireFormat Message]

/-- A message goes to the front of every buffer that has the bytes that it asks for, and to no
other.  The bytes behind it stay as they were, and a reader that is given the bytes of the message
tells the message and how many they are. -/
structure RoundTrips (read : Bytes → Except WireError (Message × Nat)) (message : Message)
    (size : Nat) : Prop where
  asked : encodedLength message = size
  written : ∀ buffer : Bytes, size ≤ buffer.length → ∃ written, write message buffer = .ok written ∧
    written.length = size ∧ written.content = layout message ∧
      written.buffer.length = buffer.length ∧ written.buffer.drop size = buffer.drop size ∧
        read written.content = .ok (message, size)
  refused : ∀ buffer : Bytes, buffer.length < size → write message buffer = .error .invalidLength

/-- What a reader reads off a byte string is among its bytes, and makes the round trip. -/
def Reproduces (read : Bytes → Except WireError (Message × Nat)) (bytes : Bytes) : Prop :=
  ∀ message length, read bytes = .ok (message, length) →
    length ≤ bytes.length ∧ RoundTrips read message length

variable {read : Bytes → Except WireError (Message × Nat)} {message : Message} {size : Nat}

/-- A message within its limits makes the round trip if its layout is read back. -/
theorem RoundTrips.of_layout (limits : withinLimits message = true)
    (asked : (layout message).length = size) (back : read (layout message) = .ok (message, size)) :
    RoundTrips read message size where
  asked := asked
  written buffer room := by
    obtain ⟨written, wrote, length, content⟩ :=
      exists_written (Nat.le_trans (Nat.le_of_eq asked) room)
    obtain ⟨kept, behind⟩ := behind_of_writeInto wrote
    rw [length, asked] at behind
    refine ⟨written, (if_pos limits).trans wrote, length.trans asked, content, kept, behind, ?_⟩
    rw [content]
    exact back
  refused buffer short := by
    rw [write, if_pos limits]
    exact writeInto_of_short (by rwa [asked])

theorem ReadsBack.roundTrips (back : ReadsBack message) (limits : withinLimits message = true)
    (asked : (layout message).length = size) : RoundTrips decode message size := by
  have alone := back.alone
  rw [asked] at alone
  exact .of_layout limits asked alone

end

end WireFormat

open WireFormat

namespace KeyPath

variable {key : KeyPath}

theorem roundTrips (steps : key.path ≠ []) :
    RoundTrips decode key (2 + 4 * key.path.length) :=
  (readsBack steps).roundTrips rfl (length_layout key)

/-- What is read as a key is the start of the bytes that were given. -/
theorem length_of_decode {bytes : Bytes} {length : Nat} (read : decode bytes = .ok (key, length)) :
    key.path ≠ [] ∧ length = 2 + 4 * key.path.length ∧ length ≤ bytes.length := by
  obtain ⟨steps, rfl, rest, rfl⟩ := decode_eq_ok_iff.1 read
  refine ⟨steps, length_layout key, ?_⟩
  rw [List.length_append]
  exact Nat.le_add_right _ _

theorem reproduces (bytes : Bytes) : Reproduces decode bytes := by
  intro key length read
  obtain ⟨steps, rfl, inside⟩ := length_of_decode read
  exact ⟨inside, roundTrips steps⟩

end KeyPath

namespace KeyRequest

variable {bytes : Bytes} {request : KeyRequest} {length : Nat}

theorem decode_eq_ok_iff :
    decode bytes = .ok (request, length) ↔ KeyPath.decode bytes = .ok (request.key, length) := by
  obtain ⟨key⟩ := request
  rw [decode]
  cases KeyPath.decode bytes with
  | error error => exact ⟨nofun, nofun⟩
  | ok read =>
    obtain ⟨first, taken⟩ := read
    constructor
    · rintro ⟨⟩
      rfl
    · rintro ⟨⟩
      rfl

theorem readsBack (steps : request.key.path ≠ []) : ReadsBack request :=
  fun rest => decode_eq_ok_iff.2 (KeyPath.readsBack steps rest)

theorem roundTrips (steps : request.key.path ≠ []) :
    RoundTrips decode request (2 + 4 * request.key.path.length) :=
  (readsBack steps).roundTrips rfl (KeyPath.length_layout request.key)

theorem reproduces (bytes : Bytes) : Reproduces decode bytes := by
  intro request length read
  obtain ⟨steps, rfl, inside⟩ := KeyPath.length_of_decode (decode_eq_ok_iff.1 read)
  exact ⟨inside, roundTrips steps⟩

end KeyRequest

namespace ResetRequest

theorem roundTrips (request : ResetRequest) : RoundTrips decode request 4 :=
  .of_layout rfl rfl (decode_eq_ok_iff.2 ⟨rfl, rfl⟩)

theorem decode_layout_append (request : ResetRequest) {rest : Bytes} (more : rest ≠ []) :
    decode (layout request ++ rest) = .error .invalidLength := by
  have positive := List.length_pos_iff.2 more
  refine decode_eq_error_iff.2 ⟨rfl, ?_⟩
  rw [List.length_append]
  exact Nat.ne_of_gt (Nat.lt_add_of_pos_right positive)

theorem reproduces (bytes : Bytes) : Reproduces decode bytes := by
  intro request length read
  obtain ⟨rfl, rfl⟩ := decode_eq_ok_iff.1 read
  exact ⟨Nat.le_refl _, roundTrips request⟩

end ResetRequest

namespace Mark

theorem roundTrips (mark : Mark) : RoundTrips decode mark 5 :=
  mark.readsBack.roundTrips rfl mark.length_layout

theorem reproduces (bytes : Bytes) : Reproduces decode bytes := by
  intro mark length read
  unfold decode at read
  split at read
  · rename_i word
    rw [decodeWord?_eq_some_iff] at word
    cases read
    refine ⟨?_, roundTrips _⟩
    rw [word, List.length_append, length_encodeWord, List.length_cons]
    omega
  · cases read

end Mark

namespace AuthKeyResponse

variable {response : AuthKeyResponse}

theorem roundTrips (steps : ∀ key, response.key = some key → key.path ≠ []) :
    RoundTrips decode response (2 + response.key.elim 0 fun key => 4 * key.path.length) := by
  refine (readsBack steps).roundTrips rfl ?_
  obtain ⟨bound⟩ := response
  cases bound with
  | none => rfl
  | some key => exact length_layout_some key

theorem reproduces (bytes : Bytes) : Reproduces decode bytes := by
  intro response length read
  cases (readsExactly.ok_iff bytes response length).1 read with
  | unset zero =>
    obtain ⟨inside, _⟩ := List.getElem?_eq_some_iff.1 zero
    exact ⟨inside, roundTrips nofun⟩
  | @key key steps front =>
    have long := congrArg List.length front
    rw [List.length_take, length_layout_some] at long
    exact ⟨by omega, @roundTrips ⟨some key⟩ (by rintro _ ⟨⟩; exact steps)⟩

end AuthKeyResponse

namespace PublicKeyResponse

variable {response : PublicKeyResponse} {bytes : Bytes} {length : Nat}

theorem roundTrips (limits : response.publicKey.length ≤ maxPublicKey) :
    RoundTrips decode response (1 + response.publicKey.length) :=
  (readsBack limits).roundTrips (decide_eq_true limits) (Nat.add_comm _ 1)

/-- A public key is read as long as its first byte says. -/
theorem length_of_decode (read : decode bytes = .ok (response, length)) :
    length = 1 + response.publicKey.length ∧ length ≤ bytes.length := by
  cases bytes with
  | nil => cases read
  | cons count bytes =>
    rw [decode] at read
    split at read
    · cases read
    · rename_i enough
      cases read
      rw [List.length_take, List.length_cons]
      omega

/-- A public key beyond its limit is not written. -/
theorem write_of_overlong (long : maxPublicKey < response.publicKey.length) (buffer : Bytes) :
    write response buffer = .error .invalidLength := by
  have beyond : withinLimits response = false := decide_eq_false (Nat.not_le.2 long)
  rw [write, beyond]
  rfl

/-- A public key makes the round trip exactly within its limit. -/
theorem roundTrips_iff :
    RoundTrips decode response (1 + response.publicKey.length) ↔
      response.publicKey.length ≤ maxPublicKey := by
  refine ⟨fun trip => Nat.not_lt.1 fun beyond => ?_, roundTrips⟩
  obtain ⟨written, wrote, _⟩ := trip.written (List.replicate (1 + response.publicKey.length) 0)
    (Nat.le_of_eq List.length_replicate.symm)
  rw [write_of_overlong beyond] at wrote
  cases wrote

end PublicKeyResponse

namespace SignatureResponse

/-- Read a response that starts with a hash if `withHash` is set, and tell that all bytes are
taken. -/
def readWith (withHash : Bool) (bytes : Bytes) : Except WireError (SignatureResponse × Nat) :=
  (decodeWith withHash bytes).map (·, bytes.length)

theorem roundTrips (response : SignatureResponse) :
    RoundTrips (readWith response.hash.isSome) response
      ((if response.hash.isSome then digestSize else 0) + response.signature.length) := by
  have asked : response.layout.length =
      (if response.hash.isSome then digestSize else 0) + response.signature.length := by
    rw [layout_eq, List.length_append, length_layout_nil]
  refine .of_layout rfl asked ?_
  rw [← asked, readWith, show WireFormat.layout response = response.layout from rfl,
    decodeWith_layout]
  rfl

/-- What is read, with or without a hash, is made up of all the bytes that were given. -/
theorem layout_of_decodeWith {withHash : Bool} {bytes : Bytes} {response : SignatureResponse}
    (read : decodeWith withHash bytes = .ok response) :
    response.hash.isSome = withHash ∧ response.layout = bytes := by
  cases withHash with
  | false =>
    cases read
    exact ⟨rfl, rfl⟩
  | true =>
    rw [decodeWith, if_pos rfl] at read
    split at read
    · rename_i hash field
      have whole : hash.toList ++ bytes.drop digestSize = bytes := by
        rw [toList_of_fixed? field, List.take_append_drop]
      cases read
      exact ⟨rfl, whole⟩
    · cases read

theorem reproduces (withHash : Bool) (bytes : Bytes) :
    Reproduces (readWith withHash) bytes := by
  intro response length read
  cases done : decodeWith withHash bytes with
  | error error =>
    rw [readWith, done] at read
    cases read
  | ok first =>
    rw [readWith, done] at read
    cases read
    obtain ⟨rfl, rfl⟩ := layout_of_decodeWith done
    have trip := roundTrips response
    rw [← trip.asked] at trip
    exact ⟨Nat.le_refl _, trip⟩

end SignatureResponse

namespace WireFormat

/-- Whatever host and device write is read back.  A message takes as many bytes as it asks for, is
written wherever there are so many and nowhere else, and reads back as itself.  What follows it
does not matter but to a level, which has to be the whole payload, and to a signature, which takes
all there is. -/
theorem round_trips :
    (∀ key : KeyPath, key.path ≠ [] →
      RoundTrips KeyPath.decode key (2 + 4 * key.path.length) ∧ ReadsBack key ∧
      RoundTrips KeyRequest.decode ⟨key⟩ (2 + 4 * key.path.length) ∧ ReadsBack (KeyRequest.mk key) ∧
      ∀ request ∈ [Request.signFirst key, .getPublicKey key, .authorizeBaking key],
        request.payload = layout (KeyRequest.mk key)) ∧
    (∀ request : ResetRequest, RoundTrips ResetRequest.decode request 4 ∧
      ∀ rest, rest ≠ [] → ResetRequest.decode (layout request ++ rest) = .error .invalidLength) ∧
    (∀ mark : Mark, RoundTrips Mark.decode mark 5 ∧ ReadsBack mark) ∧
    (∀ response : AuthKeyResponse, (∀ key, response.key = some key → key.path ≠ []) →
      RoundTrips AuthKeyResponse.decode response
        (2 + response.key.elim 0 fun key => 4 * key.path.length) ∧ ReadsBack response) ∧
    (∀ response : PublicKeyResponse, response.publicKey.length ≤ maxPublicKey →
      RoundTrips PublicKeyResponse.decode response (1 + response.publicKey.length) ∧
        ReadsBack response) ∧
    (∀ response : SignatureResponse,
      RoundTrips (SignatureResponse.readWith response.hash.isSome) response
        ((if response.hash.isSome then digestSize else 0) + response.signature.length)) := by
  refine ⟨?_, ?_, ?_, ?_, ?_, SignatureResponse.roundTrips⟩
  · intro key steps
    refine ⟨KeyPath.roundTrips steps, KeyPath.readsBack steps, KeyRequest.roundTrips steps,
      KeyRequest.readsBack steps, ?_⟩
    intro request member
    simp only [List.mem_cons, List.not_mem_nil, or_false] at member
    rcases member with rfl | rfl | rfl <;> rfl
  · intro request
    exact ⟨request.roundTrips, fun rest more => request.decode_layout_append more⟩
  · intro mark
    exact ⟨mark.roundTrips, mark.readsBack⟩
  · intro response steps
    exact ⟨AuthKeyResponse.roundTrips steps, AuthKeyResponse.readsBack steps⟩
  · intro response limits
    exact ⟨PublicKeyResponse.roundTrips limits, PublicKeyResponse.readsBack limits⟩

/-- A key leaves the end of a buffer alone, the longest public key fits a buffer of its size and no
smaller one, and a level is not followed by anything. -/
theorem key_and_level_carried :
    (∃ written, write (KeyRequest.mk ⟨.secp256r1, [hardened, 7], by decide⟩)
      (List.replicate 12 0xff) = .ok written ∧ written.buffer.drop 10 = [0xff, 0xff] ∧
        KeyRequest.decode written.content = .ok (⟨.secp256r1, [hardened, 7], by decide⟩, 10)) ∧
    RoundTrips AuthKeyResponse.decode ⟨none⟩ 2 ∧
    write (PublicKeyResponse.mk (List.replicate 65 4)) (List.replicate 65 0) =
      .error .invalidLength ∧
    ResetRequest.decode (layout (ResetRequest.mk 500) ++ [0]) = .error .invalidLength := by
  have key := (round_trips.1 ⟨.secp256r1, [hardened, 7], by decide⟩ (List.cons_ne_nil _ _)).2.2.1
  obtain ⟨written, wrote, _, _, _, behind, read⟩ := key.written (List.replicate 12 0xff) (by decide)
  have publicKey := (round_trips.2.2.2.2.1 ⟨List.replicate 65 4⟩ (by decide)).1
  exact ⟨⟨written, wrote, behind, read⟩, (round_trips.2.2.2.1 ⟨none⟩ nofun).1,
    publicKey.refused _ (by decide), (round_trips.2.1 ⟨500⟩).2 [0] (List.cons_ne_nil _ _)⟩

/-- Whatever is read is among the bytes that were given, can be written wherever there are as many
bytes, and reads back the same; but a public key is read at any length that a byte can tell, and
this holds of it exactly within its limit.  Beyond the limit it cannot be written at all. -/
theorem read_is_writable (bytes : Bytes) (withHash : Bool) :
    Reproduces KeyPath.decode bytes ∧ Reproduces KeyRequest.decode bytes ∧
    Reproduces ResetRequest.decode bytes ∧ Reproduces AuthKeyResponse.decode bytes ∧
    Reproduces Mark.decode bytes ∧ Reproduces SignatureResponse.decode bytes ∧
    Reproduces (SignatureResponse.readWith withHash) bytes ∧
    ∀ response length, PublicKeyResponse.decode bytes = .ok (response, length) →
      length ≤ bytes.length ∧
        (RoundTrips PublicKeyResponse.decode response length ↔
          response.publicKey.length ≤ maxPublicKey) ∧
        (maxPublicKey < response.publicKey.length → ∀ buffer : Bytes,
          write response buffer = .error .invalidLength) := by
  refine ⟨KeyPath.reproduces bytes, KeyRequest.reproduces bytes, ResetRequest.reproduces bytes,
    AuthKeyResponse.reproduces bytes, Mark.reproduces bytes,
    SignatureResponse.reproduces false bytes, SignatureResponse.reproduces withHash bytes, ?_⟩
  intro response length read
  obtain ⟨rfl, inside⟩ := PublicKeyResponse.length_of_decode read
  exact ⟨inside, PublicKeyResponse.roundTrips_iff, PublicKeyResponse.write_of_overlong⟩

/-- A mark that is read with an odd flag can be written, and so can a compressed public key. -/
theorem odd_flag_rewritten :
    Mark.decode [0, 0, 1, 0xf4, 7] = .ok (⟨500, true⟩, 5) ∧ RoundTrips Mark.decode ⟨500, true⟩ 5 ∧
      PublicKeyResponse.decode (33 :: List.replicate 33 2) = .ok (⟨List.replicate 33 2⟩, 34) ∧
      RoundTrips PublicKeyResponse.decode ⟨List.replicate 33 2⟩ 34 := by
  have mark : Mark.decode [0, 0, 1, 0xf4, 7] = .ok (⟨500, true⟩, 5) := rfl
  have key : PublicKeyResponse.decode (33 :: List.replicate 33 2) =
      .ok (⟨List.replicate 33 2⟩, 34) := rfl
  have ofMark := read_is_writable [0, 0, 1, 0xf4, 7] false
  have ofKey := read_is_writable (33 :: List.replicate 33 2) false
  exact ⟨mark, (ofMark.2.2.2.2.1 _ _ mark).2, key,
    (ofKey.2.2.2.2.2.2.2 _ _ key).2.1.2 (by decide)⟩

/-- A public key of one byte too many is read, and no buffer has the room for it. -/
theorem overlong_key_unwritable :
    PublicKeyResponse.decode (66 :: List.replicate 66 7) = .ok (⟨List.replicate 66 7⟩, 67) ∧
      (∀ buffer : Bytes, write (PublicKeyResponse.mk (List.replicate 66 7)) buffer =
        .error .invalidLength) ∧
      ¬ Reproduces PublicKeyResponse.decode (66 :: List.replicate 66 7) := by
  have read : PublicKeyResponse.decode (66 :: List.replicate 66 7) =
      .ok (⟨List.replicate 66 7⟩, 67) := rfl
  refine ⟨read, PublicKeyResponse.write_of_overlong (by decide), ?_⟩
  intro reproduces
  have limits := PublicKeyResponse.roundTrips_iff.1 (reproduces _ _ read).2
  exact absurd limits (by decide)

end WireFormat

end TezosSigner
