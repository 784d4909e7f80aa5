/-
Module: TezosSigner.Key.Layout
Purpose: How a key is written in a request.
Main exports: KeyPath.layout, KeyPath.decode
-/
import TezosSigner.Key.Path
import TezosSigner.Wire.Format

namespace TezosSigner.KeyPath

/-!
A request names its key by the number of derivation steps, the steps as big-endian
words, and the byte of the curve:

    | count | step 1 | ... | step n | curve |
       1        4               4       1

The reader wants one to ten steps, all of them present and followed by a curve
byte; a byte that stands for no curve is an encoding error, anything else that is
wrong is a length error.
-/

/-- The bytes of a key in a request. -/
def layout (key : KeyPath) : Bytes :=
  UInt8.ofNat key.path.length :: (encodeWords key.path ++ [key.curve.code])

/-- Read a key from the front of a request. -/
def decode : Bytes → Except WireError (KeyPath × Nat)
  | [] => .error .invalidLength
  | count :: bytes =>
      match decodeWords? count.toNat bytes with
      | some (path, curveByte :: _) =>
          if h : path ≠ [] ∧ path.length ≤ maxDepth then
            match Curve.ofCode? curveByte with
            | some curve =>
                .ok ({ curve := curve, path := path, depth_le := depth_le_of_steps h },
                  2 + 4 * path.length)
            | none => .error .invalidEncoding
          else
            .error .invalidLength
      | _ => .error .invalidLength

instance : WireFormat KeyPath where
  layout := layout
  decode := decode

@[simp] theorem length_layout (key : KeyPath) :
    key.layout.length = 2 + 4 * key.path.length := by
  simp [layout]
  omega

/-- A key with at least one step reads back, whatever follows it. -/
theorem decode_layout_append (key : KeyPath) (rest : Bytes) (steps : key.path ≠ []) :
    decode (key.layout ++ rest) = .ok (key, 2 + 4 * key.path.length) := by
  have depth : key.path.length ≤ maxDepth := key.depth_le
  have count := toNat_ofNat_length depth
  have words := decodeWords?_encodeWords key.path (key.curve.code :: rest)
  simp [layout, decode, count, words, steps, depth]

end TezosSigner.KeyPath
