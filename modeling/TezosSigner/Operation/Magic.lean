/-
Module: TezosSigner.Operation.Magic
Purpose: The leading byte that tells what kind of payload is to be signed.
Main exports: Magic, Magic.ofPayload, Magic.isAllowed, Magic.isBaking
-/
import TezosSigner.Bytes
import TezosSigner.Mode

namespace TezosSigner

/-- What the leading byte of a payload says that the payload is. -/
inductive Magic where
  /-- The payload is empty or of no known kind. -/
  | invalid
  /-- A block header. -/
  | block
  /-- A consensus operation: an endorsement. -/
  | endorsement
  /-- A generic operation. -/
  | unsafeOp
  /-- A generic operation of the second generation. -/
  | unsafeOp2
  /-- A generic operation of the third generation. -/
  | unsafeOp3
deriving Repr, Inhabited, DecidableEq

namespace Magic

instance : Labelled Magic where
  all := [.invalid, .block, .endorsement, .unsafeOp, .unsafeOp2, .unsafeOp3]
  label
    | .invalid => "Invalid"
    | .block => "Block"
    | .endorsement => "Endorsement"
    | .unsafeOp => "UnsafeOp"
    | .unsafeOp2 => "UnsafeOp2"
    | .unsafeOp3 => "UnsafeOp3"

/-- Tell the kind of a payload from its leading byte. -/
def ofPayload : Bytes → Magic
  | 0x01 :: _ => .block
  | 0x02 :: _ => .endorsement
  | 0x03 :: _ => .unsafeOp
  | 0x04 :: _ => .unsafeOp2
  | 0x05 :: _ => .unsafeOp3
  | _ => .invalid

/-- The kinds of payload that a device signs in each mode. -/
def isAllowed : Magic → Mode → Bool
  | .block, .baking => true
  | .endorsement, .baking => true
  | .unsafeOp, .baking => true
  | .unsafeOp, .wallet => true
  | .unsafeOp2, .wallet => true
  | .unsafeOp3, .wallet => true
  | _, _ => false

/-- Blocks and endorsements, which a baking key signs without the operator. -/
def isBaking : Magic → Bool
  | .block => true
  | .endorsement => true
  | _ => false

end Magic

end TezosSigner
