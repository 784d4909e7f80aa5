/-
Module: TezosSigner.Operation.BakingPayload
Purpose: Blocks and endorsements, read from the bytes to be signed.
Main exports: BakingPayload, BakingPayload.ofBytes?
-/
import TezosSigner.Bytes
import TezosSigner.Baking.Mark
import TezosSigner.Operation.Magic

namespace TezosSigner

/-!
Two layouts carry a level that the high-water mark guards:

    block:        | 1 | chain | level | protocol | ... |
                    1     4       4        1
    endorsement:  | 2 | chain | branch | tag | level |
                    1     4       32      1      4

A block may go on after the protocol byte; an endorsement has exactly this length,
and its tag is not looked at.
-/

/-- The part of a block or an endorsement that the guard needs. -/
structure BakingPayload where
  /-- The chain it belongs to, which is not checked. -/
  chain : Vector UInt8 4
  /-- Its level, and whether it is an endorsement. -/
  mark : Mark
deriving Repr, DecidableEq

namespace BakingPayload

/-- The length of a block header up to its protocol byte. -/
def blockLength : Nat := 10

/-- The length of an endorsement. -/
def endorsementLength : Nat := 42

/-- Where the level of a block starts. -/
def blockLevelOffset : Nat := 5

/-- Where the level of an endorsement starts. -/
def endorsementLevelOffset : Nat := 38

/-- Read a chain and a level at the given offset. -/
def read? (bytes : Bytes) (levelOffset : Nat) (endorsement : Bool) : Option BakingPayload := do
  let chain ← fixed? 4 ((bytes.drop 1).take 4)
  let (level, _) ← decodeWord? (bytes.drop levelOffset)
  return { chain := chain, mark := { level := level, endorsement := endorsement } }

/-- Read a block or an endorsement; anything else carries no level. -/
def ofBytes? (bytes : Bytes) : Option BakingPayload :=
  match Magic.ofPayload bytes with
  | .block =>
      if blockLength ≤ bytes.length then read? bytes blockLevelOffset false else none
  | .endorsement =>
      if bytes.length = endorsementLength then read? bytes endorsementLevelOffset true else none
  | _ => none

end BakingPayload

end TezosSigner
