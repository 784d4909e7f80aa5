/-
Module: TezosSigner.Wire.Instruction
Purpose: The instructions a host can send, and the class they belong to.
Main exports: Instruction, Instruction.code, Instruction.ofCode?, Instruction.isSigning
-/
import TezosSigner.Labelled

namespace TezosSigner

/-- The class byte of every command. -/
def commandClass : UInt8 := 0x80

/-- The longest payload that a command may carry. -/
def maxPayload : Nat := 235

/-- What a command asks of the device. -/
inductive Instruction where
  /-- Authorize a key for baking. -/
  | authorizeBaking
  /-- Export a public key. -/
  | getPublicKey
  /-- Sign the hash of an operation. -/
  | sign
  /-- Sign bytes as they are, without hashing them. -/
  | signUnsafe
  /-- Move the high-water mark. -/
  | resetHighWaterMark
  /-- Ask for the authorized baking key. -/
  | queryAuthKey
  /-- Ask for the high-water mark. -/
  | queryHighWaterMark
  /-- Sign the hash of an operation and return that hash too. -/
  | signWithHash
deriving Repr, Inhabited, DecidableEq

namespace Instruction

instance : Labelled Instruction where
  all := [.authorizeBaking, .getPublicKey, .sign, .signUnsafe, .resetHighWaterMark,
    .queryAuthKey, .queryHighWaterMark, .signWithHash]
  label
    | .authorizeBaking => "AuthorizeBaking"
    | .getPublicKey => "GetPublicKey"
    | .sign => "Sign"
    | .signUnsafe => "SignUnsafe"
    | .resetHighWaterMark => "ResetHighWaterMark"
    | .queryAuthKey => "QueryAuthKey"
    | .queryHighWaterMark => "QueryHighWaterMark"
    | .signWithHash => "SignWithHash"

/-- The instruction byte of a command. -/
def code : Instruction → UInt8
  | .authorizeBaking => 0x01
  | .getPublicKey => 0x02
  | .sign => 0x04
  | .signUnsafe => 0x05
  | .resetHighWaterMark => 0x06
  | .queryAuthKey => 0x07
  | .queryHighWaterMark => 0x08
  | .signWithHash => 0x0f

/-- The instruction a byte stands for. -/
def ofCode? : UInt8 → Option Instruction
  | 0x01 => some .authorizeBaking
  | 0x02 => some .getPublicKey
  | 0x04 => some .sign
  | 0x05 => some .signUnsafe
  | 0x06 => some .resetHighWaterMark
  | 0x07 => some .queryAuthKey
  | 0x08 => some .queryHighWaterMark
  | 0x0f => some .signWithHash
  | _ => none

/-- The instructions that open or continue a signing session. -/
def isSigning : Instruction → Bool
  | .sign => true
  | .signWithHash => true
  | .signUnsafe => true
  | _ => false

@[simp] theorem ofCode?_code (instruction : Instruction) :
    ofCode? instruction.code = some instruction := by
  cases instruction <;> rfl

theorem ofCode?_eq_some_iff {byte : UInt8} {instruction : Instruction} :
    ofCode? byte = some instruction ↔ byte = instruction.code := by
  constructor
  · intro h
    unfold ofCode? at h
    split at h <;> cases h <;> rfl
  · rintro rfl
    exact ofCode?_code instruction

theorem ofCode?_eq_none_iff {byte : UInt8} :
    ofCode? byte = none ↔ ∀ instruction : Instruction, byte ≠ instruction.code := by
  simp only [Option.eq_none_iff_forall_ne_some, ne_eq, ofCode?_eq_some_iff]

end Instruction

end TezosSigner
