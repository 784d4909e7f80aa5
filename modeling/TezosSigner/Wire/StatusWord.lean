/-
Module: TezosSigner.Wire.StatusWord
Purpose: The status words that end every response.
Main exports: StatusWord, StatusWord.code, StatusWord.ofCode?
-/
import TezosSigner.Labelled

namespace TezosSigner

/-- The status word that ends a response. -/
inductive StatusWord where
  /-- Success. -/
  | ok
  /-- The operator rejected the operation. -/
  | rejected
  /-- The command is not allowed in the current state. -/
  | notAllowed
  /-- A security condition is not satisfied. -/
  | security
  /-- A field holds an unsupported value, such as an unknown curve. -/
  | wrongValues
  /-- The packets are out of order, or a parameter is wrong. -/
  | wrongParam
  /-- The command has the wrong length. -/
  | wrongLength
  /-- The instruction is unknown or not supported. -/
  | invalidIns
  /-- The class is unknown. -/
  | invalidClass
  /-- The response could not be encoded. -/
  | encodingFailed
  /-- A bound on memory was exceeded. -/
  | memoryError
  /-- The input is malformed, oversized or out of sequence. -/
  | parseError
deriving Repr, Inhabited, DecidableEq

namespace StatusWord

instance : Labelled StatusWord where
  all := [.ok, .rejected, .notAllowed, .security, .wrongValues, .wrongParam, .wrongLength,
    .invalidIns, .invalidClass, .encodingFailed, .memoryError, .parseError]
  label
    | .ok => "Ok"
    | .rejected => "Rejected"
    | .notAllowed => "NotAllowed"
    | .security => "Security"
    | .wrongValues => "WrongValues"
    | .wrongParam => "WrongParam"
    | .wrongLength => "WrongLength"
    | .invalidIns => "InvalidIns"
    | .invalidClass => "InvalidClass"
    | .encodingFailed => "EncodingFailed"
    | .memoryError => "MemoryError"
    | .parseError => "ParseError"

/-- The 16-bit value sent to the host. -/
def code : StatusWord → UInt16
  | .ok => 0x9000
  | .rejected => 0x6985
  | .notAllowed => 0x6986
  | .security => 0x6982
  | .wrongValues => 0x6a80
  | .wrongParam => 0x6b00
  | .wrongLength => 0x6c00
  | .invalidIns => 0x6d00
  | .invalidClass => 0x6e00
  | .encodingFailed => 0x6700
  | .memoryError => 0x9200
  | .parseError => 0x9405

/-- The status word with a given value. -/
def ofCode? (value : UInt16) : Option StatusWord :=
  (Labelled.all : List StatusWord).find? (code · == value)

@[simp] theorem ofCode?_code (word : StatusWord) : ofCode? word.code = some word := by
  cases word <;> rfl

end StatusWord

end TezosSigner
