/-
Module: TezosSigner.Error
Purpose: Why the device refuses a command.
Main exports: SignerError, SignerError.message, SignerError.status, SignerError.ofWireError
-/
import TezosSigner.Labelled
import TezosSigner.Wire.Error
import TezosSigner.Wire.StatusWord

namespace TezosSigner

/-- Why the device refuses a command.  Any refusal ends the signing session in
progress. -/
inductive SignerError where
  /-- The input is malformed, oversized or out of sequence. -/
  | parseError
  /-- A payload has the wrong length. -/
  | wrongLength
  /-- A control byte or a parameter is wrong. -/
  | wrongParameter
  /-- The key is not authorized, or the high-water mark stands in the way. -/
  | securityError
  /-- A bound on memory was exceeded. -/
  | memoryError
  /-- The curve is unknown. -/
  | unsupportedCurve
  /-- The instruction is unknown or not available in this mode. -/
  | invalidInstruction
  /-- The device is in no state for this. -/
  | invalidState
  /-- The response could not be encoded. -/
  | encodingFailed
  /-- The persisted record could not be written. -/
  | storage
  /-- The class is unknown. -/
  | invalidClass
deriving Repr, Inhabited, DecidableEq

namespace SignerError

instance : Labelled SignerError where
  all := [.parseError, .wrongLength, .wrongParameter, .securityError, .memoryError,
    .unsupportedCurve, .invalidInstruction, .invalidState, .encodingFailed, .storage,
    .invalidClass]
  label
    | .parseError => "ParseError"
    | .wrongLength => "WrongLength"
    | .wrongParameter => "WrongParameter"
    | .securityError => "SecurityError"
    | .memoryError => "MemoryError"
    | .unsupportedCurve => "UnsupportedCurve"
    | .invalidInstruction => "InvalidInstruction"
    | .invalidState => "InvalidState"
    | .encodingFailed => "EncodingFailed"
    | .storage => "Storage"
    | .invalidClass => "InvalidClass"

/-- The sentence that explains a refusal. -/
def message : SignerError → String
  | .parseError => "parse error"
  | .wrongLength => "invalid argument length"
  | .wrongParameter => "wrong parameter"
  | .securityError => "security condition not satisfied"
  | .memoryError => "memory error"
  | .unsupportedCurve => "unsupported curve"
  | .invalidInstruction => "invalid instruction"
  | .invalidState => "invalid engine state"
  | .encodingFailed => "message encoding failed"
  | .storage => "storage write failed"
  | .invalidClass => "invalid class"

/-- The status word that reports a refusal to the host. -/
def status : SignerError → StatusWord
  | .parseError => .parseError
  | .wrongLength => .wrongLength
  | .wrongParameter => .wrongParam
  | .securityError => .security
  | .memoryError => .memoryError
  | .unsupportedCurve => .wrongValues
  | .invalidInstruction => .invalidIns
  | .invalidState => .notAllowed
  | .encodingFailed => .encodingFailed
  | .storage => .memoryError
  | .invalidClass => .invalidClass

/-- A payload of the wrong length is refused as such, one with wrong content as
malformed. -/
def ofWireError : WireError → SignerError
  | .invalidLength => .wrongLength
  | .invalidUtf8 => .parseError
  | .invalidEncoding => .parseError
  | .invalidVersion _ => .parseError

end SignerError

end TezosSigner
