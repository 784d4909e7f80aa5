/-
Module: TezosSigner.Wire.Error
Purpose: What can be wrong with the bytes of a message.
Main exports: WireError, WireError.name, WireError.message
-/

namespace TezosSigner

/-- What is wrong with a message: bytes are missing or left over, text is not
UTF-8, a field holds no known value, or a version is not supported. -/
inductive WireError where
  | invalidLength
  | invalidUtf8
  | invalidEncoding
  | invalidVersion (version : UInt8)
deriving Repr, DecidableEq

namespace WireError

/-- The short name of an error, as shown to the host. -/
def name : WireError → String
  | .invalidLength => "InvalidLength"
  | .invalidUtf8 => "InvalidUtf8"
  | .invalidEncoding => "InvalidEncoding"
  | .invalidVersion version => s!"InvalidVersion({version.toNat})"

/-- The sentence that explains an error. -/
def message : WireError → String
  | .invalidLength => "Invalid buffer length"
  | .invalidUtf8 => "Invalid Utf8 string encoding"
  | .invalidEncoding => "Invalid APDU encoding"
  | .invalidVersion version => s!"Invalid version: {version.toNat}"

end WireError

end TezosSigner
