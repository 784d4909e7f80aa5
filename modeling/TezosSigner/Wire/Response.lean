/-
Module: TezosSigner.Wire.Response
Purpose: The responses a device sends: signatures, public keys, and the baking state.
Main exports: SignatureResponse, PublicKeyResponse, AuthKeyResponse, and the layout of a Mark
-/
import TezosSigner.Baking.Mark
import TezosSigner.Key.Path
import TezosSigner.Wire.Format

namespace TezosSigner

/-- The size of an operation hash. -/
def digestSize : Nat := 32

/-- The longest signature; DER-encoded ECDSA signatures vary in length. -/
def maxSignature : Nat := 100

/-- The longest public key, an uncompressed ECDSA point. -/
def maxPublicKey : Nat := 65

/-- A signature, after the hash of the operation where the host asked for it.  The
response does not say whether it starts with a hash: the host knows what it asked
for. -/
structure SignatureResponse where
  hash : Option Digest
  signature : Bytes
deriving Repr, DecidableEq

namespace SignatureResponse

/-- The bytes of the hash, if any, and those of the signature. -/
def layout (response : SignatureResponse) : Bytes :=
  match response.hash with
  | some hash => hash.toList ++ response.signature
  | none => response.signature

/-- Read a response that starts with a hash if `withHash` is set; all bytes belong
to it. -/
def decodeWith (withHash : Bool) (bytes : Bytes) : Except WireError SignatureResponse :=
  if withHash then
    match fixed? 32 (bytes.take digestSize) with
    | some hash => .ok { hash := some hash, signature := bytes.drop digestSize }
    | none => .error .invalidLength
  else
    .ok { hash := none, signature := bytes }

/-- Read a response without a hash. -/
def decode (bytes : Bytes) : Except WireError (SignatureResponse × Nat) := do
  let response ← decodeWith false bytes
  return (response, bytes.length)

instance : WireFormat SignatureResponse where
  layout := layout
  decode := decode

end SignatureResponse

/-- A public key, after one byte with its length. -/
structure PublicKeyResponse where
  publicKey : Bytes
deriving Repr, DecidableEq

namespace PublicKeyResponse

/-- Read a length byte and that many bytes of key. -/
def decode : Bytes → Except WireError (PublicKeyResponse × Nat)
  | [] => .error .invalidLength
  | count :: bytes =>
      if bytes.length < count.toNat then
        .error .invalidLength
      else
        .ok ({ publicKey := bytes.take count.toNat }, 1 + count.toNat)

instance : WireFormat PublicKeyResponse where
  layout response := UInt8.ofNat response.publicKey.length :: response.publicKey
  withinLimits response := response.publicKey.length ≤ maxPublicKey
  decode := decode

end PublicKeyResponse

/-- The authorized baking key, if there is one.  The curve comes first, then the
number of derivation steps, then the steps; no key is written as two zero bytes. -/
structure AuthKeyResponse where
  key : Option KeyPath
deriving Repr, DecidableEq

namespace AuthKeyResponse

/-- The curve, the number of steps and the steps. -/
def layout (response : AuthKeyResponse) : Bytes :=
  match response.key with
  | some key => key.curve.code :: UInt8.ofNat key.path.length :: encodeWords key.path
  | none => [0, 0]

/-- Read an authorized key.  Where there are no steps there is no key, and the curve
byte does not matter. -/
def decode : Bytes → Except WireError (AuthKeyResponse × Nat)
  | curveByte :: count :: bytes =>
      if count = 0 then
        .ok ({ key := none }, 2)
      else
        match decodeWords? count.toNat bytes with
        | some (path, _) =>
            if h : path.length ≤ maxDepth then
              match Curve.ofCode? curveByte with
              | some curve =>
                  .ok ({ key := some { curve := curve, path := path, depth_le := h } },
                    2 + 4 * path.length)
              | none => .error .invalidEncoding
            else
              .error .invalidLength
        | none => .error .invalidLength
  | _ => .error .invalidLength

instance : WireFormat AuthKeyResponse where
  layout := layout
  decode := decode

end AuthKeyResponse

namespace Mark

/-- The level and a byte that is one for an endorsed level. -/
def layout (mark : Mark) : Bytes :=
  encodeWord mark.level ++ [if mark.endorsement then 1 else 0]

/-- Read a mark; any byte but zero stands for an endorsed level. -/
def decode (bytes : Bytes) : Except WireError (Mark × Nat) :=
  match decodeWord? bytes with
  | some (level, endorsement :: _) =>
      .ok ({ level := level, endorsement := endorsement != 0 }, 5)
  | _ => .error .invalidLength

instance : WireFormat Mark where
  layout := layout
  decode := decode

end Mark

end TezosSigner
