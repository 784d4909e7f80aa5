/-
Module: TezosSigner.Command
Purpose: What the device is told to do, and how a command is read from the wire.
Main exports: Apdu, Command, Command.ofApdu, Command.isAvailable, Command.name
-/
import TezosSigner.Error
import TezosSigner.Mode
import TezosSigner.Wire.Request

namespace TezosSigner

/-!
A command arrives as an APDU: a class, an instruction, a control byte and a payload.
`Command.ofApdu` takes it apart.  Where several things are wrong, the first of this
order is reported: the class, the length of the payload, the instruction, the
control byte, the payload.  Only signing commands and the export of a public key
look at the control byte; the queries ignore their payload.
-/

/-- A command as it arrives. -/
structure Apdu where
  commandClass : UInt8
  instruction : UInt8
  control : UInt8
  payload : Bytes
deriving Repr, DecidableEq

/-- What the device is told to do. -/
inductive Command where
  /-- Nothing. -/
  | none
  /-- Open a signing session. -/
  | signFirst (instruction : Instruction) (key : KeyPath) (control : PacketControl)
  /-- Go on with a signing session. -/
  | signNext (instruction : Instruction) (control : PacketControl) (data : Bytes)
  /-- Export a public key. -/
  | getPublicKey (key : KeyPath)
  /-- Let a key sign blocks and endorsements. -/
  | authorizeBaking (key : KeyPath)
  /-- Move the high-water mark. -/
  | resetHighWaterMark (level : UInt32)
  /-- Tell the authorized key. -/
  | queryAuthKey
  /-- Tell the high-water mark. -/
  | queryHighWaterMark
deriving Repr, DecidableEq

namespace Command

/-- The key in a payload.  An unknown curve is reported as such. -/
def decodeKey (payload : Bytes) : Except SignerError KeyPath :=
  match KeyPath.decode payload with
  | .ok (key, _) => .ok key
  | .error .invalidEncoding => .error .unsupportedCurve
  | .error error => .error (.ofWireError error)

/-- Read a packet of a signing request. -/
def decodePacket (instruction : Instruction) (control : UInt8) (payload : Bytes) :
    Except SignerError Command :=
  match PacketControl.decode control with
  | .error _ => .error .wrongParameter
  | .ok control =>
      match control.kind with
      | .first => do
          let key ← decodeKey payload
          return .signFirst instruction key control
      | .next => .ok (.signNext instruction control payload)
      | .hashOnlyNext => .ok (.signNext instruction control payload)

/-- Read a command from its instruction, control byte and payload. -/
def decode (instruction control : UInt8) (payload : Bytes) : Except SignerError Command :=
  if maxPayload < payload.length then
    .error .wrongLength
  else
    match Instruction.ofCode? instruction with
    | .none => .error .invalidInstruction
    | some .sign => decodePacket .sign control payload
    | some .signWithHash => decodePacket .signWithHash control payload
    | some .signUnsafe => decodePacket .signUnsafe control payload
    | some .getPublicKey =>
        if control ≠ 0 then
          .error .wrongParameter
        else do
          let key ← decodeKey payload
          return .getPublicKey key
    | some .authorizeBaking => do
        let key ← decodeKey payload
        return .authorizeBaking key
    | some .resetHighWaterMark =>
        match ResetRequest.decode payload with
        | .ok (request, _) => .ok (.resetHighWaterMark request.level)
        | .error error => .error (.ofWireError error)
    | some .queryAuthKey => .ok .queryAuthKey
    | some .queryHighWaterMark => .ok .queryHighWaterMark

/-- Read a command as it arrives. -/
def ofApdu (apdu : Apdu) : Except SignerError Command :=
  if apdu.commandClass = TezosSigner.commandClass then
    decode apdu.instruction apdu.control apdu.payload
  else
    .error .invalidClass

/-- Whether a device in the given mode obeys a command at all.  Raw signing is for
wallets, the care of the baking state for baking devices. -/
def isAvailable : Command → Mode → Bool
  | .none, _ => true
  | .getPublicKey _, _ => true
  | .signFirst instruction _ _, mode => !(instruction == .signUnsafe && mode == .baking)
  | .signNext instruction _ _, mode => !(instruction == .signUnsafe && mode == .baking)
  | .authorizeBaking _, mode => mode == .baking
  | .resetHighWaterMark _, mode => mode == .baking
  | .queryAuthKey, mode => mode == .baking
  | .queryHighWaterMark, mode => mode == .baking

/-- What logs call a command; its data stays out of the log. -/
def name : Command → String
  | .none => "none"
  | .signFirst _ _ _ => "sign first"
  | .signNext _ _ _ => "sign next"
  | .getPublicKey _ => "get public key"
  | .authorizeBaking _ => "authorize baking"
  | .resetHighWaterMark _ => "reset high-water mark"
  | .queryAuthKey => "query auth key"
  | .queryHighWaterMark => "query high-water mark"

end Command

end TezosSigner
