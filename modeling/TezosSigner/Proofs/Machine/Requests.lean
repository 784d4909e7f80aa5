/-
Module: TezosSigner.Proofs.Machine.Requests
Purpose: Writing requests and reading commands on a machine.
Main exports:
  ResetRequest.writeOn, ResetRequest.decodeOn, Request.writeDataOn, Command.decodeOn,
  Command.ofApduOn, and for each of them that it is free of faults
-/
import TezosSigner.Command
import TezosSigner.Proofs.Machine.Keys

namespace TezosSigner

namespace ResetRequest

/-- Write a level to the front of a buffer. -/
def writeOn (request : ResetRequest) (buffer : Bytes) : Checked (Except WireError Written) :=
  if buffer.length < 4 then
    .ok (.error .invalidLength)
  else do
    let buffer ← Slice.putWord request.level buffer
    .ok (.ok { length := 4, buffer := buffer })

/-- Read a level, which has to be the whole payload. -/
def decodeOn (bytes : Bytes) : Checked (Except WireError (ResetRequest × Nat)) :=
  if bytes.length ≠ 4 then
    .ok (.error .invalidLength)
  else do
    let level ← Slice.word bytes
    .ok (.ok ({ level := level }, 4))

/-- A level is written in bounds, and as its layout says. -/
theorem writeOn_eq (request : ResetRequest) (buffer : Bytes) :
    request.writeOn buffer = .ok (WireFormat.write request buffer) := by
  rw [writeOn]
  split
  · rename_i short
    exact congrArg Except.ok (if_pos short).symm
  · rename_i room
    rw [Slice.putWord_eq (by omega), Checked.ok_bind]
    exact congrArg Except.ok (if_neg room).symm

/-- A level is read in bounds, and as its decoder says. -/
theorem decodeOn_eq (bytes : Bytes) : decodeOn bytes = .ok (decode bytes) := by
  match bytes with
  | [] | [_] | [_, _] | [_, _, _] | [_, _, _, _] => rfl
  | _ :: _ :: _ :: _ :: _ :: _ =>
    rw [decodeOn, if_pos (by simp)]
    rfl

end ResetRequest

/-- Write the data of a signing packet to the front of a buffer. -/
def Request.writeDataOn (data buffer : Bytes) : Checked (Except WireError Written) :=
  if buffer.length < data.length then
    .ok (.error .invalidLength)
  else do
    let buffer ← Slice.onFront data.length (Slice.copyFrom data) buffer
    .ok (.ok { length := data.length, buffer := buffer })

/-- The data of a packet is written in bounds, and as it is. -/
theorem Request.writeDataOn_eq (data buffer : Bytes) :
    writeDataOn data buffer = .ok (writeInto buffer data) := by
  rw [writeDataOn, writeInto]
  split
  · rfl
  · rename_i room
    rw [Slice.copyFront_eq rfl (Nat.not_lt.1 room), Checked.ok_bind]

namespace Command

section Definitions

variable (machine : Machine)

/-- Read the key in a payload. -/
def decodeKeyOn (payload : Bytes) : Checked (Except SignerError KeyPath) := do
  match ← KeyPath.decodeOn machine payload with
  | .ok (key, _) => .ok (.ok key)
  | .error .invalidEncoding => .ok (.error .unsupportedCurve)
  | .error error => .ok (.error (.ofWireError error))

/-- Read a command that consists of a key. -/
def readKeyOn (command : KeyPath → Command) (payload : Bytes) :
    Checked (Except SignerError Command) := do
  let named ← decodeKeyOn machine payload
  .ok (do
    let key ← named
    return command key)

/-- Read a packet of a signing request. -/
def decodePacketOn (instruction : Instruction) (control : UInt8) (payload : Bytes) :
    Checked (Except SignerError Command) :=
  match PacketControl.decode control with
  | .error _ => .ok (.error .wrongParameter)
  | .ok control =>
      match control.kind with
      | .first => readKeyOn machine (.signFirst instruction · control) payload
      | .next => .ok (.ok (.signNext instruction control payload))
      | .hashOnlyNext => .ok (.ok (.signNext instruction control payload))

/-- Read a command from its instruction, control byte and payload. -/
def decodeOn (instruction control : UInt8) (payload : Bytes) :
    Checked (Except SignerError Command) :=
  if maxPayload < payload.length then
    .ok (.error .wrongLength)
  else
    match Instruction.ofCode? instruction with
    | .none => .ok (.error .invalidInstruction)
    | some .sign => decodePacketOn machine .sign control payload
    | some .signWithHash => decodePacketOn machine .signWithHash control payload
    | some .signUnsafe => decodePacketOn machine .signUnsafe control payload
    | some .getPublicKey =>
        if control ≠ 0 then
          .ok (.error .wrongParameter)
        else
          readKeyOn machine .getPublicKey payload
    | some .authorizeBaking => readKeyOn machine .authorizeBaking payload
    | some .resetHighWaterMark => do
        match ← ResetRequest.decodeOn payload with
        | .ok (request, _) => .ok (.ok (.resetHighWaterMark request.level))
        | .error error => .ok (.error (.ofWireError error))
    | some .queryAuthKey => .ok (.ok .queryAuthKey)
    | some .queryHighWaterMark => .ok (.ok .queryHighWaterMark)

/-- Read a command as it arrives. -/
def ofApduOn (apdu : Apdu) : Checked (Except SignerError Command) :=
  if apdu.commandClass = TezosSigner.commandClass then
    decodeOn machine apdu.instruction apdu.control apdu.payload
  else
    .ok (.error .invalidClass)

end Definitions

variable {machine : Machine}

theorem decodeKeyOn_eq (payload : Bytes) :
    decodeKeyOn machine payload = .ok (decodeKey payload) := by
  rw [decodeKeyOn, KeyPath.decodeOn_eq, Checked.ok_bind, decodeKey]
  cases KeyPath.decode payload with
  | error error => cases error <;> rfl
  | ok read => rfl

theorem readKeyOn_eq (command : KeyPath → Command) (payload : Bytes) :
    readKeyOn machine command payload =
      .ok (do
        let key ← decodeKey payload
        return command key) := by
  rw [readKeyOn, decodeKeyOn_eq, Checked.ok_bind]

theorem decodePacketOn_eq (instruction : Instruction) (control : UInt8) (payload : Bytes) :
    decodePacketOn machine instruction control payload =
      .ok (decodePacket instruction control payload) := by
  rw [decodePacketOn, decodePacket]
  cases PacketControl.decode control with
  | error error => rfl
  | ok control =>
    dsimp only
    cases control.kind with
    | first => exact readKeyOn_eq _ payload
    | next => rfl
    | hashOnlyNext => rfl

/-- A command is read in bounds, and as its decoder says. -/
theorem decodeOn_eq (instruction control : UInt8) (payload : Bytes) :
    decodeOn machine instruction control payload =
      .ok (decode instruction control payload) := by
  rw [decodeOn, decode]
  split
  · rfl
  cases Instruction.ofCode? instruction with
  | none => rfl
  | some instruction =>
    cases instruction with
    | sign => exact decodePacketOn_eq _ control payload
    | signWithHash => exact decodePacketOn_eq _ control payload
    | signUnsafe => exact decodePacketOn_eq _ control payload
    | getPublicKey =>
      dsimp only
      split
      · rfl
      · exact readKeyOn_eq _ payload
    | authorizeBaking => exact readKeyOn_eq _ payload
    | resetHighWaterMark =>
      dsimp only
      rw [ResetRequest.decodeOn_eq, Checked.ok_bind]
      cases ResetRequest.decode payload <;> rfl
    | queryAuthKey => rfl
    | queryHighWaterMark => rfl

/-- A command that arrives is read in bounds, and as its decoder says. -/
theorem ofApduOn_eq (apdu : Apdu) : ofApduOn machine apdu = .ok (ofApdu apdu) := by
  rw [ofApduOn, ofApdu]
  split
  · exact decodeOn_eq _ _ _
  · rfl

end Command

end TezosSigner
