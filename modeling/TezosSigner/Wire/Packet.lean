/-
Module: TezosSigner.Wire.Packet
Purpose: The control byte that sequences the packets of a signing request.
Main exports: PacketKind, PacketControl, PacketControl.decode, PacketControl.encode
-/
import TezosSigner.Labelled
import TezosSigner.Wire.Error

namespace TezosSigner

/-!
A signing request is longer than one command can carry, so it is cut into packets.
Each packet has a control byte: the low seven bits say what the packet carries, the
top bit marks the last packet of the request.
-/

/-- What a packet of a signing request carries. -/
inductive PacketKind where
  /-- The signing key. -/
  | first
  /-- Bytes of the operation. -/
  | next
  /-- Bytes of the operation, of which only the hash is wanted. -/
  | hashOnlyNext
deriving Repr, Inhabited, DecidableEq

namespace PacketKind

instance : Labelled PacketKind where
  all := [.first, .next, .hashOnlyNext]
  label
    | .first => "First"
    | .next => "Next"
    | .hashOnlyNext => "HashOnlyNext"

/-- The low seven bits of the control byte. -/
def code : PacketKind → UInt8
  | .first => 0x00
  | .next => 0x01
  | .hashOnlyNext => 0x03

/-- The kind that the low seven bits stand for. -/
def ofCode? : UInt8 → Option PacketKind
  | 0x00 => some .first
  | 0x01 => some .next
  | 0x03 => some .hashOnlyNext
  | _ => none

@[simp] theorem ofCode?_code (kind : PacketKind) : ofCode? kind.code = some kind := by
  cases kind <;> rfl

theorem ofCode?_eq_some_iff {byte : UInt8} {kind : PacketKind} :
    ofCode? byte = some kind ↔ byte = kind.code := by
  constructor
  · intro h
    unfold ofCode? at h
    split at h <;> cases h <;> rfl
  · intro same
    rw [same, ofCode?_code]

end PacketKind

/-- The bit of the control byte that marks the last packet. -/
def lastMarker : UInt8 := 0x80

/-- The control byte of a packet, taken apart. -/
structure PacketControl where
  kind : PacketKind
  /-- Set on the last packet of a request. -/
  last : Bool
deriving Repr, DecidableEq

namespace PacketControl

/-- Take a control byte apart. -/
def decode (byte : UInt8) : Except WireError PacketControl :=
  match PacketKind.ofCode? (byte &&& 0x7f) with
  | some kind => .ok { kind := kind, last := byte &&& lastMarker != 0 }
  | none => .error .invalidEncoding

/-- The control byte of a packet. -/
def encode (control : PacketControl) : UInt8 :=
  if control.last then control.kind.code ||| lastMarker else control.kind.code

/-- A control byte that was put together is taken apart into the same parts. -/
theorem decode_encode (control : PacketControl) : decode control.encode = .ok control := by
  rcases control with ⟨kind, last⟩
  cases kind <;> cases last <;> rfl

/-- The two fields of a control byte make up the whole byte. -/
theorem joined_fields (byte : UInt8) :
    (if byte &&& lastMarker != 0 then byte &&& 0x7f ||| lastMarker else byte &&& 0x7f) = byte := by
  have joined : ∀ value : Fin 256,
      (if UInt8.ofNat value &&& lastMarker != 0 then UInt8.ofNat value &&& 0x7f ||| lastMarker
        else UInt8.ofNat value &&& 0x7f) = UInt8.ofNat value := by
    decide +kernel
  have value := joined ⟨byte.toNat, byte.toNat_lt⟩
  rwa [UInt8.ofNat_toNat] at value

/-- A control byte that can be taken apart is the one that its parts make up. -/
theorem decode_eq_ok_iff {byte : UInt8} {control : PacketControl} :
    decode byte = .ok control ↔ byte = control.encode := by
  constructor
  · intro h
    unfold decode at h
    split at h
    · rename_i kind known
      rw [PacketKind.ofCode?_eq_some_iff] at known
      cases h
      rw [encode, ← known]
      exact (joined_fields byte).symm
    · cases h
  · intro same
    rw [same, decode_encode]

end PacketControl

end TezosSigner
