/-
Module: TezosSigner.Device
Purpose: A device under way: its signer, its record, and everything that can happen to it.
Main exports: Device, Device.boot, Happening, Device.Happens, Device.Run
-/
import TezosSigner.Platform.Exchange
import TezosSigner.Signer.Step

namespace TezosSigner

/-!
A device is a signer over a persisted record.  Two things happen to it.  It takes an
input, makes some exchanges with its platform and answers; or it takes an input and
loses power after some of those exchanges, so that it boots anew over whatever record
was stored by then.  A run is a sequence of such happenings, and it is a run on some
platform: any reply that a platform could give is allowed at each exchange.
-/

/-- A signer over a persisted record. -/
structure Device where
  signer : Signer
  record : Record
deriving Repr, DecidableEq

/-- A device as it starts over a record. -/
def Device.boot (config : Config) (record : Record) : Device :=
  { signer := Signer.boot config, record := record }

/-- Something that happens to a device. -/
inductive Happening where
  /-- An input is taken, with these exchanges and this answer. -/
  | step (input : Input) (exchanges : List Exchange)
      (answer : Option (Except SignerError Answer))
  /-- An input is taken, and power is lost after these exchanges. -/
  | powerCut (input : Input) (exchanges : List Exchange)

namespace Device

/-- What a happening makes of a device. -/
inductive Happens : Device → Happening → Device → Prop where
  | step {signer next : Signer} {record : Record} {input : Input}
      {exchanges : List Exchange} {answer : Option (Except SignerError Answer)}
      (yields : (signer.step record input).Yields exchanges (answer, next)) :
      Happens ⟨signer, record⟩ (.step input exchanges answer) ⟨next, record.after exchanges⟩
  | powerCut {signer : Signer} {record : Record} {input : Input}
      {exchanges : List Exchange} (begins : (signer.step record input).Begins exchanges) :
      Happens ⟨signer, record⟩ (.powerCut input exchanges)
        ⟨Signer.boot signer.config, record.after exchanges⟩

/-- A sequence of happenings that leads from one device to another. -/
inductive Run : Device → List Happening → Device → Prop where
  | nil (device : Device) : Run device [] device
  | cons {first second third : Device} {happening : Happening} {rest : List Happening}
      (head : Happens first happening second) (tail : Run second rest third) :
      Run first (happening :: rest) third

/-- A run can be cut anywhere. -/
theorem run_append_iff {first last : Device} {front back : List Happening} :
    Run first (front ++ back) last ↔
      ∃ middle, Run first front middle ∧ Run middle back last := by
  induction front generalizing first with
  | nil =>
    constructor
    · intro h
      exact ⟨first, .nil first, h⟩
    · rintro ⟨middle, h, more⟩
      cases h
      exact more
  | cons happening front ih =>
    constructor
    · intro h
      cases h with
      | cons head tail =>
        obtain ⟨middle, one, two⟩ := ih.1 tail
        exact ⟨middle, .cons head one, two⟩
    · rintro ⟨middle, h, more⟩
      cases h with
      | cons head tail => exact .cons head (ih.2 ⟨middle, tail, more⟩)

end Device

end TezosSigner
