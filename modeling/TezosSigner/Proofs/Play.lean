/-
Module: TezosSigner.Proofs.Play
Purpose: What devices do on a platform that is fixed, so that they can be compared.
Main exports:
  Platform, Platform.Replies, Dialog.playedBy, Dialog.playedBy_eq_iff, Device.play,
  Device.exists_play_cons, Device.run_of_play, Telling, Device.told
-/
import TezosSigner.Proofs.History

namespace TezosSigner

/-!
A run leaves it open what the platform replies.  Two devices that are to be compared have to
meet the same platform, and then it must not be open: a `Platform` replies to each call by a
function of that call and of those before it.  What a device does on it is not a matter of
which runs exist, but is computed from its inputs.
-/

/-- A platform whose reply to a call depends on nothing but the calls made on it: the earlier
ones and this one. -/
abbrev Platform := List Call → (call : Call) → call.Reply

/-- Exchanges in which every reply is that of the platform. -/
def Platform.Replies (platform : Platform) (earlier : List Call) : List Exchange → Prop
  | [] => True
  | ⟨call, reply⟩ :: rest =>
      reply = platform earlier call ∧ platform.Replies (earlier ++ [call]) rest

namespace Dialog

variable {Result : Type}

/-- The exchanges of a dialog with a platform, and what it comes to. -/
def playedBy (platform : Platform) (earlier : List Call) :
    Dialog Result → List Exchange × Result
  | .done result => ([], result)
  | .ask call next =>
      let reply := platform earlier call
      let (exchanges, result) := (next reply).playedBy platform (earlier ++ [call])
      (⟨call, reply⟩ :: exchanges, result)

/-- Of all that a dialog can do, it does on a platform what goes with the replies. -/
theorem playedBy_eq_iff {platform : Platform} {earlier : List Call} {dialog : Dialog Result}
    {exchanges : List Exchange} {result : Result} :
    dialog.playedBy platform earlier = (exchanges, result) ↔
      dialog.Yields exchanges result ∧ platform.Replies earlier exchanges := by
  induction dialog generalizing earlier exchanges with
  | done outcome =>
    rw [yields_done_iff, playedBy, Prod.mk.injEq]
    constructor
    · rintro ⟨rfl, rfl⟩
      exact ⟨⟨rfl, rfl⟩, trivial⟩
    · rintro ⟨⟨rfl, rfl⟩, _⟩
      exact ⟨rfl, rfl⟩
  | ask call next ih =>
    rw [yields_ask_iff, playedBy, Prod.mk.injEq]
    constructor
    · rintro ⟨rfl, same⟩
      obtain ⟨yields, replies⟩ := (ih (platform earlier call)).1 (Prod.ext rfl same)
      exact ⟨⟨_, _, rfl, yields⟩, rfl, replies⟩
    · rintro ⟨⟨reply, rest, rfl, yields⟩, rfl, replies⟩
      have more := (ih (platform earlier call)).2 ⟨yields, replies⟩
      rw [more]
      exact ⟨rfl, rfl⟩

theorem yields_playedBy (platform : Platform) (earlier : List Call) (dialog : Dialog Result) :
    dialog.Yields (dialog.playedBy platform earlier).1 (dialog.playedBy platform earlier).2 :=
  (playedBy_eq_iff.1 rfl).1

end Dialog

/-- The answer to the input, if there was any. -/
def Happening.answer : Happening → Option (Except SignerError Answer)
  | .step _ _ given => given
  | .powerCut _ _ => none

/-- What the host and the operator are told when an input was taken: the answer, and the status
that the device reports then. -/
abbrev Telling := Option (Except SignerError Answer) × Status

namespace Device

/-- What happens to a device that takes some inputs on a platform, and the device that each
happening leaves. -/
def play (platform : Platform) (earlier : List Call) (device : Device) :
    List Input → List (Happening × Device)
  | [] => []
  | input :: inputs =>
      let (exchanges, answer, next) :=
        (device.signer.step device.record input).playedBy platform earlier
      let after : Device := { signer := next, record := device.record.after exchanges }
      (.step input exchanges answer, after) ::
        after.play platform (earlier ++ exchanges.map (·.call)) inputs

variable {platform : Platform} {earlier : List Call} {device : Device}

/-- The first input is taken in some way that is open to the device, and the others by the
device that it leaves. -/
theorem exists_play_cons (platform : Platform) (earlier : List Call) (device : Device)
    (input : Input) (inputs : List Input) :
    ∃ exchanges answer next, Happens device (.step input exchanges answer) next ∧
      device.play platform earlier (input :: inputs) = (.step input exchanges answer, next) ::
        next.play platform (earlier ++ exchanges.map (·.call)) inputs :=
  ⟨_, _, _, .step (Dialog.yields_playedBy platform earlier _), rfl⟩

/-- A play is a run: each device in it is where the happenings up to it have led. -/
theorem run_of_play {inputs : List Input} {front back : List (Happening × Device)}
    {happening : Happening} {next : Device}
    (played : device.play platform earlier inputs = front ++ (happening, next) :: back) :
    Run device (front.map Prod.fst ++ [happening]) next := by
  induction inputs generalizing device earlier front with
  | nil => simp [play] at played
  | cons input inputs ih =>
    obtain ⟨exchanges, answer, after, happens, unfolded⟩ :=
      exists_play_cons platform earlier device input inputs
    rw [unfolded] at played
    cases front with
    | nil =>
      rw [List.nil_append, List.cons.injEq, Prod.mk.injEq] at played
      obtain ⟨⟨rfl, rfl⟩, _⟩ := played
      exact .single happens
    | cons first front =>
      rw [List.cons_append, List.cons.injEq] at played
      obtain ⟨rfl, rest⟩ := played
      exact .cons happens (ih rest)

/-- What is told of a device that takes some inputs on a platform. -/
def told (platform : Platform) (earlier : List Call) (device : Device) (inputs : List Input) :
    List Telling :=
  (device.play platform earlier inputs).map fun (happening, next) =>
    (happening.answer, next.signer.status)

theorem exists_told_cons (platform : Platform) (earlier : List Call) (device : Device)
    (input : Input) (inputs : List Input) :
    ∃ exchanges answer next, Happens device (.step input exchanges answer) next ∧
      device.told platform earlier (input :: inputs) = (answer, next.signer.status) ::
        next.told platform (earlier ++ exchanges.map (·.call)) inputs := by
  obtain ⟨exchanges, answer, next, happens, played⟩ :=
    exists_play_cons platform earlier device input inputs
  exact ⟨exchanges, answer, next, happens, by rw [told, played]; rfl⟩

end Device

end TezosSigner
