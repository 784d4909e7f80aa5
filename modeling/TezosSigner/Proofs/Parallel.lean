/-
Module: TezosSigner.Proofs.Parallel
Purpose: Two dialogs that make the same calls, and what can be said of one from the other.
Main exports:
  Dialog.Parallels, Dialog.Parallels.bind, Dialog.Parallels.yields, Dialog.Parallels.begins,
  Dialog.Parallels.playedBy, Act.Parallels, Act.Parallels.bind, Signer.Images,
  Signer.settle_images, Signer.answered_images
-/
import TezosSigner.Proofs.Play

namespace TezosSigner

/-!
Two dialogs run in parallel if they make the same call at every turn, whatever the replies have
been, and end with related results once they have had the same replies.  A platform cannot tell
them apart.  It is enough to go through the two programs side by side: a bind is in parallel
with a bind if the first parts are, and if the second parts are for related results.
-/

variable {First Second Third Fourth : Type}

namespace Dialog

/-- Two dialogs that make the same calls, and have related results after the same replies. -/
inductive Parallels (related : First → Second → Prop) : Dialog First → Dialog Second → Prop where
  | done {one : First} {two : Second} (results : related one two) :
      Parallels related (.done one) (.done two)
  | ask (call : Call) {one : call.Reply → Dialog First} {two : call.Reply → Dialog Second}
      (more : ∀ reply, Parallels related (one reply) (two reply)) :
      Parallels related (.ask call one) (.ask call two)

namespace Parallels

variable {related : First → Second → Prop} {one : Dialog First} {two : Dialog Second}

/-- A dialog runs in parallel with itself. -/
theorem refl (dialog : Dialog First) : dialog.Parallels Eq dialog := by
  induction dialog with
  | done result => exact .done rfl
  | ask call next ih => exact .ask call ih

theorem mono {weaker : First → Second → Prop} (parallel : one.Parallels related two)
    (weakens : ∀ result result', related result result' → weaker result result') :
    one.Parallels weaker two := by
  induction parallel with
  | done results => exact .done (weakens _ _ results)
  | ask call _ ih => exact .ask call ih

/-- Dialogs that go on run in parallel if they do so in both parts. -/
theorem bind {next : Third → Fourth → Prop} {goOn : First → Dialog Third}
    {goOn' : Second → Dialog Fourth} (first : one.Parallels related two)
    (more : ∀ result result', related result result' →
      (goOn result).Parallels next (goOn' result')) :
    (one.bind goOn).Parallels next (two.bind goOn') := by
  induction first with
  | done results => exact more _ _ results
  | ask call _ ih => exact .ask call ih

/-- Whatever the one can do, the other can do with the same exchanges. -/
theorem yields {exchanges : List Exchange} {result : First} (parallel : one.Parallels related two)
    (yields : one.Yields exchanges result) :
    ∃ result', two.Yields exchanges result' ∧ related result result' := by
  induction parallel generalizing exchanges with
  | done results =>
    obtain ⟨rfl, rfl⟩ := yields_done_iff.1 yields
    exact ⟨_, .done _, results⟩
  | ask call _ ih =>
    obtain ⟨reply, rest, rfl, more⟩ := yields_ask_iff.1 yields
    obtain ⟨result', yields', results⟩ := ih reply more
    exact ⟨result', .ask call _ reply yields', results⟩

/-- A power cut finds both at the same call. -/
theorem begins {exchanges : List Exchange} (parallel : one.Parallels related two)
    (begins : one.Begins exchanges) : two.Begins exchanges := by
  obtain ⟨rest, result, yields⟩ := begins_iff.1 begins
  obtain ⟨result', yields', _⟩ := parallel.yields yields
  exact begins_iff.2 ⟨rest, result', yields'⟩

/-- On one platform both make the same exchanges. -/
theorem playedBy (parallel : one.Parallels related two) (platform : Platform)
    (earlier : List Call) :
    (two.playedBy platform earlier).1 = (one.playedBy platform earlier).1 ∧
      related (one.playedBy platform earlier).2 (two.playedBy platform earlier).2 := by
  obtain ⟨yields, replies⟩ := playedBy_eq_iff.1 (rfl : one.playedBy platform earlier = _)
  obtain ⟨result', yields', results⟩ := parallel.yields yields
  rw [playedBy_eq_iff.2 ⟨yields', replies⟩]
  exact ⟨rfl, results⟩

end Parallels

end Dialog

/-- Outcomes that are both refused for the same reason, or both succeed with related
results. -/
inductive OutcomesRelated (related : First → Second → Prop) :
    Except SignerError First → Except SignerError Second → Prop where
  | refused (error : SignerError) : OutcomesRelated related (.error error) (.error error)
  | succeeded {one : First} {two : Second} (results : related one two) :
      OutcomesRelated related (.ok one) (.ok two)

theorem OutcomesRelated.eq {one two : Except SignerError First}
    (outcomes : OutcomesRelated Eq one two) : two = one := by
  cases outcomes with
  | refused error => rfl
  | succeeded same => rw [same]

namespace Act

/-- Two acts that make the same calls, and have related outcomes after the same replies. -/
def Parallels (related : First → Second → Prop) (one : Act First) (two : Act Second) : Prop :=
  one.run.Parallels (OutcomesRelated related) two.run

namespace Parallels

variable {related : First → Second → Prop} {one : Act First} {two : Act Second}

theorem pure {result : First} {result' : Second} (results : related result result') :
    Act.Parallels related (Pure.pure result) (Pure.pure result') :=
  .done (.succeeded results)

theorem throw (related : First → Second → Prop) (error : SignerError) :
    Act.Parallels related (MonadExcept.throw error) (MonadExcept.throw error) :=
  .done (.refused error)

theorem ofExcept {result : Except SignerError First} {result' : Except SignerError Second}
    (results : OutcomesRelated related result result') :
    Act.Parallels related (Act.ofExcept result) (Act.ofExcept result') :=
  .done results

/-- An act runs in parallel with itself. -/
theorem refl (act : Act First) : act.Parallels Eq act := by
  refine (Dialog.Parallels.refl act.run).mono ?_
  rintro outcome _ rfl
  cases outcome with
  | ok value => exact .succeeded rfl
  | error error => exact .refused error

/-- Acts that go on run in parallel if they do so in both parts. -/
theorem bind {next : Third → Fourth → Prop} {goOn : First → Act Third}
    {goOn' : Second → Act Fourth} (first : one.Parallels related two)
    (more : ∀ result result', related result result' →
      (goOn result).Parallels next (goOn' result')) :
    (one >>= goOn).Parallels next (two >>= goOn') := by
  refine Dialog.Parallels.bind first ?_
  intro outcome outcome' outcomes
  cases outcomes with
  | refused error => exact .done (.refused error)
  | succeeded results => exact more _ _ results

/-- Acts with a common first part run in parallel if they do so after it. -/
theorem bind_same {act : Act First} {next : Third → Fourth → Prop} {goOn : First → Act Third}
    {goOn' : First → Act Fourth} (more : ∀ result, (goOn result).Parallels next (goOn' result)) :
    (act >>= goOn).Parallels next (act >>= goOn') := by
  refine (refl act).bind ?_
  rintro result _ rfl
  exact more result

end Parallels

end Act

namespace Signer

/-- A result with the signer that it leaves, beside a related result with the image of that
signer. -/
def Images (image : Signer → Signer) (results : First → Second → Prop) (one : First × Signer)
    (two : Second × Signer) : Prop :=
  results one.1 two.1 ∧ two.2 = image one.2

variable {image : Signer → Signer}

/-- Where two acts run in parallel and the image of an aborted signer is aborted, the steps are
settled in parallel. -/
theorem settle_images {answers : Answer → Answer → Prop} {signer : Signer}
    {act act' : Act (Answer × Signer)} (aborts : (image signer).abort = image signer.abort)
    (parallel : act.Parallels (Images image answers) act') :
    (signer.settle act).Parallels (Images image (OutcomesRelated answers))
      ((image signer).settle act') := by
  refine Dialog.Parallels.bind parallel ?_
  intro outcome outcome' outcomes
  cases outcomes with
  | refused error => exact .done ⟨.refused error, aborts⟩
  | @succeeded one two results =>
    obtain ⟨same, next⟩ := results
    exact .done ⟨.succeeded same, next⟩

/-- What a step answers is told beside the signer that it leaves. -/
theorem answered_images {results : Except SignerError Answer → Except SignerError Answer → Prop}
    {act act' : Dialog (Except SignerError Answer × Signer)}
    (parallel : act.Parallels (Images image results) act') :
    (do let (answer, next) ← act; pure (some answer, next) :
      Dialog (Option (Except SignerError Answer) × Signer)).Parallels
      (Images image (Option.Rel results))
      (do let (answer, next) ← act'; pure (some answer, next)) := by
  refine Dialog.Parallels.bind parallel ?_
  rintro ⟨answer, next⟩ ⟨answer', _⟩ ⟨same, rfl⟩
  exact .done ⟨.some same, rfl⟩

end Signer

end TezosSigner
