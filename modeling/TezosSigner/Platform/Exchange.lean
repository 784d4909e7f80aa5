/-
Module: TezosSigner.Platform.Exchange
Purpose: The exchanges of a dialog with any platform, and what they do to the record.
Main exports:
  Exchange, Dialog.Yields, Dialog.Begins, Dialog.yields_bind_iff, Act.Yields,
  Act.yields_bind_iff, Record.after
-/
import TezosSigner.Platform.Dialog

namespace TezosSigner

/-!
A platform is not trusted to be consistent: it may reply to each call as it likes.
What a dialog can do is therefore described by its exchanges, each a call and some
reply.  `Yields` says that a dialog makes certain exchanges and comes to a result;
`Begins` says that it makes certain exchanges first, and is how a power cut sees it.

Only one kind of exchange has a lasting effect: a store that succeeded replaces the
record.  A store that failed leaves it as it was.
-/

/-- A call and the reply to it. -/
structure Exchange where
  call : Call
  reply : call.Reply

namespace Dialog

/-- A dialog that makes these exchanges and comes to this result. -/
inductive Yields {Result : Type} : Dialog Result → List Exchange → Result → Prop where
  | done (result : Result) : Yields (.done result) [] result
  | ask (call : Call) (next : call.Reply → Dialog Result) (reply : call.Reply)
      {rest : List Exchange} {result : Result} (more : Yields (next reply) rest result) :
      Yields (.ask call next) (⟨call, reply⟩ :: rest) result

/-- A dialog that makes these exchanges first. -/
inductive Begins {Result : Type} : Dialog Result → List Exchange → Prop where
  | cut (dialog : Dialog Result) : Begins dialog []
  | ask (call : Call) (next : call.Reply → Dialog Result) (reply : call.Reply)
      {rest : List Exchange} (more : Begins (next reply) rest) :
      Begins (.ask call next) (⟨call, reply⟩ :: rest)

/-- A dialog that is done makes no exchange. -/
@[simp] theorem yields_done_iff {Result : Type} {result outcome : Result}
    {exchanges : List Exchange} :
    (Dialog.done result).Yields exchanges outcome ↔ exchanges = [] ∧ outcome = result := by
  constructor
  · intro h
    cases h
    exact ⟨rfl, rfl⟩
  · rintro ⟨rfl, rfl⟩
    exact .done _

/-- A dialog that asks makes the exchange of its call first. -/
theorem yields_ask_iff {Result : Type} {call : Call} {next : call.Reply → Dialog Result}
    {exchanges : List Exchange} {result : Result} :
    (Dialog.ask call next).Yields exchanges result ↔
      ∃ reply rest, exchanges = ⟨call, reply⟩ :: rest ∧ (next reply).Yields rest result := by
  constructor
  · intro h
    cases h with
    | ask _ _ reply more => exact ⟨reply, _, rfl, more⟩
  · rintro ⟨reply, rest, rfl, more⟩
    exact .ask call next reply more

/-- A dialog that goes on makes the exchanges of both parts, one after the other. -/
theorem yields_bind_iff {First Second : Type} {dialog : Dialog First}
    {next : First → Dialog Second} {exchanges : List Exchange} {result : Second} :
    (dialog.bind next).Yields exchanges result ↔
      ∃ before after middle, exchanges = before ++ after ∧
        dialog.Yields before middle ∧ (next middle).Yields after result := by
  induction dialog generalizing exchanges with
  | done first =>
    constructor
    · intro h
      exact ⟨[], exchanges, first, rfl, .done first, h⟩
    · rintro ⟨before, after, middle, rfl, h, more⟩
      obtain ⟨rfl, rfl⟩ := yields_done_iff.1 h
      exact more
  | ask call continue' ih =>
    constructor
    · intro h
      obtain ⟨reply, rest, rfl, more⟩ := yields_ask_iff.1 h
      obtain ⟨before, after, middle, rfl, first, second⟩ := (ih reply).1 more
      exact ⟨⟨call, reply⟩ :: before, after, middle, rfl, .ask _ _ _ first, second⟩
    · rintro ⟨before, after, middle, rfl, h, more⟩
      obtain ⟨reply, rest, rfl, first⟩ := yields_ask_iff.1 h
      exact .ask _ _ _ ((ih reply).2 ⟨rest, after, middle, rfl, first, more⟩)

end Dialog

namespace Act

/-- An act that makes these exchanges and ends in this outcome. -/
def Yields {Result : Type} (act : Act Result) (exchanges : List Exchange)
    (outcome : Except SignerError Result) : Prop :=
  Dialog.Yields act.run exchanges outcome

@[simp] theorem yields_pure_iff {Result : Type} {result : Result} {exchanges : List Exchange}
    {outcome : Except SignerError Result} :
    (pure result : Act Result).Yields exchanges outcome ↔
      exchanges = [] ∧ outcome = .ok result :=
  Dialog.yields_done_iff

@[simp] theorem yields_throw_iff {Result : Type} {error : SignerError}
    {exchanges : List Exchange} {outcome : Except SignerError Result} :
    (throw error : Act Result).Yields exchanges outcome ↔
      exchanges = [] ∧ outcome = .error error :=
  Dialog.yields_done_iff

@[simp] theorem yields_ofExcept_iff {Result : Type} {result : Except SignerError Result}
    {exchanges : List Exchange} {outcome : Except SignerError Result} :
    (ofExcept result).Yields exchanges outcome ↔ exchanges = [] ∧ outcome = result :=
  Dialog.yields_done_iff

/-- A single call is a single exchange, and its reply is the outcome. -/
theorem yields_call_iff {request : Call} {exchanges : List Exchange}
    {outcome : Except SignerError request.Reply} :
    (call request).Yields exchanges outcome ↔
      ∃ reply, exchanges = [⟨request, reply⟩] ∧ outcome = .ok reply := by
  constructor
  · intro h
    obtain ⟨reply, rest, rfl, more⟩ := Dialog.yields_ask_iff.1 h
    obtain ⟨rfl, rfl⟩ := Dialog.yields_done_iff.1 more
    exact ⟨reply, rfl, rfl⟩
  · rintro ⟨reply, rfl, rfl⟩
    exact .ask _ _ reply (.done _)

/-- An act that goes on either refuses in its first part, and makes only the exchanges
of that, or makes the exchanges of both parts. -/
theorem yields_bind_iff {First Second : Type} {act : Act First} {next : First → Act Second}
    {exchanges : List Exchange} {outcome : Except SignerError Second} :
    (act >>= next).Yields exchanges outcome ↔
      (∃ error, outcome = .error error ∧ act.Yields exchanges (.error error)) ∨
        ∃ before after value, exchanges = before ++ after ∧
          act.Yields before (.ok value) ∧ (next value).Yields after outcome := by
  have split : (act >>= next).Yields exchanges outcome ↔
      ∃ before after middle, exchanges = before ++ after ∧
        act.Yields before middle ∧
          Dialog.Yields (ExceptT.bindCont next middle) after outcome :=
    Dialog.yields_bind_iff
  rw [split]
  constructor
  · rintro ⟨before, after, middle, rfl, first, second⟩
    cases middle with
    | ok value => exact .inr ⟨before, after, value, rfl, first, second⟩
    | error error =>
      obtain ⟨rfl, rfl⟩ := Dialog.yields_done_iff.1 second
      exact .inl ⟨error, rfl, (List.append_nil before).symm ▸ first⟩
  · rintro (⟨error, rfl, first⟩ | ⟨before, after, value, rfl, first, second⟩)
    · exact ⟨exchanges, [], .error error, (List.append_nil exchanges).symm, first, .done _⟩
    · exact ⟨before, after, .ok value, rfl, first, second⟩

end Act

/-- The record after some exchanges: the one last stored, or the old one where no
store succeeded. -/
def Record.after (record : Record) : List Exchange → Record
  | [] => record
  | ⟨.store next, .ok _⟩ :: rest => Record.after next rest
  | _ :: rest => Record.after record rest

end TezosSigner
