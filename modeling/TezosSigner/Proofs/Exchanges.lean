/-
Module: TezosSigner.Proofs.Exchanges
Purpose: How far a dialog gets before a power cut, and what its exchanges leave in the record.
Main exports:
  Dialog.exists_yields_by, Dialog.begins_iff, Act.yields_bind_pure_iff,
  Act.yields_ofExcept_bind_iff, Exchange.stored?, Exchange.Unstoring, Record.after_eq
-/
import TezosSigner.Platform.Exchange

namespace TezosSigner

namespace Dialog

/-!
A dialog that is cut short was on its way to some end: whatever it had asked by then, the
replies could have gone on.  So the exchanges before a power cut are exactly the first
exchanges of complete dialogs, and what holds of the calls of every complete dialog holds
of those of a cut one.
-/

/-- Every dialog comes to an end on every platform, which may reply to each call as it likes. -/
theorem exists_yields_by (answer : (call : Call) → call.Reply) {Result : Type}
    (dialog : Dialog Result) :
    ∃ exchanges result, dialog.Yields exchanges result ∧
      ∀ exchange ∈ exchanges, exchange.reply = answer exchange.call := by
  induction dialog with
  | done result => exact ⟨[], result, .done result, by simp⟩
  | ask call next ih =>
    obtain ⟨exchanges, result, yields, replied⟩ := ih (answer call)
    exact ⟨⟨call, answer call⟩ :: exchanges, result, .ask call next _ yields,
      List.forall_mem_cons.2 ⟨rfl, replied⟩⟩

/-- A platform that refuses everything. -/
def refuseAll : (call : Call) → call.Reply
  | .sign _ _ => .error .parseError
  | .publicKey _ => .error .parseError
  | .parse _ _ _ => none
  | .store _ => .error .parseError

/-- Every dialog comes to an end on some platform. -/
theorem exists_yields {Result : Type} (dialog : Dialog Result) :
    ∃ exchanges result, dialog.Yields exchanges result := by
  obtain ⟨exchanges, result, yields, _⟩ := exists_yields_by refuseAll dialog
  exact ⟨exchanges, result, yields⟩

theorem Begins.of_yields {Result : Type} {dialog : Dialog Result} {first rest : List Exchange}
    {result : Result} (yields : dialog.Yields (first ++ rest) result) : dialog.Begins first := by
  induction first generalizing dialog with
  | nil => exact .cut dialog
  | cons exchange first ih =>
    cases yields with
    | ask call next reply more => exact .ask call next reply (ih more)

/-- What a dialog does before a power cut, it does first on the way to some end. -/
theorem begins_iff {Result : Type} {dialog : Dialog Result} {first : List Exchange} :
    dialog.Begins first ↔ ∃ rest result, dialog.Yields (first ++ rest) result := by
  constructor
  · intro begins
    induction begins with
    | cut dialog => exact exists_yields dialog
    | ask call next reply _ ih =>
      obtain ⟨rest, result, yields⟩ := ih
      exact ⟨rest, result, .ask call next reply yields⟩
  · rintro ⟨rest, result, yields⟩
    exact .of_yields yields

end Dialog

namespace Act

variable {First Second : Type}

/-- A call whose reply is the outcome is a single exchange. -/
theorem yields_reply_iff {Result : Type} {request : Call}
    {outcomeOf : request.Reply → Except SignerError Result} {exchanges : List Exchange}
    {outcome : Except SignerError Result} :
    (call request >>= fun reply => ofExcept (outcomeOf reply)).Yields exchanges outcome ↔
      ∃ reply, exchanges = [⟨request, reply⟩] ∧ outcome = outcomeOf reply := by
  constructor
  · intro h
    obtain ⟨reply, rest, rfl, more⟩ := Dialog.yields_ask_iff.1 h
    obtain ⟨rfl, rfl⟩ := Dialog.yields_done_iff.1 more
    exact ⟨reply, rfl, rfl⟩
  · rintro ⟨reply, rfl, rfl⟩
    exact .ask _ _ reply (.done _)

theorem yields_publicKey_iff {key : KeyPath} {exchanges : List Exchange}
    {outcome : Except SignerError KeyReply} :
    (publicKey key).Yields exchanges outcome ↔
      ∃ reply, exchanges = [⟨.publicKey key, reply⟩] ∧ outcome = reply :=
  yields_reply_iff

theorem yields_store_iff {record : Record} {exchanges : List Exchange}
    {outcome : Except SignerError Unit} :
    (store record).Yields exchanges outcome ↔
      ∃ reply, exchanges = [⟨.store record, reply⟩] ∧ outcome = reply :=
  yields_reply_iff

/-- An act goes on with the result of its first part. -/
theorem Yields.bind {act : Act First} {next : First → Act Second}
    {before after : List Exchange} {value : First} {outcome : Except SignerError Second}
    (first : act.Yields before (.ok value)) (more : (next value).Yields after outcome) :
    (act >>= next).Yields (before ++ after) outcome :=
  yields_bind_iff.2 (.inr ⟨before, after, value, rfl, first, more⟩)

/-- What is made of the result of an act changes nothing about its exchanges. -/
theorem yields_bind_pure_iff {act : Act First} {finish : First → Second}
    {exchanges : List Exchange} {outcome : Except SignerError Second} :
    (act >>= fun value => pure (finish value)).Yields exchanges outcome ↔
      ∃ result, act.Yields exchanges result ∧ outcome = result.map finish := by
  constructor
  · intro h
    rcases yields_bind_iff.1 h with ⟨error, rfl, first⟩ | ⟨front, back, value, rfl, first, more⟩
    · exact ⟨.error error, first, rfl⟩
    · obtain ⟨rfl, rfl⟩ := yields_pure_iff.1 more
      exact ⟨.ok value, (List.append_nil front).symm ▸ first, rfl⟩
  · rintro ⟨result, first, rfl⟩
    cases result with
    | error error => exact yields_bind_iff.2 (.inl ⟨error, rfl, first⟩)
    | ok value =>
      rw [← List.append_nil exchanges]
      exact first.bind (yields_pure_iff.2 ⟨rfl, rfl⟩)

/-- An act that starts with a call goes on with whatever the platform replies. -/
theorem yields_call_bind_iff {Result : Type} {request : Call} {next : request.Reply → Act Result}
    {exchanges : List Exchange} {outcome : Except SignerError Result} :
    (call request >>= next).Yields exchanges outcome ↔
      ∃ reply rest, exchanges = ⟨request, reply⟩ :: rest ∧ (next reply).Yields rest outcome :=
  Dialog.yields_ask_iff

/-- A call whose reply may be a refusal is refused with it, or goes on with what it holds. -/
theorem yields_reply_bind_iff {request : Call}
    {outcomeOf : request.Reply → Except SignerError First} {next : First → Act Second}
    {exchanges : List Exchange} {outcome : Except SignerError Second} :
    ((call request >>= fun reply => ofExcept (outcomeOf reply)) >>= next).Yields exchanges
        outcome ↔
      ∃ reply rest, exchanges = ⟨request, reply⟩ :: rest ∧
        (ofExcept (outcomeOf reply) >>= next).Yields rest outcome := by
  rw [bind_assoc]
  exact yields_call_bind_iff

/-- What follows a result at hand is the whole act. -/
theorem yields_ofExcept_bind_iff {result : Except SignerError First}
    {next : First → Act Second} {exchanges : List Exchange}
    {outcome : Except SignerError Second} :
    (ofExcept result >>= next).Yields exchanges outcome ↔
      (∃ error, result = .error error ∧ exchanges = [] ∧ outcome = .error error) ∨
        ∃ value, result = .ok value ∧ (next value).Yields exchanges outcome := by
  constructor
  · intro h
    rcases yields_bind_iff.1 h with ⟨error, rfl, first⟩ | ⟨before, after, value, rfl, first, more⟩
    · obtain ⟨rfl, same⟩ := yields_ofExcept_iff.1 first
      exact .inl ⟨error, same.symm, rfl, rfl⟩
    · obtain ⟨rfl, same⟩ := yields_ofExcept_iff.1 first
      exact .inr ⟨value, same.symm, more⟩
  · rintro (⟨error, rfl, rfl, rfl⟩ | ⟨value, rfl, more⟩)
    · exact yields_bind_iff.2 (.inl ⟨error, rfl, yields_ofExcept_iff.2 ⟨rfl, rfl⟩⟩)
    · exact yields_bind_iff.2
        (.inr ⟨[], exchanges, value, rfl, yields_ofExcept_iff.2 ⟨rfl, rfl⟩, more⟩)

end Act

/-- The record that an exchange has stored, if it has. -/
def Exchange.stored? : Exchange → Option Record
  | ⟨.store record, .ok _⟩ => some record
  | _ => none

/-- An exchange that is no call to store, not even one that fails. -/
def Exchange.Unstoring (exchange : Exchange) : Prop :=
  ∀ record reply, exchange ≠ ⟨.store record, reply⟩

theorem Exchange.stored?_of_unstoring {exchange : Exchange} (unstoring : exchange.Unstoring) :
    exchange.stored? = none := by
  rcases exchange with ⟨call, reply⟩
  cases call with
  | store record => exact absurd rfl (unstoring record reply)
  | _ => rfl

theorem Exchange.filterMap_stored?_of_unstoring {exchanges : List Exchange}
    (unstoring : ∀ exchange ∈ exchanges, exchange.Unstoring) :
    exchanges.filterMap Exchange.stored? = [] :=
  List.filterMap_eq_nil_iff.2 fun exchange member =>
    Exchange.stored?_of_unstoring (unstoring exchange member)

/-- After some exchanges the record is the one stored last, or the old one. -/
theorem Record.after_eq (record : Record) (exchanges : List Exchange) :
    record.after exchanges = ((exchanges.filterMap Exchange.stored?).getLast?).getD record := by
  induction exchanges generalizing record with
  | nil => rfl
  | cons exchange exchanges ih =>
    rcases exchange with ⟨call, reply⟩
    cases call with
    | sign key message => exact ih record
    | publicKey key => exact ih record
    | parse key data allowed => exact ih record
    | store next =>
      cases reply with
      | ok done =>
        have later : record.after (⟨.store next, .ok done⟩ :: exchanges) =
            Record.after next exchanges := rfl
        rw [later, ih next]
        simp [Exchange.stored?, List.getLast?_cons]
      | error error => exact ih record

/-- Where nothing was stored, the record is the old one. -/
theorem Record.after_eq_self {record : Record} {exchanges : List Exchange}
    (unstored : exchanges.filterMap Exchange.stored? = []) : record.after exchanges = record := by
  rw [Record.after_eq, unstored]
  rfl

end TezosSigner
