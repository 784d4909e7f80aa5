/-
Module: TezosSigner.Proofs.Signing
Purpose: What signing a finished session and writing the baking state ask of the platform.
Main exports:
  SignReply.signature, Session.toSign?, Session.Signs, Session.sign_yields_iff,
  Session.signs_of_yields, BakingState.bindKey_yields, BakingState.resetTo_yields
-/
import TezosSigner.Proofs.Exchanges
import TezosSigner.Signer.Pending

namespace TezosSigner

/-- The signature that a platform has replied with. -/
def SignReply.signature (reply : SignReply) (curve : Curve) : Bytes :=
  foldParity (curve.isEcdsa && reply.parityOdd) (reply.buffer.toList.take reply.length)

namespace Session

/-- The bytes that a finished session has signed, if it is signed at all. -/
def toSign? (session : Session) : Option Bytes :=
  if session.isHashing then
    if session.hashOnly then none else session.finalHash.map (·.toList)
  else
    some session.message.pending

/-- The hash that goes along with the signature. -/
def sentHash? (session : Session) : Option Digest :=
  if session.emitsHash then session.finalHash else none

/-- The ways in which signing a session can go. -/
inductive Signs (session : Session) : List Exchange → Except SignerError Answer → Prop where
  | unfinished (hashing : session.isHashing = true) (unfinished : session.finalHash = none) :
      session.Signs [] (.error .memoryError)
  | hashOnly {hash : Digest} (hashing : session.isHashing = true)
      (finished : session.finalHash = some hash) (flag : session.hashOnly = true) :
      session.Signs [] (.ok (.hash hash))
  | failed {message : Bytes} {error : SignerError} (asked : session.toSign? = some message) :
      session.Signs [⟨.sign session.key message, .error error⟩] (.error error)
  | unfit {message : Bytes} {reply : SignReply} (asked : session.toSign? = some message)
      (unfit : session.signatureOf reply = .error .memoryError) :
      session.Signs [⟨.sign session.key message, .ok reply⟩] (.error .memoryError)
  | signed {message signature : Bytes} {reply : SignReply}
      (asked : session.toSign? = some message)
      (fits : session.signatureOf reply = .ok signature) :
      session.Signs [⟨.sign session.key message, .ok reply⟩]
        (.ok (.signature session.sentHash? signature))

/-- A signature that fits its room is taken as it was replied. -/
theorem signatureOf_of_fits {session : Session} {reply : SignReply}
    (fits : 0 < reply.length ∧ reply.length ≤ maxSignature) :
    session.signatureOf reply = .ok (reply.signature session.key.curve) :=
  if_pos fits

theorem signatureOf_error {session : Session} {reply : SignReply} {error : SignerError}
    (h : session.signatureOf reply = .error error) : error = .memoryError := by
  unfold signatureOf at h
  split at h
  · cases h
  · cases h
    rfl

/-- A session that is to be signed is signed by one call, whether its message is hashed or
not. -/
theorem sign_eq {session : Session} {message : Bytes} (asked : session.toSign? = some message) :
    session.sign = (do
      let reply ← Act.sign session.key message
      let signature ← Act.ofExcept (session.signatureOf reply)
      pure (.signature session.sentHash? signature)) := by
  cases hashing : session.isHashing with
  | true =>
    cases finished : session.finalHash with
    | none => simp [toSign?, hashing, finished] at asked
    | some hash =>
      cases flag : session.hashOnly with
      | true => simp [toSign?, hashing, flag] at asked
      | false =>
        have same : hash.toList = message := by
          simpa [toSign?, hashing, finished, flag] using asked
        simp only [sign, hashing, finished, flag, sentHash?, if_true, Bool.false_eq_true,
          if_false, same]
  | false =>
    have same : session.message.pending = message := by
      simpa [toSign?, hashing] using asked
    have sent : session.sentHash? = none := by
      simp only [isHashing, bne_eq_false_iff_eq] at hashing
      simp [sentHash?, emitsHash, hashing]
    simp only [sign, hashing, sent, Bool.false_eq_true, if_false, same]

/-- The reply of the platform settles how signing ends. -/
theorem sign_yields_iff {session : Session} {message : Bytes} {exchanges : List Exchange}
    {outcome : Except SignerError Answer} (asked : session.toSign? = some message) :
    session.sign.Yields exchanges outcome ↔
      ∃ reply, exchanges = [⟨.sign session.key message, reply⟩] ∧
        outcome = (reply.bind session.signatureOf).map (.signature session.sentHash?) := by
  rw [sign_eq asked]
  constructor
  · intro h
    obtain ⟨reply, rest, rfl, more⟩ := Act.yields_reply_bind_iff.1 h
    refine ⟨reply, ?_⟩
    rcases Act.yields_ofExcept_bind_iff.1 more with ⟨error, rfl, rfl, rfl⟩ | ⟨held, rfl, last⟩
    · exact ⟨rfl, rfl⟩
    · obtain ⟨signature, fits, rfl⟩ := Act.yields_bind_pure_iff.1 last
      obtain ⟨rfl, rfl⟩ := Act.yields_ofExcept_iff.1 fits
      exact ⟨rfl, rfl⟩
  · rintro ⟨reply, rfl, rfl⟩
    refine Act.yields_reply_bind_iff.2 ⟨reply, [], rfl, ?_⟩
    cases reply with
    | error error => exact Act.yields_ofExcept_bind_iff.2 (.inl ⟨error, rfl, rfl, rfl⟩)
    | ok held =>
      refine Act.yields_ofExcept_bind_iff.2 (.inr ⟨held, rfl, ?_⟩)
      exact Act.yields_bind_pure_iff.2 ⟨_, Act.yields_ofExcept_iff.2 ⟨rfl, rfl⟩, rfl⟩

/-- A session that is to be signed is signed, or fails for the reason that the reply gives. -/
theorem signs_of_toSign? {session : Session} {message : Bytes} {exchanges : List Exchange}
    {outcome : Except SignerError Answer} (asked : session.toSign? = some message)
    (h : session.sign.Yields exchanges outcome) : session.Signs exchanges outcome := by
  obtain ⟨reply, rfl, rfl⟩ := (sign_yields_iff asked).1 h
  cases reply with
  | error error => exact .failed asked
  | ok held =>
    cases fits : session.signatureOf held with
    | error error =>
      cases signatureOf_error fits
      simpa only [Except.bind, fits, Except.map] using Signs.unfit asked fits
    | ok signature => simpa only [Except.bind, fits, Except.map] using Signs.signed asked fits

theorem signs_of_yields {session : Session} {exchanges : List Exchange}
    {outcome : Except SignerError Answer} (h : session.sign.Yields exchanges outcome) :
    session.Signs exchanges outcome := by
  cases asked : session.toSign? with
  | some message => exact signs_of_toSign? asked h
  | none =>
    cases hashing : session.isHashing with
    | false => simp [toSign?, hashing] at asked
    | true =>
      cases finished : session.finalHash with
      | none =>
        simp only [sign, hashing, finished, if_true, Act.yields_throw_iff] at h
        obtain ⟨rfl, rfl⟩ := h
        exact .unfinished hashing finished
      | some hash =>
        have flag : session.hashOnly = true := by
          simpa [toSign?, hashing, finished] using asked
        simp only [sign, hashing, finished, flag, if_true, Act.yields_pure_iff] at h
        obtain ⟨rfl, rfl⟩ := h
        exact .hashOnly hashing finished flag

/-- A session that is to be signed is signed, if the platform replies with a signature that
fits. -/
theorem sign_yields {session : Session} {message signature : Bytes} {reply : SignReply}
    (asked : session.toSign? = some message) (fits : session.signatureOf reply = .ok signature) :
    session.sign.Yields [⟨.sign session.key message, .ok reply⟩]
      (.ok (.signature session.sentHash? signature)) := by
  refine (sign_yields_iff asked).2 ⟨.ok reply, rfl, ?_⟩
  simp only [Except.bind, fits]
  rfl

/-- Signing stores nothing. -/
theorem Signs.unstoring {session : Session} {exchanges : List Exchange}
    {outcome : Except SignerError Answer} (signs : session.Signs exchanges outcome) :
    ∀ exchange ∈ exchanges, exchange.Unstoring := by
  intro exchange member record reply same
  subst same
  cases signs with
  | unfinished _ _ => cases member
  | hashOnly _ _ _ => cases member
  | failed _ => cases List.mem_singleton.1 member
  | unfit _ _ => cases List.mem_singleton.1 member
  | signed _ _ => cases List.mem_singleton.1 member

end Session

namespace BakingState

variable {state : BakingState} {exchanges : List Exchange} {outcome : Except SignerError Unit}

/-- Binding a key stores the state with that key, unless the key has no steps. -/
theorem bindKey_yields {key : KeyPath} (h : (state.bindKey key).Yields exchanges outcome) :
    (key.path = [] ∧ exchanges = [] ∧ outcome = .error .wrongLength) ∨
      (key.path ≠ [] ∧ exchanges = [⟨.store { state with key := some key }.encode, outcome⟩]) := by
  unfold bindKey at h
  split at h
  · rename_i empty
    obtain ⟨rfl, rfl⟩ := Act.yields_throw_iff.1 h
    exact .inl ⟨List.isEmpty_iff.1 empty, rfl, rfl⟩
  · rename_i steps
    obtain ⟨reply, rfl, rfl⟩ := Act.yields_store_iff.1 h
    exact .inr ⟨fun empty => steps (List.isEmpty_iff.2 empty), rfl⟩

/-- Moving the mark stores the state with the new mark, if its level is well formed. -/
theorem resetTo_yields {level : UInt32} (h : (state.resetTo level).Yields exchanges outcome) :
    (isValidLevel level = false ∧ exchanges = [] ∧ outcome = .error .wrongParameter) ∨
      (isValidLevel level = true ∧ exchanges =
        [⟨.store { state with mark := { level := level, endorsement := false } }.encode,
          outcome⟩]) := by
  unfold resetTo at h
  split at h
  · rename_i valid
    obtain ⟨reply, rfl, rfl⟩ := Act.yields_store_iff.1 h
    exact .inr ⟨valid, rfl⟩
  · rename_i invalid
    obtain ⟨rfl, rfl⟩ := Act.yields_throw_iff.1 h
    exact .inl ⟨Bool.not_eq_true _ ▸ invalid, rfl, rfl⟩

end BakingState

end TezosSigner
