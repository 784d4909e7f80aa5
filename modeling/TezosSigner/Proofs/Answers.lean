/-
Module: TezosSigner.Proofs.Answers
Purpose: What a device answers is what its platform replied, and it can be sent whatever that was.
Main exports:
  SignReply.Gives, Happening.Hands, Command.Gets, Signer.Steps.sized, Device.Run.hands,
  Device.Run.gives, Device.Run.answer_wellFormed
-/
import TezosSigner.Proofs.Conclusions
import TezosSigner.Proofs.Wire.Responses

namespace TezosSigner

/-!
A platform replies to a call with a buffer and with a length that it reports, and neither has to
make sense.  A device that answers has looked at the length, so a signature is neither empty nor
longer than its room, and a public key is no longer than its room.  What it passes on are the
bytes of the buffer; to the first byte of a signature it may have added the parity.

An answer that has come about like this can always be sent: there is one size of a buffer from
which on it is written, and the host reads back what was answered.
-/

/-- A signature is what a platform has replied with, for a key of this curve: as many bytes of its
buffer as it has reported, with the parity in the lowest bit of the first byte. -/
structure SignReply.Gives (reply : SignReply) (curve : Curve) (signature : Bytes) : Prop where
  reported : reply.length = signature.length
  nonempty : 1 ≤ signature.length
  fits : signature.length ≤ maxSignature
  bytes : ∃ given first rest, reply.buffer.toList.take reply.length = given :: rest ∧
    signature = first :: rest ∧
    ∀ bit, first.toNat.testBit bit =
      (given.toNat.testBit bit || (decide (bit = 0) && curve.isEcdsa && reply.parityOdd))

/-- A public key that a happening answers with is the one that the platform has told: in this
step, or in the step that asked the operator, who has now confirmed. -/
inductive Happening.Hands (mode : Mode) (history : List Happening) (publicKey : Bytes) :
    Happening → Prop where
  | exported {input : Input} {key : KeyPath} {reply : KeyReply}
      (read : input.command? = some (.getPublicKey key))
      (fetched : Signer.Fetched reply publicKey) :
      Hands mode history publicKey
        (.step input [⟨.publicKey key, .ok reply⟩] (some (.ok (.publicKey publicKey))))
  | confirmed {asking : Input} {key : KeyPath} {reply : KeyReply}
      {earlier between : List Happening} {exchanges : List Exchange}
      (asked : history =
        earlier ++ .step asking [⟨.publicKey key, .ok reply⟩] (some (.ok .pending)) :: between)
      (named : asking.command? = some (.getPublicKey key) ∨
        asking.command? = some (.authorizeBaking key))
      (fetched : Signer.Fetched reply publicKey)
      (idles : ∀ happening ∈ between, happening.Idles mode) :
      Hands mode history publicKey
        (.step .confirm exchanges (some (.ok (.publicKey publicKey))))

/-!
## Signatures

A reply that reports an impossible length has the step refused, so in a step that is answered no
reply does.
-/

/-- A reply to a call for a signature, if it is one, reports a length that its room can have. -/
def Exchange.Sized (exchange : Exchange) : Prop :=
  ∀ key message reply, exchange = ⟨.sign key message, .ok reply⟩ →
    0 < reply.length ∧ reply.length ≤ maxSignature

theorem Exchange.Unsigning.sized {exchange : Exchange} (unsigning : exchange.Unsigning) :
    exchange.Sized := by
  intro key message reply same
  exact absurd same (unsigning key message (.ok reply))

/-- The parity is one bit more. -/
theorem testBit_or_one (byte : UInt8) (bit : Nat) :
    (byte ||| 0x01).toNat.testBit bit = (byte.toNat.testBit bit || decide (bit = 0)) := by
  have one : (0x01 : UInt8).toNat.testBit bit = decide (bit = 0) := by
    rw [Bool.eq_iff_iff, decide_eq_true_iff]
    exact Nat.testBit_one_eq_true_iff_self_eq_zero
  rw [UInt8.toNat_or, Nat.testBit_or, one]

/-- A reply of a possible length gives the signature that a device makes of it. -/
theorem SignReply.gives {reply : SignReply}
    (sized : 0 < reply.length ∧ reply.length ≤ maxSignature) (curve : Curve) :
    reply.Gives curve (reply.signature curve) := by
  obtain ⟨positive, fits⟩ := sized
  have long : (reply.buffer.toList.take reply.length).length = reply.length := by
    rw [List.length_take, Vector.length_toList]
    exact Nat.min_eq_left fits
  rw [SignReply.signature]
  cases given : reply.buffer.toList.take reply.length with
  | nil =>
    rw [given] at long
    exact absurd positive (by rw [← long]; decide)
  | cons first rest =>
    rw [given] at long
    refine ⟨long.symm, by rw [foldParity]; simp, ?_, ⟨first, _, rest, given, rfl, ?_⟩⟩
    · rw [foldParity, List.length_cons, ← List.length_cons, long]
      exact fits
    · intro bit
      cases parity : curve.isEcdsa && reply.parityOdd with
      | false => simp [Bool.and_assoc, parity]
      | true =>
        rw [if_pos rfl, testBit_or_one, Bool.and_assoc, parity, Bool.and_true]

section

variable {session : Session} {mode : Mode} {state : BakingState} {signer after : Signer}
  {exchanges : List Exchange} {answer : Answer}

theorem Session.Signs.concludes (signs : session.Signs exchanges (.ok answer)) :
    answer.Concludes := by
  generalize outcomeEq : Except.ok answer = outcome at signs
  cases signs with
  | hashOnly _ _ _ =>
    cases outcomeEq
    trivial
  | signed _ _ =>
    cases outcomeEq
    trivial
  | _ => cases outcomeEq

theorem Session.Signs.sized (signs : session.Signs exchanges (.ok answer)) :
    ∀ exchange ∈ exchanges, exchange.Sized := by
  generalize outcomeEq : Except.ok answer = outcome at signs
  cases signs with
  | hashOnly _ _ _ => simp
  | signed _ fits =>
    intro exchange member key message reply same
    rw [List.mem_singleton.1 member] at same
    cases same
    unfold signatureOf at fits
    split at fits
    · assumption
    · cases fits
  | _ => cases outcomeEq

theorem Mode.complete_sized {completion : Completion}
    (completes : (mode.complete state session).Yields exchanges (.ok completion)) :
    ∀ exchange ∈ exchanges, exchange.Sized := by
  cases completion with
  | awaits pending =>
    obtain ⟨rfl, _⟩ := complete_awaits completes
    simp
  | answered answer =>
    rcases complete_stores completes with
      ⟨_, unanswered⟩ | ⟨_, _, front, _, reply, _, signs, rfl, same⟩
    · exact absurd rfl (unanswered answer)
    · cases reply with
      | error error => cases same
      | ok done =>
        refine List.forall_mem_append.2 ⟨signs.sized, ?_⟩
        exact fun exchange member => (store_unsigning _ _ exchange member).sized

/-- A data packet is taken note of, or asks the operator, or concludes a request. -/
theorem Signer.TakesPacket.answered {instruction : Instruction} {control : PacketControl}
    {data : Bytes}
    (takes : signer.TakesPacket state instruction control data exchanges (.ok (answer, after))) :
    (answer = .none ∨ answer = .pending ∨ answer.Concludes) ∧
      ∀ exchange ∈ exchanges, exchange.Sized := by
  generalize outcomeEq : Except.ok (answer, after) = outcome at takes
  cases takes with
  | refused => cases outcomeEq
  | overflowed _ _ => cases outcomeEq
  | collected _ takes _ _ =>
    cases outcomeEq
    obtain ⟨_, classifies, _⟩ := takes.understood
    exact ⟨.inl rfl, fun exchange member => (classifies.unsigning exchange member).sized⟩
  | finished continues takes last completes =>
    rename_i outcome
    cases outcome with
    | error error => cases outcomeEq
    | ok completion =>
      obtain ⟨_, classifies, _⟩ := takes.understood
      refine ⟨?_, List.forall_mem_append.2 ⟨?_, Mode.complete_sized completes⟩⟩
      · cases completion with
        | awaits pending =>
          cases outcomeEq
          exact .inr (.inl rfl)
        | answered given =>
          cases outcomeEq
          obtain ⟨_, signs⟩ := Mode.complete_answered completes
          exact .inr (.inr signs.concludes)
      · exact fun exchange member => (classifies.unsigning exchange member).sized

/-- Where a step is answered, whatever signature the platform replied with has a possible
length. -/
theorem Signer.Steps.sized {record : Record} {input : Input}
    (steps : signer.Steps record input exchanges (some (.ok answer)) after) :
    ∀ exchange ∈ exchanges, exchange.Sized := by
  generalize givenEq : some (Except.ok answer) = given at steps
  cases steps with
  | obeyed read performs =>
    generalize outcomeEq : Except.ok (_, after) = outcome at performs
    cases performs with
    | signNext takes =>
      cases outcomeEq
      exact takes.answered.2
    | refused => cases outcomeEq
    | keyRefused _ => cases outcomeEq
    | exporting _ _ =>
      exact fun exchange member => (publicKey_unsigning _ _ exchange member).sized
    | exported _ _ =>
      exact fun exchange member => (publicKey_unsigning _ _ exchange member).sized
    | authorizing _ _ =>
      exact fun exchange member => (publicKey_unsigning _ _ exchange member).sized
    | _ => simp
  | @confirmed pending _ given waits performs =>
    obtain ⟨prompt, action⟩ := pending
    generalize outcomeEq : Except.ok given = outcome at performs
    cases performs with
    | sign signs =>
      subst outcomeEq
      exact signs.sized
    | authorize _ => exact fun exchange member => (store_unsigning _ _ exchange member).sized
    | reset _ => exact fun exchange member => (store_unsigning _ _ exchange member).sized
    | _ => simp
  | rejected _ => simp
  | _ => cases givenEq

/-!
## Where an answer comes from

An answer that concludes a request has been traced back to it already.  The others that carry
anything belong to the step itself: a command gets what it asks for, or the operator has confirmed
that a public key may go out.
-/

/-- What a command that asks for something gets at once. -/
inductive Command.Gets (state : BakingState) : Command → List Exchange → Answer → Prop where
  | publicKey {key : KeyPath} {reply : KeyReply} {publicKey : Bytes}
      (fetched : Signer.Fetched reply publicKey) :
      Gets state (.getPublicKey key) [⟨.publicKey key, .ok reply⟩] (.publicKey publicKey)
  | authorizedKey : Gets state .queryAuthKey [] (.authorizedKey state.key)
  | highWaterMark : Gets state .queryHighWaterMark [] (.highWaterMark state.mark)

/-- A command is taken note of, or asks the operator, or concludes a request, or gets what it asks
for. -/
theorem Signer.Performs.answered {command : Command}
    (performs : signer.Performs state command exchanges (.ok (answer, after))) :
    answer = .none ∨ answer = .pending ∨ answer.Concludes ∨
      command.Gets state exchanges answer := by
  generalize outcomeEq : Except.ok (answer, after) = outcome at performs
  cases performs with
  | refused => cases outcomeEq
  | keyRefused _ => cases outcomeEq
  | none =>
    cases outcomeEq
    exact .inl rfl
  | signFirst _ _ _ =>
    cases outcomeEq
    exact .inl rfl
  | signNext takes =>
    cases outcomeEq
    rcases takes.answered.1 with none | pending | concludes
    · exact .inl none
    · exact .inr (.inl pending)
    · exact .inr (.inr (.inl concludes))
  | exported _ fetched =>
    cases outcomeEq
    exact .inr (.inr (.inr (.publicKey fetched)))
  | queryAuthKey _ =>
    cases outcomeEq
    exact .inr (.inr (.inr .authorizedKey))
  | queryHighWaterMark _ =>
    cases outcomeEq
    exact .inr (.inr (.inr .highWaterMark))
  | _ =>
    cases outcomeEq
    exact .inr (.inl rfl)

/-- An action that is confirmed has nothing to tell, or concludes a request, or tells a public
key. -/
theorem Action.Performs.answered {action : Action}
    (performs : Action.Performs state action exchanges (.ok answer)) :
    answer = .none ∨ answer.Concludes ∨ ∃ publicKey, answer = .publicKey publicKey := by
  generalize outcomeEq : Except.ok answer = outcome at performs
  cases performs with
  | sign signs =>
    subst outcomeEq
    exact .inr (.inl signs.concludes)
  | exportKey =>
    cases outcomeEq
    exact .inr (.inr ⟨_, rfl⟩)
  | @authorize _ _ reply _ =>
    cases reply with
    | error error => cases outcomeEq
    | ok done =>
      cases outcomeEq
      exact .inr (.inr ⟨_, rfl⟩)
  | @reset _ reply _ =>
    cases reply with
    | error error => cases outcomeEq
    | ok done =>
      cases outcomeEq
      exact .inl rfl
  | unbound _ => cases outcomeEq
  | unmoved _ => cases outcomeEq

end

namespace SigningRequest

theorem isSome_sentHash? {request : SigningRequest} :
    request.sentHash?.isSome = true ↔ request.instruction = .signWithHash := by
  rw [sentHash?]
  split <;> simp [*]

/-- The hash that goes along with a signature is what was signed. -/
theorem toSign_of_sentHash? {request : SigningRequest} {hash : Digest}
    (sent : request.sentHash? = some hash) : request.toSign = hash.toList := by
  have sends := isSome_sentHash?.1 (Option.isSome_of_eq_some sent)
  rw [sentHash?, if_pos sends] at sent
  rw [toSign, if_neg (by rw [sends]; decide), Option.some.inj sent]

end SigningRequest

/-!
## Public keys

A public key is answered in the step that has it fetched, or once the operator has confirmed what
that step has asked.
-/

/-- A question about a public key was posed by the step that has it fetched. -/
theorem Poses.fetched {mode : Mode} {earlier : List Happening} {asking : Input}
    {exchanges : List Exchange} {question : Question} {publicKey : Bytes}
    (poses : Poses mode (earlier ++ [.step asking exchanges (some (.ok .pending))]) question)
    (tells : question = .exportKey publicKey ∨ ∃ key, question = .authorize key publicKey) :
    ∃ key reply, exchanges = [⟨.publicKey key, .ok reply⟩] ∧
      (asking.command? = some (.getPublicKey key) ∨
        asking.command? = some (.authorizeBaking key)) ∧
      Signer.Fetched reply publicKey := by
  generalize historyEq :
    earlier ++ [Happening.step asking exchanges (some (.ok .pending))] = history at poses
  cases poses with
  | exportKey read fits =>
    obtain ⟨_, last⟩ := List.append_inj' historyEq rfl
    cases last
    rcases tells with same | ⟨key, same⟩
    · cases same
      exact ⟨_, _, rfl, .inl read, fits, rfl⟩
    · cases same
  | authorize baking read fits =>
    obtain ⟨_, last⟩ := List.append_inj' historyEq rfl
    cases last
    rcases tells with same | ⟨key, same⟩
    · cases same
    · cases same
      exact ⟨_, _, rfl, .inr read, fits, rfl⟩
  | reset baking read => rcases tells with same | ⟨key, same⟩ <;> cases same
  | sign read submits complete => rcases tells with same | ⟨key, same⟩ <;> cases same

/-- Only a question about a public key is settled by one. -/
theorem Question.Confirmed.of_publicKey {state : BakingState} {question : Question}
    {exchanges : List Exchange} {publicKey : Bytes}
    (confirmed : question.Confirmed state exchanges (.publicKey publicKey)) :
    question = .exportKey publicKey ∨ ∃ key, question = .authorize key publicKey := by
  cases confirmed with
  | exportKey => exact .inl rfl
  | authorize => exact .inr ⟨_, rfl⟩

theorem Happening.Hands.length_le {mode : Mode} {history : List Happening} {publicKey : Bytes}
    {happening : Happening} (hands : Happening.Hands mode history publicKey happening) :
    publicKey.length ≤ maxPublicKey := by
  have short {reply : KeyReply} (fetched : Signer.Fetched reply publicKey) :
      publicKey.length ≤ maxPublicKey := by
    obtain ⟨fits, rfl⟩ := fetched
    exact Nat.le_trans (List.length_take_le _ _) fits
  cases hands with
  | exported _ fetched => exact short fetched
  | confirmed _ _ fetched _ => exact short fetched

namespace Device

variable {config : Config} {record : Record} {device next : Device} {history : List Happening}
  {input : Input} {exchanges : List Exchange} {answer : Answer}

/-- A public key that is answered is the one that the platform has told. -/
theorem Run.hands {publicKey : Bytes} (run : Run (.boot config record) history device)
    (happens : Happens device (.step input exchanges (some (.ok (.publicKey publicKey)))) next) :
    Happening.Hands config.mode history publicKey
      (.step input exchanges (some (.ok (.publicKey publicKey)))) := by
  have steps := happens.steps.1
  generalize givenEq : some (Except.ok (Answer.publicKey publicKey)) = given at steps
  generalize next.signer = after at steps
  cases steps with
  | obeyed read performs =>
    cases givenEq
    rcases performs.answered with impossible | impossible | concludes | gets
    · cases impossible
    · cases impossible
    · exact concludes.elim
    · cases gets with
      | publicKey fetched => exact .exported read fetched
  | confirmed waits performs =>
    cases givenEq
    obtain ⟨earlier, asking, asked, command, between, split, before, read, left, idles⟩ :=
      run.waited waits
    obtain ⟨question, poses, puts⟩ := before.poses waits read left
    obtain ⟨key, reply, rfl, named, fetched⟩ :=
      poses.fetched (puts.confirmed performs).of_publicKey
    exact .confirmed split named fetched idles
  | _ => cases givenEq

/-- A signature that is answered is the reply to the one call that the step has made for it. -/
theorem Run.gives {digest : Option Digest} {signature : Bytes}
    (run : Run (.boot config record) history device)
    (happens : Happens device (.step input exchanges (some (.ok (.signature digest signature))))
      next) :
    ∃ request reply rest,
      (Happening.step input exchanges (some (.ok (.signature digest signature)))).Concludes
        config.mode history request ∧
      request.IsComplete ∧ exchanges = ⟨.sign request.key request.toSign, .ok reply⟩ :: rest ∧
      (∀ exchange ∈ rest, exchange.Unsigning) ∧ reply.Gives request.key.curve signature ∧
      digest = request.sentHash? := by
  obtain ⟨request, front, rest, concludes, complete, _, rfl, unsigning, confirmed⟩ :=
    run.concludes happens trivial
  obtain ⟨reply, rfl, rfl, sent⟩ := confirmed.of_signature
  have sized := happens.steps.1.sized _ (List.mem_append_left rest (List.mem_singleton.2 rfl))
  exact ⟨request, reply, rest, concludes, complete, rfl, unsigning,
    SignReply.gives (sized _ _ _ rfl) _, sent⟩

/-- The key that is told is the one in the record. -/
theorem Happens.authorizedKey_eq {key : Option KeyPath}
    (happens : Happens device (.step input exchanges (some (.ok (.authorizedKey key)))) next) :
    key = (BakingState.decode device.record).key := by
  have steps := happens.steps.1
  generalize givenEq : some (Except.ok (Answer.authorizedKey key)) = given at steps
  generalize next.signer = after at steps
  cases steps with
  | obeyed read performs =>
    cases givenEq
    rcases performs.answered with impossible | impossible | concludes | gets
    · cases impossible
    · cases impossible
    · exact concludes.elim
    · cases gets with
      | authorizedKey => rfl
  | confirmed waits performs =>
    cases givenEq
    rcases performs.answered with impossible | concludes | ⟨_, impossible⟩
    · cases impossible
    · exact concludes.elim
    · cases impossible
  | _ => cases givenEq

/-- Whatever the platform does, an answer is within its limits. -/
theorem Run.withinLimits (run : Run (.boot config record) history device)
    (happens : Happens device (.step input exchanges (some (.ok answer))) next) :
    answer.WithinLimits := by
  cases answer with
  | signature digest signature =>
    obtain ⟨_, _, _, _, _, _, _, gives, _⟩ := run.gives happens
    exact gives.fits
  | publicKey publicKey => exact (run.hands happens).length_le
  | authorizedKey key =>
    rw [happens.authorizedKey_eq]
    exact fun _ bound => BakingState.key_decode_path bound
  | _ => trivial

/-- Whatever the platform does, what a device answers makes sense and can be sent.  A signature is
the reply to the one call that was made for it, and goes with its hash if the host has asked for
it; a public key is the one that the platform has told; and every answer is encoded in 132 bytes
at most. -/
theorem Run.answer_wellFormed (run : Run (.boot config record) history device)
    (happens : Happens device (.step input exchanges (some (.ok answer))) next) :
    (∀ digest signature, answer = .signature digest signature →
      ∃ request reply rest,
        (Happening.step input exchanges (some (.ok answer))).Concludes config.mode history
          request ∧
        request.IsComplete ∧ exchanges = ⟨.sign request.key request.toSign, .ok reply⟩ :: rest ∧
        (∀ exchange ∈ rest, exchange.Unsigning) ∧ reply.Gives request.key.curve signature ∧
        (digest.isSome = true ↔ request.instruction = .signWithHash) ∧
        ∀ hash, digest = some hash → request.toSign = hash.toList) ∧
    (∀ publicKey, answer = .publicKey publicKey →
      publicKey.length ≤ maxPublicKey ∧
        Happening.Hands config.mode history publicKey
          (.step input exchanges (some (.ok answer)))) ∧
    ∃ size, size ≤ 132 ∧ answer.Encodes size := by
  refine ⟨?_, ?_, ?_⟩
  · rintro digest signature rfl
    obtain ⟨request, reply, rest, concludes, complete, split, unsigning, gives, rfl⟩ :=
      run.gives happens
    exact ⟨request, reply, rest, concludes, complete, split, unsigning, gives,
      SigningRequest.isSome_sentHash?, fun _ => SigningRequest.toSign_of_sentHash?⟩
  · rintro publicKey rfl
    have hands := run.hands happens
    exact ⟨hands.length_le, hands⟩
  · have limits := run.withinLimits happens
    exact ⟨_, Answer.length_layout_le limits, Answer.encodes limits⟩

/-- The signature of a transfer that the operator has confirmed is what the platform has replied,
and can be sent. -/
theorem Run.transfer_encoded :
    ∃ history device next digest signature,
      Run (.boot { mode := .wallet } newBaker.encode) history device ∧
      Happens device
        (.step .confirm [⟨.sign bakingKey (Blake2b.hash transferBytes).toList, .ok signedReply⟩]
          (some (.ok (.signature digest signature)))) next ∧
      signedReply.Gives bakingKey.curve signature ∧
      ∃ size, size ≤ 132 ∧ (Answer.signature digest signature).Encodes size := by
  obtain ⟨_, next, run, happens⟩ := Run.signs_transfer
  obtain ⟨signed, _, encodes⟩ := run.answer_wellFormed happens
  obtain ⟨request, reply, rest, _, _, split, _, gives, _⟩ := signed _ _ rfl
  obtain ⟨same, _⟩ := List.cons.inj split
  injection same with called replied
  injection called with sameKey _
  rw [← sameKey, ← Except.ok.inj replied] at gives
  exact ⟨_, _, next, _, _, run, happens, gives, encodes⟩

end Device

end TezosSigner
