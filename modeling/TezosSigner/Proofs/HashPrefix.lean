/-
Module: TezosSigner.Proofs.HashPrefix
Purpose: The two instructions that sign a hash differ in nothing but the hash that is sent along.
Main exports:
  Happening.Echoes, Submits.counterpart, Happening.Matches, HistoriesMatch, Device.ShowsAlike,
  Device.Run.echo, Device.Run.matches, Device.alike_but_hash
-/
import Mathlib.Data.List.Forall2
import TezosSigner.Proofs.Conclusions
import TezosSigner.Proofs.Counterparts

namespace TezosSigner

/-!
Two devices that boot over one record, and whose inputs are counterparts, have histories that
echo each other.  In either of them a signature can be traced to its request, and the requests
are counterparts too; so it is known on which side the hash is, and which hash it is.
-/

/-- A happening by the counterpart of an input, with the same exchanges and, up to the hash
beside a signature, the same answer. -/
inductive Happening.Echoes : Happening → Happening → Prop where
  | step {input : Input} {exchanges : List Exchange}
      {answer answer' : Option (Except SignerError Answer)}
      (answers : Option.Rel (OutcomesRelated Answer.SameButHash) answer answer') :
      Echoes (.step input exchanges answer) (.step input.counterpart exchanges answer')
  | powerCut {input : Input} {exchanges : List Exchange} :
      Echoes (.powerCut input exchanges) (.powerCut input.counterpart exchanges)

namespace Happening.Echoes

variable {happening echo : Happening}

theorem input (echoes : happening.Echoes echo) : echo.input = happening.input.counterpart := by
  cases echoes <;> rfl

theorem exchanges (echoes : happening.Echoes echo) : echo.exchanges = happening.exchanges := by
  cases echoes <;> rfl

/-- Either both commands are accepted or neither. -/
theorem accepted? (echoes : happening.Echoes echo) :
    echo.accepted? = happening.accepted?.map Command.counterpart := by
  cases echoes with
  | step answers =>
    cases answers with
    | none => rfl
    | some outcomes =>
      cases outcomes with
      | refused error => rfl
      | succeeded same => exact Input.command?_counterpart _
  | powerCut => rfl

end Happening.Echoes

/-- The echo of a history that is cut is cut at the same place. -/
private theorem exists_echoes_append {front back echoed : List Happening}
    (echoes : List.Forall₂ Happening.Echoes (front ++ back) echoed) :
    ∃ front' back', echoed = front' ++ back' ∧ List.Forall₂ Happening.Echoes front front' ∧
      List.Forall₂ Happening.Echoes back back' := by
  refine ⟨_, _, (List.take_append_drop front.length echoed).symm, ?_, ?_⟩
  · simpa using List.forall₂_take front.length echoes
  · simpa using List.forall₂_drop front.length echoes

theorem Mode.idle_counterpart {mode : Mode} {command : Command} :
    mode.Idle command.counterpart ↔ mode.Idle command := by
  cases mode <;> cases command <;> exact Iff.rfl

/-- A signing request with the other instruction. -/
def SigningRequest.counterpart (request : SigningRequest) : SigningRequest :=
  { request with instruction := request.instruction.counterpart }

/-- Of a request and its counterpart, the one that sends the hash along is told by the
instruction. -/
theorem SigningRequest.sentHash?_counterpart (request : SigningRequest) :
    request.counterpart.sentHash? =
      if request.instruction = .sign then some (Blake2b.hash request.message) else none := by
  obtain ⟨instruction, key, packets⟩ := request
  cases instruction <;> rfl

theorem Gathers.counterpart {mode : Mode} {instruction : Instruction}
    {history echo : List Happening} {packets : List DataPacket}
    (gathers : Gathers mode instruction history packets)
    (echoes : List.Forall₂ Happening.Echoes history echo) :
    Gathers mode instruction.counterpart echo packets := by
  induction gathers generalizing echo with
  | nil =>
    cases echoes
    exact .nil
  | idle accepted idle _ ih =>
    cases echoes with
    | cons head tail =>
      exact .idle (by rw [head.accepted?, accepted]; rfl) (Mode.idle_counterpart.2 idle) (ih tail)
  | packet accepted _ ih =>
    cases echoes with
    | cons head tail =>
      rw [← head.exchanges]
      exact .packet (by rw [head.accepted?, accepted]; rfl) (ih tail)

theorem Submits.counterpart {mode : Mode} {history echo : List Happening}
    {request : SigningRequest} (submits : Submits mode history request)
    (echoes : List.Forall₂ Happening.Echoes history echo) :
    Submits mode echo request.counterpart := by
  obtain ⟨earlier, opening, later, rfl, ⟨control, opens⟩, gathers⟩ := submits
  obtain ⟨earlier', _, rfl, _, rest⟩ := exists_echoes_append echoes
  cases rest with
  | cons head tail =>
    exact ⟨earlier', _, _, rfl, ⟨control, by rw [head.accepted?, opens]; rfl⟩,
      gathers.counterpart tail⟩

theorem Happening.Concludes.counterpart {mode : Mode} {history echoed : List Happening}
    {happening echo : Happening} {request : SigningRequest}
    (concludes : happening.Concludes mode history request)
    (earlier : List.Forall₂ Happening.Echoes history echoed) (echoes : happening.Echoes echo) :
    echo.Concludes mode echoed request.counterpart := by
  rcases concludes with ⟨confirms, submits⟩ | ⟨⟨control, data, accepted⟩, submits⟩
  · exact .inl ⟨by rw [echoes.input, confirms]; rfl, submits.counterpart earlier⟩
  · refine .inr ⟨⟨control, data, by rw [echoes.accepted?, accepted]; rfl⟩, ?_⟩
    exact submits.counterpart (List.rel_append earlier (.cons echoes .nil))

/-- How a happening compares with its echo, given the history before it.  They differ only where
the request that is signed is one for the signature of a hash. -/
inductive Happening.Matches (mode : Mode) (history : List Happening) :
    Happening → Happening → Prop where
  | powerCut {input : Input} {exchanges : List Exchange} :
      Matches mode history (.powerCut input exchanges) (.powerCut input.counterpart exchanges)
  | unsigned {input : Input} {exchanges : List Exchange}
      {answer : Option (Except SignerError Answer)}
      (unsigned : ∀ digest bytes, answer ≠ some (.ok (.signature digest bytes))) :
      Matches mode history (.step input exchanges answer)
        (.step input.counterpart exchanges answer)
  | raw {input : Input} {exchanges : List Exchange} {bytes : Bytes} {request : SigningRequest}
      (concludes : (Happening.step input exchanges (some (.ok (.signature none bytes)))).Concludes
        mode history request)
      (raw : request.instruction = .signUnsafe) :
      Matches mode history (.step input exchanges (some (.ok (.signature none bytes))))
        (.step input.counterpart exchanges (some (.ok (.signature none bytes))))
  | gains {input : Input} {rest : List Exchange} {bytes : Bytes} {request : SigningRequest}
      {digest : Digest} {reply : SignReply} {exchanges : List Exchange}
      (concludes : (Happening.step input exchanges (some (.ok (.signature none bytes)))).Concludes
        mode history request)
      (unsent : request.instruction = .sign)
      (calls : exchanges = ⟨.sign request.key digest.toList, .ok reply⟩ :: rest)
      (once : ∀ exchange ∈ rest, exchange.Unsigning) :
      Matches mode history (.step input exchanges (some (.ok (.signature none bytes))))
        (.step input.counterpart exchanges (some (.ok (.signature (some digest) bytes))))
  | loses {input : Input} {rest : List Exchange} {bytes : Bytes} {request : SigningRequest}
      {digest : Digest} {reply : SignReply} {exchanges : List Exchange}
      (concludes : (Happening.step input exchanges
        (some (.ok (.signature (some digest) bytes)))).Concludes mode history request)
      (sent : request.instruction = .signWithHash)
      (calls : exchanges = ⟨.sign request.key digest.toList, .ok reply⟩ :: rest)
      (once : ∀ exchange ∈ rest, exchange.Unsigning) :
      Matches mode history (.step input exchanges (some (.ok (.signature (some digest) bytes))))
        (.step input.counterpart exchanges (some (.ok (.signature none bytes))))

/-- Two histories that match step by step. -/
inductive HistoriesMatch (mode : Mode) : List Happening → List Happening → Prop where
  | nil : HistoriesMatch mode [] []
  | concat {history echoed : List Happening} {happening echo : Happening}
      (before : HistoriesMatch mode history echoed)
      (last : happening.Matches mode history echo) :
      HistoriesMatch mode (history ++ [happening]) (echoed ++ [echo])

namespace Device

/-- A device with the other instruction. -/
def counterpart (device : Device) : Device :=
  { device with signer := device.signer.counterpart }

/-- Two devices that show the same and have stored the same. -/
structure ShowsAlike (one two : Device) : Prop where
  status : two.signer.status = one.signer.status
  prompt : two.signer.pending.map (·.prompt) = one.signer.pending.map (·.prompt)
  message : two.signer.pending.bind Pending.message? = one.signer.pending.bind Pending.message?
  record : two.record = one.record

theorem showsAlike_counterpart (device : Device) : device.ShowsAlike device.counterpart where
  status := rfl
  prompt := by
    simp only [counterpart, Signer.counterpart, Option.map_map]
    rfl
  message := by
    have same (pending : Pending) : pending.counterpart.message? = pending.message? := by
      obtain ⟨prompt, action⟩ := pending
      cases action with
      | sign session =>
        simp only [Pending.counterpart, Action.counterpart, Pending.message?,
          Session.isHashing_counterpart]
        rfl
      | _ => rfl
    simp only [counterpart, Signer.counterpart]
    cases device.signer.pending with
    | none => rfl
    | some pending => exact same pending
  record := rfl

variable {device next last : Device} {happening : Happening}

/-- Whatever happens to a device happens to its counterpart. -/
theorem Happens.echo (happens : Happens device happening next) :
    ∃ echo, happening.Echoes echo ∧ Happens device.counterpart echo next.counterpart := by
  cases happens with
  | @step signer after record input exchanges answer yields =>
    obtain ⟨⟨answer', _⟩, yields', same, rfl⟩ :=
      (signer.step_counterpart record input).yields yields
    exact ⟨_, .step same, .step yields'⟩
  | @powerCut signer record input exchanges begins =>
    exact ⟨_, .powerCut, .powerCut ((signer.step_counterpart record input).begins begins)⟩

/-- Every run has an echo. -/
theorem Run.echo {history : List Happening} (run : Run device history last) :
    ∃ echoed, List.Forall₂ Happening.Echoes history echoed ∧
      Run device.counterpart echoed last.counterpart := by
  induction run with
  | nil device => exact ⟨[], .nil, .nil _⟩
  | cons head _ ih =>
    obtain ⟨echo, echoes, happens⟩ := head.echo
    obtain ⟨rest, more, run⟩ := ih
    exact ⟨echo :: rest, .cons echoes more, .cons happens run⟩

/-- What a device does on a platform is echoed by its counterpart there. -/
theorem play_echo (platform : Platform) (earlier : List Call) (device : Device)
    (inputs : List Input) :
    List.Forall₂ (fun one two => one.1.Echoes two.1 ∧ two.2 = one.2.counterpart)
      (device.play platform earlier inputs)
      (device.counterpart.play platform earlier (inputs.map Input.counterpart)) := by
  induction inputs generalizing earlier device with
  | nil => exact .nil
  | cons input inputs ih =>
    obtain ⟨sameExchanges, answers, next⟩ :=
      (device.signer.step_counterpart device.record input).playedBy platform earlier
    rw [List.map_cons, play, play]
    simp only [show device.counterpart.signer = device.signer.counterpart from rfl,
      show device.counterpart.record = device.record from rfl, sameExchanges, next]
    exact .cons ⟨.step answers, rfl⟩ (ih _ _)

/-- A play as a whole is a run. -/
theorem exists_run_play (platform : Platform) (earlier : List Call) (device : Device)
    (inputs : List Input) :
    ∃ last, Run device ((device.play platform earlier inputs).map Prod.fst) last := by
  induction inputs generalizing earlier device with
  | nil => exact ⟨device, .nil device⟩
  | cons input inputs ih =>
    obtain ⟨exchanges, answer, next, happens, played⟩ :=
      exists_play_cons platform earlier device input inputs
    obtain ⟨last, run⟩ := ih (earlier ++ exchanges.map (·.call)) next
    rw [played]
    exact ⟨last, .cons happens run⟩

section

variable {config : Config} {record : Record} {history echoed : List Happening}
  {device' next' : Device} {input : Input} {exchanges : List Exchange}

/-- Two signatures that echo each other belong to requests that are counterparts, and what is
known of each of the two settles how they differ. -/
theorem Happens.matches_signature {one two : Option Digest} {bytes : Bytes}
    (run : Run (.boot config record) history device)
    (happens : Happens device (.step input exchanges (some (.ok (.signature one bytes)))) next)
    (run' : Run (.boot config record) echoed device')
    (happens' : Happens device'
      (.step input.counterpart exchanges (some (.ok (.signature two bytes)))) next')
    (earlier : List.Forall₂ Happening.Echoes history echoed) :
    Happening.Matches config.mode history
      (.step input exchanges (some (.ok (.signature one bytes))))
      (.step input.counterpart exchanges (some (.ok (.signature two bytes)))) := by
  obtain ⟨request, _, rest, concludes, _, signing, split, once, confirmed⟩ :=
    run.concludes happens trivial
  obtain ⟨_, _, _, concludes', _, _, _, _, confirmed'⟩ := run'.concludes happens' trivial
  cases concludes'.unique
    (concludes.counterpart earlier (.step (.some (.succeeded (.signature one two bytes)))))
  obtain ⟨reply, rfl, _, sent⟩ := confirmed.of_signature
  obtain ⟨_, _, _, sent'⟩ := confirmed'.of_signature
  cases kind : request.instruction with
  | sign =>
    have none : one = .none := by simpa [SigningRequest.sentHash?, kind] using sent
    have some : two = .some (Blake2b.hash request.message) := by
      simpa [SigningRequest.sentHash?_counterpart, kind] using sent'
    subst none some
    rw [SigningRequest.toSign, if_neg (by simp [kind])] at split
    exact .gains concludes kind split once
  | signWithHash =>
    have some : one = .some (Blake2b.hash request.message) := by
      simpa [SigningRequest.sentHash?, kind] using sent
    have none : two = .none := by
      simpa [SigningRequest.sentHash?_counterpart, kind] using sent'
    subst none some
    rw [SigningRequest.toSign, if_neg (by simp [kind])] at split
    exact .loses concludes kind split once
  | signUnsafe =>
    have none : one = .none := by simpa [SigningRequest.sentHash?, kind] using sent
    have none' : two = .none := by
      simpa [SigningRequest.sentHash?_counterpart, kind] using sent'
    subst none none'
    exact .raw concludes kind
  | _ =>
    rw [kind] at signing
    cases signing

theorem Happens.matches {happening echo : Happening}
    (run : Run (.boot config record) history device) (happens : Happens device happening next)
    (run' : Run (.boot config record) echoed device') (happens' : Happens device' echo next')
    (earlier : List.Forall₂ Happening.Echoes history echoed) (echoes : happening.Echoes echo) :
    happening.Matches config.mode history echo := by
  cases echoes with
  | powerCut => exact .powerCut
  | step answers =>
    cases answers with
    | none => exact .unsigned (by simp)
    | some outcomes =>
      cases outcomes with
      | refused error => exact .unsigned (by simp)
      | succeeded same =>
        cases same with
        | signature one two bytes => exact happens.matches_signature run run' happens' earlier
        | same =>
          rename_i answer
          cases answer with
          | signature digest bytes => exact happens.matches_signature run run' happens' earlier
          | _ => exact .unsigned (by simp)

/-- Two runs that echo each other match step by step. -/
theorem Run.matches (run : Run (.boot config record) history device)
    (run' : Run (.boot config record) echoed device')
    (echoes : List.Forall₂ Happening.Echoes history echoed) :
    HistoriesMatch config.mode history echoed := by
  induction history using List.reverseRecOn generalizing device echoed device' with
  | nil =>
    cases echoes
    exact .nil
  | append_singleton history happening ih =>
    obtain ⟨earlier, _, rfl, before, last⟩ := exists_echoes_append echoes
    cases last with
    | cons echo nothing =>
      cases nothing
      obtain ⟨middle, one, happens⟩ := run_concat_iff.1 run
      obtain ⟨middle', two, happens'⟩ := run_concat_iff.1 run'
      exact .concat (ih one two before) (happens.matches one two happens' before echo)

end

/-- Replacing the two instructions that sign a hash by each other, in every packet, changes
nothing but the hash beside a signature.  On every platform the two devices go through the same
calls, answers, prompts and records, and whatever can happen to the one, power cuts included, can
happen to the other; a signature of a hash has that hash beside it on exactly one side, and there
the response starts with it. -/
theorem alike_but_hash (config : Config) (record : Record) :
    (∀ platform inputs,
      HistoriesMatch config.mode
        (((boot config record).play platform [] inputs).map Prod.fst)
        (((boot config record).play platform [] (inputs.map Input.counterpart)).map Prod.fst) ∧
      List.Forall₂ ShowsAlike
        (((boot config record).play platform [] inputs).map Prod.snd)
        (((boot config record).play platform [] (inputs.map Input.counterpart)).map Prod.snd)) ∧
    (∀ history device, Run (boot config record) history device →
      ∃ echoed other, Run (boot config record) echoed other ∧
        HistoriesMatch config.mode history echoed ∧ device.ShowsAlike other) ∧
    ∀ digest bytes, ∃ response, ∀ buffer,
      (Answer.signature none bytes).write buffer = writeInto buffer response ∧
      (Answer.signature (some digest) bytes).write buffer =
        writeInto buffer (digest.toList ++ response) := by
  refine ⟨fun platform inputs => ?_, fun history device run => ?_,
    fun digest bytes => ⟨bytes, fun buffer => ⟨rfl, rfl⟩⟩⟩
  · have echoes := play_echo platform [] (boot config record) inputs
    obtain ⟨_, run⟩ := exists_run_play platform [] (boot config record) inputs
    obtain ⟨_, run'⟩ :=
      exists_run_play platform [] (boot config record) (inputs.map Input.counterpart)
    constructor
    · refine run.matches run' ?_
      rw [List.forall₂_map_left_iff, List.forall₂_map_right_iff]
      exact echoes.imp fun _ _ both => both.1
    · rw [List.forall₂_map_left_iff, List.forall₂_map_right_iff]
      refine echoes.imp fun one two both => ?_
      rw [both.2]
      exact showsAlike_counterpart one.2
  · obtain ⟨echoed, echoes, run'⟩ := run.echo
    exact ⟨echoed, device.counterpart, run', run.matches run' echoes, showsAlike_counterpart device⟩

/-- A transfer that a wallet has signed without its hash is also signed with it. -/
theorem transfer_alike_but_hash :
    ∃ history device echoed other,
      Run (.boot { mode := .wallet } newBaker.encode) history device ∧
      (∃ earlier exchanges digest signature, history =
        earlier ++ [.step .confirm exchanges (some (.ok (.signature digest signature)))]) ∧
      Run (.boot { mode := .wallet } newBaker.encode) echoed other ∧
      HistoriesMatch .wallet history echoed ∧ device.ShowsAlike other := by
  obtain ⟨_, next, run, happens⟩ := Run.signs_transfer
  have signed := run_concat_iff.2 ⟨_, run, happens⟩
  obtain ⟨echoed, other, run', same, alike⟩ :=
    (alike_but_hash { mode := .wallet } newBaker.encode).2.1 _ _ signed
  exact ⟨_, next, echoed, other, signed, ⟨_, _, _, _, rfl⟩, run', same, alike⟩

end Device

end TezosSigner
