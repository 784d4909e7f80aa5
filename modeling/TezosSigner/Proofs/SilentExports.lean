/-
Module: TezosSigner.Proofs.SilentExports
Purpose: A device that exports public keys unasked differs from one that asks by the question.
Main exports:
  Signer.prompting, Signer.step_prompting, Signer.askToExport, Signer.export_prompting,
  Happening.asksToExport, Device.prompting, Device.playOne, Device.consenting,
  Device.ExportsAlike, Device.play_prompting, Device.exports_alike
-/
import TezosSigner.Proofs.Parallel
import TezosSigner.Proofs.Progress

namespace TezosSigner

/-!
Two devices of one mode take the same inputs on the same platform, and one of them asks the
operator before a public key leaves it.  The operator of that one consents at once to every export,
so it takes an input more at each of them.  Step by step the two make the same calls, and once an
export is confirmed the device that has asked is where the other one is already.

They are never apart for longer than the question takes: the request drops whatever was in progress
on both, and the key that waits for the operator was fetched before they were asked.
-/

namespace Signer

/-- The signer that asks the operator before it exports a public key. -/
def prompting (signer : Signer) : Signer :=
  { signer with config := { signer.config with promptPublicKey := true } }

variable (signer : Signer) (record : Record) (state : BakingState)

theorem signNext_prompting (instruction : Instruction) (control : PacketControl) (data : Bytes) :
    (signer.signNext state instruction control data).Parallels (Images prompting Eq)
      (signer.prompting.signNext state instruction control data) := by
  unfold signNext
  simp only [show signer.prompting.config.mode = signer.config.mode from rfl,
    show signer.prompting.session = signer.session from rfl]
  split
  · exact .throw _ _
  · split
    · exact .throw _ _
    · split
      · exact .throw _ _
      · refine .bind_same fun packet => .bind_same fun session => .bind_same fun _ => ?_
        split
        · refine .bind_same fun completion => ?_
          cases completion with
          | answered answer => exact .pure ⟨rfl, rfl⟩
          | awaits pending => exact .pure ⟨rfl, rfl⟩
        · exact .pure ⟨rfl, rfl⟩

/-- Only the export of a public key looks whether the operator is to be asked. -/
theorem perform_prompting {command : Command} (other : ∀ key, command ≠ .getPublicKey key) :
    (signer.perform state command).Parallels (Images prompting Eq)
      (signer.prompting.perform state command) := by
  unfold perform
  simp only [show signer.prompting.config.mode = signer.config.mode from rfl]
  split
  · cases command with
    | none => exact .pure ⟨rfl, rfl⟩
    | signFirst instruction key control =>
      dsimp only [signFirst]
      split
      · exact .throw _ _
      · exact .bind_same fun session => .pure ⟨rfl, rfl⟩
    | signNext instruction control data => exact signer.signNext_prompting _ _ _ _
    | getPublicKey key => exact absurd rfl (other key)
    | authorizeBaking key => exact .bind_same fun publicKey => .pure ⟨rfl, rfl⟩
    | resetHighWaterMark level =>
      dsimp only
      split
      · exact .pure ⟨rfl, rfl⟩
      · exact .throw _ _
    | queryAuthKey => exact .pure ⟨rfl, rfl⟩
    | queryHighWaterMark => exact .pure ⟨rfl, rfl⟩
  · exact .throw _ _

theorem confirm_prompting :
    (signer.confirm state).Parallels (Images prompting (OutcomesRelated Eq))
      (signer.prompting.confirm state) := by
  unfold confirm
  simp only [show signer.prompting.pending = signer.pending from rfl]
  split
  · exact .done ⟨.refused _, rfl⟩
  · exact settle_images rfl (.bind_same fun answer => .pure ⟨rfl, rfl⟩)

/-- A step that exports no public key is the same for the signer that asks. -/
theorem step_prompting {input : Input}
    (other : ∀ key, input.command? ≠ some (.getPublicKey key)) :
    (signer.step record input).Parallels (fun one two => two = (one.1, one.2.prompting))
      (signer.prompting.step record input) := by
  suffices parallel : (signer.step record input).Parallels
      (Images prompting (Option.Rel (OutcomesRelated Eq)))
      (signer.prompting.step record input) by
    refine parallel.mono ?_
    rintro ⟨answer, next⟩ ⟨answer', next'⟩ ⟨answers, signers⟩
    refine Prod.ext ?_ signers
    cases answers with
    | none => rfl
    | some outcomes => exact congrArg some outcomes.eq
  cases read : input.command? with
  | some command =>
    rw [step_of_command? read, step_of_command? read]
    refine answered_images (settle_images rfl (signer.perform_prompting _ fun key same => ?_))
    exact other key (same ▸ read)
  | none =>
    cases input with
    | apdu received =>
      simp only [step, handleApdu]
      cases readEq : Command.ofApdu received with
      | ok command =>
        rw [Input.command?, readEq] at read
        cases read
      | error error => exact .done ⟨.some (.refused error), rfl⟩
    | command command => cases read
    | confirm => exact answered_images (signer.confirm_prompting _)
    | reject =>
      simp only [step, reject, show signer.prompting.pending = signer.pending from rfl]
      split
      · exact .done ⟨.some (.refused _), rfl⟩
      · exact .done ⟨.some (.succeeded rfl), rfl⟩
    | reset => exact .done ⟨.none, rfl⟩

/-- The signer that has fetched a public key and waits for the operator. -/
def askToExport (publicKey : Bytes) : Signer :=
  (signer.discard.suspend
    { prompt := Prompt.providePublicKey publicKey, action := .exportKey publicKey }).2

/-- What an export comes to without the question, and what it comes to with it. -/
inductive Exports : Option (Except SignerError Answer) × Signer →
    Option (Except SignerError Answer) × Signer → Prop where
  | refused (error : SignerError) :
      Exports (some (.error error), signer.abort) (some (.error error), signer.abort.prompting)
  | exported (publicKey : Bytes) :
      Exports (some (.ok (.publicKey publicKey)), { signer.discard with status := .complete })
        (some (.ok .pending), signer.prompting.askToExport publicKey)

/-- Both fetch the public key by the same call; then the one has answered and the other asks. -/
theorem export_prompting {input : Input} {key : KeyPath}
    (silent : signer.config.promptPublicKey = false)
    (read : input.command? = some (.getPublicKey key)) :
    (signer.step record input).Parallels signer.Exports (signer.prompting.step record input) := by
  have performs : (signer.perform (BakingState.decode record) (.getPublicKey key)).Parallels
      (fun one two => signer.Exports (some (.ok one.1), one.2) (some (.ok two.1), two.2))
      (signer.prompting.perform (BakingState.decode record) (.getPublicKey key)) := by
    refine .bind_same fun publicKey => ?_
    rw [silent]
    exact .pure (.exported publicKey)
  have settles : (signer.update (BakingState.decode record) (.getPublicKey key)).Parallels
      (fun one two => signer.Exports (some one.1, one.2) (some two.1, two.2))
      (signer.prompting.update (BakingState.decode record) (.getPublicKey key)) := by
    refine Dialog.Parallels.bind performs ?_
    intro outcome outcome' outcomes
    cases outcomes with
    | refused error => exact .done (.refused error)
    | succeeded exports => exact .done exports
  rw [step_of_command? read, step_of_command? read]
  exact Dialog.Parallels.bind settles fun _ _ exports => .done exports

/-- Once the operator consents, the signer that has asked is where the other one is. -/
theorem step_confirm_askToExport (publicKey : Bytes) :
    (signer.prompting.askToExport publicKey).step record .confirm =
      .done (some (.ok (.publicKey publicKey)),
        { signer.discard with status := .complete }.prompting) :=
  rfl

end Signer

namespace Happening

/-- The operator is asked whether a public key may leave the device. -/
def asksToExport (happening : Happening) : Bool :=
  match happening.command?, happening.answer with
  | some (.getPublicKey _), some (.ok .pending) => true
  | _, _ => false

variable {input : Input} {exchanges : List Exchange}

/-- Nothing else asks the operator about a public key. -/
theorem asksToExport_of_unread {answer : Option (Except SignerError Answer)}
    (other : ∀ key, input.command? ≠ some (.getPublicKey key)) :
    (Happening.step input exchanges answer).asksToExport = false := by
  simp only [asksToExport, command?, Happening.input]
  split
  · rename_i key read _
    exact absurd read (other key)
  · rfl

theorem asksToExport_of_refused (error : SignerError) :
    (Happening.step input exchanges (some (.error error))).asksToExport = false := by
  simp only [asksToExport, answer]
  split
  · rename_i pending
    cases pending
  · rfl

theorem asksToExport_of_pending {key : KeyPath}
    (read : input.command? = some (.getPublicKey key)) :
    (Happening.step input exchanges (some (.ok .pending))).asksToExport = true := by
  simp only [asksToExport, command?, Happening.input, read, answer]

end Happening

namespace Device

/-- The device that asks the operator before it exports a public key. -/
def prompting (device : Device) : Device :=
  { device with signer := device.signer.prompting }

/-- What happens to a device that takes one input on a platform, and the device that it leaves. -/
def playOne (platform : Platform) (earlier : List Call) (device : Device) (input : Input) :
    Happening × Device :=
  let (exchanges, answer, next) :=
    (device.signer.step device.record input).playedBy platform earlier
  (.step input exchanges answer, { signer := next, record := device.record.after exchanges })

/-- The inputs of a device whose operator consents at once to every export of a public key: a
confirmation follows directly on each request for which the operator is asked. -/
def consenting (platform : Platform) (earlier : List Call) (device : Device) :
    List Input → List Input
  | [] => []
  | input :: inputs =>
      let (happening, waiting) := device.playOne platform earlier input
      let earlier := earlier ++ happening.exchanges.map (·.call)
      if happening.asksToExport then
        let (confirmed, after) := waiting.playOne platform earlier .confirm
        input :: .confirm ::
          after.consenting platform (earlier ++ confirmed.exchanges.map (·.call)) inputs
      else
        input :: waiting.consenting platform earlier inputs

/-- What happens without the question, beside what happens with it.  Each step stands beside the
same step, with the same exchanges, and beside the same device but for the question; only where a
public key is exported the operator is asked first, and it is their consent that is answered. -/
inductive ExportsAlike : List (Happening × Device) → List (Happening × Device) → Prop where
  | nil : ExportsAlike [] []
  | same {input : Input} {exchanges : List Exchange} {answer : Option (Except SignerError Answer)}
      {next : Device} {rest asked : List (Happening × Device)}
      (refused : ∀ key, input.command? = some (.getPublicKey key) →
        ∃ error, answer = some (.error error))
      (more : ExportsAlike rest asked) :
      ExportsAlike ((.step input exchanges answer, next) :: rest)
        ((.step input exchanges answer, next.prompting) :: asked)
  | exported {input : Input} {key : KeyPath} {exchanges : List Exchange} {publicKey : Bytes}
      {next waiting : Device} {rest asked : List (Happening × Device)}
      (read : input.command? = some (.getPublicKey key)) (more : ExportsAlike rest asked) :
      ExportsAlike ((.step input exchanges (some (.ok (.publicKey publicKey))), next) :: rest)
        ((.step input exchanges (some (.ok .pending)), waiting) ::
          (.step .confirm [] (some (.ok (.publicKey publicKey))), next.prompting) :: asked)

variable {platform : Platform} {earlier : List Call} {device : Device} {input : Input}

theorem playOne_eq (device : Device) {exchanges : List Exchange}
    {answer : Option (Except SignerError Answer)} {next : Signer}
    (played : (device.signer.step device.record input).playedBy platform earlier =
      (exchanges, answer, next)) :
    device.playOne platform earlier input =
      (.step input exchanges answer,
        { signer := next, record := device.record.after exchanges }) := by
  rw [playOne, played]

/-- A step that exports no public key is the same for the device that asks. -/
theorem playOne_prompting (platform : Platform) (earlier : List Call) (device : Device)
    (other : ∀ key, input.command? ≠ some (.getPublicKey key)) :
    ∃ exchanges answer next,
      device.playOne platform earlier input = (.step input exchanges answer, next) ∧
      device.prompting.playOne platform earlier input =
        (.step input exchanges answer, next.prompting) := by
  have parallel :=
    (device.signer.step_prompting device.record other).playedBy platform earlier
  rcases silently : (device.signer.step device.record input).playedBy platform earlier with
    ⟨exchanges, answer, next⟩
  rcases asking : (device.signer.prompting.step device.record input).playedBy platform earlier with
    ⟨exchanges', answer', next'⟩
  rw [silently, asking] at parallel
  obtain ⟨rfl, results⟩ := parallel
  dsimp only at results
  cases results
  exact ⟨_, _, _, device.playOne_eq silently, device.prompting.playOne_eq asking⟩

/-- An export comes to the same error, or to a question whose confirmation is answered by the public
key. -/
theorem playOne_export (platform : Platform) (earlier : List Call) {key : KeyPath}
    (silent : device.signer.config.promptPublicKey = false)
    (read : input.command? = some (.getPublicKey key)) :
    (∃ exchanges error next,
      device.playOne platform earlier input =
        (.step input exchanges (some (.error error)), next) ∧
      device.prompting.playOne platform earlier input =
        (.step input exchanges (some (.error error)), next.prompting)) ∨
    ∃ exchanges publicKey next waiting,
      device.playOne platform earlier input =
        (.step input exchanges (some (.ok (.publicKey publicKey))), next) ∧
      device.prompting.playOne platform earlier input =
        (.step input exchanges (some (.ok .pending)), waiting) ∧
      ∀ later, waiting.playOne platform later .confirm =
        (.step .confirm [] (some (.ok (.publicKey publicKey))), next.prompting) := by
  have parallel :=
    (device.signer.export_prompting device.record silent read).playedBy platform earlier
  rcases silently : (device.signer.step device.record input).playedBy platform earlier with
    ⟨exchanges, result⟩
  rcases asking : (device.signer.prompting.step device.record input).playedBy platform earlier with
    ⟨exchanges', result'⟩
  rw [silently, asking] at parallel
  obtain ⟨rfl, exports⟩ := parallel
  dsimp only at exports
  cases exports with
  | refused error =>
    exact .inl ⟨_, error, _, device.playOne_eq silently, device.prompting.playOne_eq asking⟩
  | exported publicKey =>
    refine .inr ⟨_, publicKey, _, _, device.playOne_eq silently,
      device.prompting.playOne_eq asking, fun later => ?_⟩
    refine playOne_eq _ ?_
    rw [Signer.step_confirm_askToExport]
    rfl

theorem happens_playOne (platform : Platform) (earlier : List Call) (device : Device)
    (input : Input) :
    Happens device (device.playOne platform earlier input).1
      (device.playOne platform earlier input).2 :=
  .step (Dialog.yields_playedBy platform earlier _)

/-- A device that exports silently goes on to do so. -/
theorem silent_of_playOne {happening : Happening} {next : Device}
    (silent : device.signer.config.promptPublicKey = false)
    (played : device.playOne platform earlier input = (happening, next)) :
    next.signer.config.promptPublicKey = false := by
  have happened := happens_playOne platform earlier device input
  rw [played] at happened
  rw [happened.config, silent]

theorem play_cons_of_playOne {happening : Happening} {next : Device} {inputs : List Input}
    (played : device.playOne platform earlier input = (happening, next)) :
    device.play platform earlier (input :: inputs) =
      (happening, next) ::
        next.play platform (earlier ++ happening.exchanges.map (·.call)) inputs := by
  have unfolded : device.play platform earlier (input :: inputs) =
      device.playOne platform earlier input ::
        (device.playOne platform earlier input).2.play platform
          (earlier ++ (device.playOne platform earlier input).1.exchanges.map (·.call)) inputs :=
    rfl
  rw [unfolded, played]

theorem consenting_of_unasked {happening : Happening} {next : Device} {inputs : List Input}
    (played : device.playOne platform earlier input = (happening, next))
    (unasked : happening.asksToExport = false) :
    device.consenting platform earlier (input :: inputs) =
      input :: next.consenting platform (earlier ++ happening.exchanges.map (·.call)) inputs := by
  simp only [consenting, played, unasked, Bool.false_eq_true, if_false]

theorem consenting_of_asked {happening confirmed : Happening} {waiting next : Device}
    {inputs : List Input} (played : device.playOne platform earlier input = (happening, waiting))
    (asked : happening.asksToExport = true)
    (confirms : ∀ later, waiting.playOne platform later .confirm = (confirmed, next)) :
    device.consenting platform earlier (input :: inputs) =
      input :: .confirm :: next.consenting platform
        (earlier ++ happening.exchanges.map (·.call) ++ confirmed.exchanges.map (·.call))
        inputs := by
  simp only [consenting, played, asked, confirms, if_true]

/-- From a device that exports silently, and the same one that asks, the two plays stay alike. -/
theorem play_prompting (device : Device)
    (silent : device.signer.config.promptPublicKey = false) (platform : Platform)
    (earlier : List Call) (inputs : List Input) :
    ExportsAlike (device.play platform earlier inputs)
      (device.prompting.play platform earlier
        (device.prompting.consenting platform earlier inputs)) := by
  induction inputs generalizing device earlier with
  | nil => exact .nil
  | cons input inputs ih =>
    by_cases exports : ∃ key, input.command? = some (.getPublicKey key)
    · obtain ⟨key, read⟩ := exports
      rcases playOne_export platform earlier silent read with
        ⟨exchanges, error, next, one, two⟩ |
          ⟨exchanges, publicKey, next, waiting, one, two, confirms⟩
      · rw [consenting_of_unasked two (Happening.asksToExport_of_refused error),
          play_cons_of_playOne one, play_cons_of_playOne two]
        exact .same (fun _ _ => ⟨error, rfl⟩) (ih _ (silent_of_playOne silent one) _)
      · rw [consenting_of_asked two (Happening.asksToExport_of_pending read) confirms,
          play_cons_of_playOne one, play_cons_of_playOne two, play_cons_of_playOne (confirms _)]
        -- The confirmation makes no call, so the platform is asked the same things after it.
        simp only [Happening.exchanges, List.map_nil, List.append_nil]
        exact .exported read (ih _ (silent_of_playOne silent one) _)
    · have other : ∀ key, input.command? ≠ some (.getPublicKey key) := fun key read =>
        exports ⟨key, read⟩
      obtain ⟨exchanges, answer, next, one, two⟩ :=
        device.playOne_prompting platform earlier other
      rw [consenting_of_unasked two (Happening.asksToExport_of_unread other),
        play_cons_of_playOne one, play_cons_of_playOne two]
      exact .same (fun key read => absurd read (other key)) (ih _ (silent_of_playOne silent one) _)

/-- Not to ask the operator before a public key is exported removes the question and nothing else.
On every platform the two devices make the same calls, give the same answers and are the same device
after each step, where the one that asks takes a confirmation more for each export. -/
theorem exports_alike (mode : Mode) (record : Record) (platform : Platform)
    (inputs : List Input) :
    ExportsAlike
      ((boot { mode := mode, promptPublicKey := false } record).play platform [] inputs)
      ((boot { mode := mode, promptPublicKey := true } record).play platform []
        ((boot { mode := mode, promptPublicKey := true } record).consenting platform []
          inputs)) :=
  (boot { mode := mode, promptPublicKey := false } record).play_prompting rfl platform [] inputs

end Device

end TezosSigner
