/-
Module: TezosSigner.Proofs.Templates
Purpose: The fields of an operation prompt tell the operator what the operation does.
Main exports:
  OperationTag.family, Prompt.Shows, Prompt.shows_of_template?, Prompt.length_template, Consent,
  Consent.Describes, Consent.read?, Consent.exists_read, Prompt.operation_determines_consent
-/
import TezosSigner.Prompt

namespace TezosSigner

/-!
The operator consents to what is on the display, and the display shows the fields of a prompt and
not its kind.  So whatever the operator has to know must be found in the fields again.  `Consent`
is what has to be known of an operation, and `Consent.read?` finds it in the fields: the title
tells the template, and the values follow in the order of the template.  Two groups that are shown
by the same fields therefore ask for the same consent.

A value stands for itself, apart from the words that stand where there is no account.  No account
is drawn as words, so the two are told apart.
-/

/-- What an operation does, in either generation of manager operations. -/
inductive OperationFamily where
  | reveal
  | proposal
  | ballot
  | origination
  | delegation
  | transaction
deriving Repr, DecidableEq

/-- The family of a tag. -/
def OperationTag.family : OperationTag → OperationFamily
  | .none | .athensReveal | .babylonReveal => .reveal
  | .proposal => .proposal
  | .ballot => .ballot
  | .athensOrigination | .babylonOrigination => .origination
  | .athensDelegation | .babylonDelegation => .delegation
  | .athensTransaction | .babylonTransaction => .transaction

namespace Prompt

/-- The templates, each with the groups that are shown by it. -/
inductive Shows (group : OperationGroup) : PromptKind → List PromptField → Prop where
  | reveal (family : group.operation.tag.family = .reveal) :
      Shows group .reveal (revealFields group)
  | proposal {governance : Governance} (family : group.operation.tag.family = .proposal)
      (governed : group.operation.governance = some governance) :
      Shows group .proposal (proposalFields group governance)
  | ballot {governance : Governance} {vote : Vote} (family : group.operation.tag.family = .ballot)
      (governed : group.operation.governance = some governance)
      (voted : governance.vote = some vote) :
      Shows group .ballot (ballotFields group governance vote)
  | origination (family : group.operation.tag.family = .origination)
      (spendable : group.operation.spendable = true) :
      Shows group .origination (originationFields group)
  | delegation {delegate : Contract} (family : group.operation.tag.family = .delegation)
      (given : group.operation.destination = some delegate) :
      Shows group .delegation (delegationFields group "Confirm")
  | withdrawal (family : group.operation.tag.family = .delegation)
      (withdrawn : group.operation.destination = none) :
      Shows group .withdrawal (delegationFields group "Withdraw")
  | transaction (family : group.operation.tag.family = .transaction) :
      Shows group .transaction (transactionFields group)

variable {group : OperationGroup} {kind : PromptKind} {fields : List PromptField}

theorem shows_of_template? (h : template? group = some (kind, fields)) :
    Shows group kind fields := by
  unfold template? at h
  split at h <;> rename_i tag
  case h_1 | h_2 | h_3 =>
    cases h
    exact .reveal (by rw [tag]; rfl)
  case h_4 =>
    obtain ⟨governance, governed, same⟩ := Option.bind_eq_some_iff.1 h
    cases same
    exact .proposal (by rw [tag]; rfl) governed
  case h_5 =>
    obtain ⟨governance, governed, chosen⟩ := Option.bind_eq_some_iff.1 h
    obtain ⟨vote, voted, same⟩ := Option.bind_eq_some_iff.1 chosen
    cases same
    exact .ballot (by rw [tag]; rfl) governed voted
  case h_6 | h_7 =>
    split at h <;> rename_i spendable <;> cases h
    exact .origination (by rw [tag]; rfl) spendable
  case h_8 | h_9 =>
    split at h <;> rename_i destination <;> cases h
    · exact .delegation (by rw [tag]; rfl) destination
    · exact .withdrawal (by rw [tag]; rfl) destination
  case h_10 | h_11 =>
    cases h
    exact .transaction (by rw [tag]; rfl)

/-- No template has more fields than a prompt can hold. -/
theorem length_template (h : template? group = some (kind, fields)) :
    fields.length ≤ maxFields := by
  cases shows_of_template? h with
  | reveal => exact Nat.le_add_right 4 3
  | proposal => exact Nat.le_add_right 4 3
  | ballot => exact Nat.le_add_right 4 3
  | origination => exact Nat.le_refl 7
  | delegation => exact Nat.le_add_right 5 2
  | withdrawal => exact Nat.le_add_right 5 2
  | transaction => exact Nat.le_add_right 6 1

/-- A prompt for an operation group has all the fields of the template. -/
theorem template?_of_operation? {prompt : Prompt} (h : operation? group = some prompt) :
    template? group = some (prompt.kind, prompt.fields) := by
  obtain ⟨⟨kind, fields⟩, template, rfl⟩ := Option.map_eq_some_iff.1 h
  simpa only [ofFields, List.take_of_length_le (length_template template)] using template

/-- No label stands twice in a template. -/
theorem Shows.labels_nodup (shows : Shows group kind fields) :
    (fields.map (·.label)).Nodup := by
  cases shows with
  | reveal => simp [revealFields]
  | proposal => simp [proposalFields]
  | ballot => simp [ballotFields]
  | origination =>
    unfold originationFields delegateField
    split <;> simp
  | delegation => simp [delegationFields]
  | withdrawal => simp [delegationFields]
  | transaction => simp [transactionFields]

/-- Where no label stands twice, the value beside a label is that of its field. -/
theorem value?_of_mem {prompt : Prompt} (distinct : (prompt.fields.map (·.label)).Nodup)
    {field : PromptField} (member : field ∈ prompt.fields) :
    prompt.value? field.label = some field.value := by
  obtain ⟨kind, fields⟩ := prompt
  simp only [value?]
  induction fields with
  | nil => cases member
  | cons first rest ih =>
    obtain ⟨absent, distinct⟩ := List.nodup_cons.1 distinct
    rcases List.mem_cons.1 member with rfl | later
    · simp
    · have other : first.label ≠ field.label := fun same =>
        absent (List.mem_map.2 ⟨field, later, same.symm⟩)
      rw [List.find?_cons_of_neg (by simpa using other)]
      exact ih distinct later

end Prompt

/-- What a group costs its source, in fees and in storage. -/
structure Costs where
  /-- In millionths of a tez. -/
  fee : UInt64
  storageLimit : UInt64
deriving Repr, DecidableEq

/-- What the operator has to know of an operation to consent to it. -/
inductive Consent where
  | reveal (source : Contract) (costs : Costs)
  | proposal (source : Contract) (period : UInt32) (protocol : Vector UInt8 32)
  | ballot (source : Contract) (period : UInt32) (protocol : Vector UInt8 32) (vote : Vote)
  | origination (source : Contract) (costs : Costs) (amount : UInt64) (manager : Option Contract)
      (delegatable : Bool) (delegate : Option Contract)
  | delegation (source : Contract) (costs : Costs) (delegate : Option Contract)
      (viaManager : Bool)
  | transaction (source : Contract) (costs : Costs) (amount : UInt64)
      (destination : Option Contract) (viaManager : Bool)
deriving Repr, DecidableEq

/-- The costs of a group as a whole. -/
def OperationGroup.costs (group : OperationGroup) : Costs :=
  { fee := group.totalFee, storageLimit := group.totalStorageLimit }

/-- The value beside a label where there is an account or none. -/
def PromptValue.account? : PromptValue → Option (Option Contract)
  | .contract account => some (some account)
  | .text "None" => some none
  | _ => none

namespace Consent

/-- A group that asks for this consent. -/
def Describes (group : OperationGroup) : Consent → Prop
  | .reveal source costs =>
      group.operation.tag.family = .reveal ∧ group.operation.source = source ∧
        group.costs = costs
  | .proposal source period protocol =>
      group.operation.tag.family = .proposal ∧ group.operation.source = source ∧
        ∃ governance, group.operation.governance = some governance ∧
          governance.votingPeriod = period ∧ governance.protocolHash = protocol
  | .ballot source period protocol vote =>
      group.operation.tag.family = .ballot ∧ group.operation.source = source ∧
        ∃ governance, group.operation.governance = some governance ∧
          governance.votingPeriod = period ∧ governance.protocolHash = protocol ∧
            governance.vote = some vote
  | .origination source costs amount manager delegatable delegate =>
      group.operation.tag.family = .origination ∧ group.operation.source = source ∧
        group.costs = costs ∧ group.operation.amount = amount ∧
        group.operation.destination = manager ∧ group.operation.spendable = true ∧
        group.operation.delegatable = delegatable ∧ group.operation.delegate = delegate
  | .delegation source costs delegate viaManager =>
      group.operation.tag.family = .delegation ∧ group.operation.source = source ∧
        group.costs = costs ∧ group.operation.destination = delegate ∧
        group.operation.viaManager = viaManager
  | .transaction source costs amount destination viaManager =>
      group.operation.tag.family = .transaction ∧ group.operation.source = source ∧
        group.costs = costs ∧ group.operation.amount = amount ∧
        group.operation.destination = destination ∧ group.operation.viaManager = viaManager

/-- The fields of a reveal behind its title. -/
def readReveal? : List PromptField → Option Consent
  | [⟨_, .contract source⟩, ⟨_, .amount fee⟩, ⟨_, .number limit⟩] =>
      some (.reveal source { fee := fee, storageLimit := limit })
  | _ => none

/-- The fields of a proposal behind its title. -/
def readProposal? : List PromptField → Option Consent
  | [⟨_, .contract source⟩, ⟨_, .number period⟩, ⟨_, .protocolHash protocol⟩] =>
      some (.proposal source period.toUInt32 protocol)
  | _ => none

/-- The fields of a ballot behind its title, which names the vote. -/
def readBallot? (vote : Vote) : List PromptField → Option Consent
  | [⟨_, .contract source⟩, ⟨_, .protocolHash protocol⟩, ⟨_, .number period⟩] =>
      some (.ballot source period.toUInt32 protocol vote)
  | _ => none

/-- The delegate of a new contract, and whether it can be changed. -/
def readDelegate? : PromptField → Option (Bool × Option Contract)
  | ⟨"Delegate", .contract account⟩ => some (true, some account)
  | ⟨"Delegate", .text "Any"⟩ => some (true, none)
  | ⟨"Fixed Delegate", .contract account⟩ => some (false, some account)
  | ⟨"Delegation", .text "Disabled"⟩ => some (false, none)
  | _ => none

/-- The fields of an origination behind its title. -/
def readOrigination? : List PromptField → Option Consent
  | [⟨_, .amount amount⟩, ⟨_, .amount fee⟩, ⟨_, .contract source⟩, ⟨_, manager⟩, delegate,
      ⟨_, .number limit⟩] => do
      let manager ← manager.account?
      let (delegatable, delegate) ← readDelegate? delegate
      return .origination source { fee := fee, storageLimit := limit } amount manager delegatable
        delegate
  | _ => none

/-- The fields of a delegation behind its title. -/
def readDelegation? (viaManager : Bool) : List PromptField → Option Consent
  | [⟨_, .amount fee⟩, ⟨_, .contract source⟩, ⟨_, delegate⟩, ⟨_, .number limit⟩] => do
      let delegate ← delegate.account?
      return .delegation source { fee := fee, storageLimit := limit } delegate viaManager
  | _ => none

/-- The fields of a transaction behind its title. -/
def readTransaction? (viaManager : Bool) : List PromptField → Option Consent
  | [⟨_, .amount amount⟩, ⟨_, .amount fee⟩, ⟨_, .contract source⟩, ⟨_, destination⟩,
      ⟨_, .number limit⟩] => do
      let destination ← destination.account?
      return .transaction source { fee := fee, storageLimit := limit } amount destination viaManager
  | _ => none

/-- Find in the fields of a prompt what the operator is asked to consent to. -/
def read? : List PromptField → Option Consent
  | ⟨"Reveal Key", .text "To Blockchain"⟩ :: fields => readReveal? fields
  | ⟨"Confirm Vote", .text vote⟩ :: fields => do
      let vote ← Labelled.ofLabel? vote
      readBallot? vote fields
  | ⟨"Confirm", .text "Proposal"⟩ :: fields => readProposal? fields
  | ⟨"Confirm", .text "Origination"⟩ :: fields => readOrigination? fields
  | ⟨_, .text "Delegation"⟩ :: fields => readDelegation? false fields
  | ⟨_, .text "Mgr.tz Delegation"⟩ :: fields => readDelegation? true fields
  | ⟨_, .text "Transaction"⟩ :: fields => readTransaction? false fields
  | ⟨_, .text "Mgr.tz Transaction"⟩ :: fields => readTransaction? true fields
  | _ => none

variable {group : OperationGroup} {consent : Consent}

@[simp] theorem account?_contractOrNone (account : Option Contract) :
    (Prompt.contractOrNone account).account? = some account := by
  cases account <;> rfl

@[simp] theorem readDelegate?_delegateField (operation : Operation) :
    readDelegate? (Prompt.delegateField operation) =
      some (operation.delegatable, operation.delegate) := by
  unfold Prompt.delegateField
  split <;> rename_i delegatable delegate <;> rw [delegatable, delegate] <;> rfl

@[simp] theorem ofLabel?_label (vote : Vote) :
    Labelled.ofLabel? (Labelled.label vote) = some vote := by
  cases vote <;> rfl

/-- The title of a delegation tells the manner, under either label. -/
theorem read?_delegationFields {title : String} (titled : title = "Confirm" ∨ title = "Withdraw") :
    read? (Prompt.delegationFields group title) =
      some (.delegation group.operation.source group.costs group.operation.destination
        group.operation.viaManager) := by
  have behind : read? (Prompt.delegationFields group title) =
      readDelegation? group.operation.viaManager (Prompt.delegationFields group title).tail := by
    rcases titled with rfl | rfl <;> simp only [Prompt.delegationFields, Prompt.manner] <;>
      cases group.operation.viaManager <;> rfl
  rw [behind, Prompt.delegationFields, List.tail_cons, readDelegation?, account?_contractOrNone]
  rfl

theorem read?_transactionFields :
    read? (Prompt.transactionFields group) =
      some (.transaction group.operation.source group.costs group.operation.amount
        group.operation.destination group.operation.viaManager) := by
  have behind : read? (Prompt.transactionFields group) =
      readTransaction? group.operation.viaManager (Prompt.transactionFields group).tail := by
    unfold Prompt.transactionFields Prompt.manner
    cases group.operation.viaManager <;> rfl
  rw [behind, Prompt.transactionFields, List.tail_cons, readTransaction?, account?_contractOrNone]
  rfl

theorem read?_originationFields :
    read? (Prompt.originationFields group) =
      some (.origination group.operation.source group.costs group.operation.amount
        group.operation.destination group.operation.delegatable group.operation.delegate) := by
  have behind : read? (Prompt.originationFields group) =
      readOrigination? (Prompt.originationFields group).tail := rfl
  rw [behind, Prompt.originationFields, List.tail_cons, readOrigination?, account?_contractOrNone,
    readDelegate?_delegateField]
  rfl

theorem read?_proposalFields {governance : Governance} :
    read? (Prompt.proposalFields group governance) =
      some (.proposal group.operation.source governance.votingPeriod governance.protocolHash) := by
  have behind : read? (Prompt.proposalFields group governance) =
      some (.proposal group.operation.source governance.votingPeriod.toUInt64.toUInt32
        governance.protocolHash) := rfl
  rw [behind, UInt32.toUInt32_toUInt64]

theorem read?_ballotFields {governance : Governance} {vote : Vote} :
    read? (Prompt.ballotFields group governance vote) =
      some (.ballot group.operation.source governance.votingPeriod governance.protocolHash
        vote) := by
  have behind : read? (Prompt.ballotFields group governance vote) =
      (Labelled.ofLabel? (Labelled.label vote)).bind fun vote =>
        some (.ballot group.operation.source governance.votingPeriod.toUInt64.toUInt32
          governance.protocolHash vote) := rfl
  rw [behind, ofLabel?_label, UInt32.toUInt32_toUInt64, Option.bind_some]

/-- What the operator has to know of an operation is found in the fields that it is shown by. -/
theorem exists_read {kind : PromptKind} {fields : List PromptField}
    (shows : Prompt.Shows group kind fields) :
    ∃ consent, read? fields = some consent ∧ consent.Describes group := by
  cases shows with
  | reveal family => exact ⟨_, rfl, family, rfl, rfl⟩
  | proposal family governed =>
    exact ⟨_, read?_proposalFields, family, rfl, _, governed, rfl, rfl⟩
  | ballot family governed voted =>
    exact ⟨_, read?_ballotFields, family, rfl, _, governed, rfl, rfl, voted⟩
  | origination family spendable =>
    exact ⟨_, read?_originationFields, family, rfl, rfl, rfl, rfl, spendable, rfl, rfl⟩
  | delegation family => exact ⟨_, read?_delegationFields (.inl rfl), family, rfl, rfl, rfl, rfl⟩
  | withdrawal family => exact ⟨_, read?_delegationFields (.inr rfl), family, rfl, rfl, rfl, rfl⟩
  | transaction family => exact ⟨_, read?_transactionFields, family, rfl, rfl, rfl, rfl, rfl⟩

end Consent

namespace Prompt

variable {group : OperationGroup} {prompt : Prompt}

/-- A prompt for an operation group is never mistaken for one that knows less of it. -/
theorem operation?_fields_ne (shown : operation? group = some prompt) :
    (∀ hash, prompt.fields ≠ (rawHash hash).fields) ∧ prompt.fields ≠ preHashed.fields ∧
      ∀ other, prompt.fields ≠ (registerDelegate other).fields := by
  obtain ⟨consent, read, _⟩ :=
    Consent.exists_read (shows_of_template? (template?_of_operation? shown))
  refine ⟨fun hash same => ?_, fun same => ?_, fun other same => ?_⟩ <;>
  · rw [same] at read
    cases read

/-- The fields of an operation prompt determine what the operator consents to: groups that are
shown by the same fields ask for the same consent, whatever the kinds of their prompts, and no
other prompt for a signature has these fields.  They are all the fields of the template, no label
stands twice among them, and the value of each is the one that is found beside its label. -/
theorem operation_determines_consent (shown : operation? group = some prompt) :
    (∀ other prompt', operation? other = some prompt' → prompt'.fields = prompt.fields →
      ∃ consent : Consent, consent.Describes group ∧ consent.Describes other) ∧
    (∀ hash, prompt.fields ≠ (rawHash hash).fields) ∧ prompt.fields ≠ preHashed.fields ∧
    (∀ other, prompt.fields ≠ (registerDelegate other).fields) ∧
    template? group = some (prompt.kind, prompt.fields) ∧
    (prompt.fields.map (·.label)).Nodup ∧
    ∀ field ∈ prompt.fields, prompt.value? field.label = some field.value := by
  have template := template?_of_operation? shown
  have shows := shows_of_template? template
  obtain ⟨unhashed, unmessaged, unregistered⟩ := operation?_fields_ne shown
  refine ⟨?_, unhashed, unmessaged, unregistered, template, shows.labels_nodup,
    fun field => value?_of_mem shows.labels_nodup⟩
  intro other prompt' shown' same
  obtain ⟨consent, read, describes⟩ := Consent.exists_read shows
  obtain ⟨consent', read', describes'⟩ :=
    Consent.exists_read (shows_of_template? (template?_of_operation? shown'))
  rw [same, read] at read'
  cases read'
  exact ⟨consent, describes, describes'⟩

/-- A delegate that is withdrawn through the manager contract. -/
def managedWithdrawal (tag : OperationTag) : OperationGroup :=
  let account : Contract :=
    { originated := true, curve := none, hash := Vector.replicate 20 0x11 }
  { signing := { originated := false, curve := some .ed25519, hash := Vector.replicate 20 0x22 }
    operation :=
      { tag := tag
        source := account
        destination := none
        delegate := none
        amount := 0
        spendable := false
        delegatable := false
        viaManager := true
        governance := none }
    totalFee := 1420
    totalStorageLimit := 257 }

/-- The operator is not shown for which generation of operations a withdrawal is written. -/
theorem either_withdrawal_consented :
    ∃ prompt prompt', operation? (managedWithdrawal .athensDelegation) = some prompt ∧
      operation? (managedWithdrawal .babylonDelegation) = some prompt' ∧
      prompt'.fields = prompt.fields ∧
      prompt.value? "Withdraw" = some (.text "Mgr.tz Delegation") ∧
      ∃ consent : Consent, consent.Describes (managedWithdrawal .athensDelegation) ∧
        consent.Describes (managedWithdrawal .babylonDelegation) := by
  refine ⟨_, _, rfl, rfl, rfl, rfl, ?_⟩
  exact (operation_determines_consent rfl).1 _ _ rfl rfl

end Prompt

end TezosSigner
