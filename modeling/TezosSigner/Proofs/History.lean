/-
Module: TezosSigner.Proofs.History
Purpose: What a history of happenings tells about the request that a device has under way.
Main exports:
  Happening.accepted?, Device.happens_command_iff, Device.exists_happens,
  Device.Run.concat_induction, Device.Happens.completes, SigningRequest, Progress,
  Progress.ofHistory, Gathers, Submits, Submits.unique
-/
import Mathlib.Data.List.Induction
import TezosSigner.Device
import TezosSigner.Proofs.Steps

namespace TezosSigner

namespace Happening

/-- The input that is taken. -/
def input : Happening → Input
  | .step taken _ _ => taken
  | .powerCut taken _ => taken

/-- The exchanges that are made with the platform. -/
def exchanges : Happening → List Exchange
  | .step _ made _ => made
  | .powerCut _ made => made

/-- The command that the input brings. -/
def command? (happening : Happening) : Option Command :=
  happening.input.command?

/-- The command that was obeyed. -/
def accepted? : Happening → Option Command
  | .step taken _ (some (.ok _)) => taken.command?
  | _ => none

end Happening

namespace Device

variable {device next first last : Device} {happening : Happening}

/-- A step that was answered is one that the signer can make. -/
theorem Happens.steps {input : Input} {exchanges : List Exchange}
    {answer : Option (Except SignerError Answer)}
    (happens : Happens device (.step input exchanges answer) next) :
    device.signer.Steps device.record input exchanges answer next.signer ∧
      next.record = device.record.after exchanges := by
  cases happens with
  | step yields => exact ⟨Signer.steps_of_yields yields, rfl⟩

/-- A step by a command performs the command, whatever becomes of it. -/
theorem happens_command_iff {signer : Signer} {record : Record} {input : Input}
    {command : Command} {exchanges : List Exchange} {answer : Option (Except SignerError Answer)}
    (read : input.command? = some command) :
    Happens { signer := signer, record := record } (.step input exchanges answer) next ↔
      ∃ outcome, (signer.perform (BakingState.decode record) command).Yields exchanges outcome ∧
        answer = some (signer.settled outcome).1 ∧
        next = { signer := (signer.settled outcome).2, record := record.after exchanges } := by
  constructor
  · intro happens
    cases happens with
    | step yields =>
      obtain ⟨outcome, performs, rfl, rfl⟩ := (Signer.step_command_iff read).1 yields
      exact ⟨outcome, performs, rfl, rfl⟩
  · rintro ⟨outcome, performs, rfl, rfl⟩
    exact .step ((Signer.step_command_iff read).2 ⟨outcome, performs, rfl, rfl⟩)

/-- A step depends on its input only through the command that is read from it. -/
theorem happens_read_iff {input : Input} {command : Command} {exchanges : List Exchange}
    {answer : Option (Except SignerError Answer)} (read : input.command? = some command) :
    Happens device (.step input exchanges answer) next ↔
      Happens device (.step (.command command) exchanges answer) next :=
  (happens_command_iff read).trans (happens_command_iff rfl).symm

/-- Whatever a device is given, there is a step on every platform. -/
theorem exists_happens (platform : (call : Call) → call.Reply) (device : Device)
    (input : Input) :
    ∃ exchanges answer next, Happens device (.step input exchanges answer) next ∧
      ∀ exchange ∈ exchanges, exchange.reply = platform exchange.call := by
  obtain ⟨exchanges, ⟨answer, next⟩, yields, replied⟩ :=
    Dialog.exists_yields_by platform (device.signer.step device.record input)
  exact ⟨exchanges, answer, _, .step yields, replied⟩

/-- Whatever happens is the beginning of a step that the signer can make. -/
theorem Happens.completes (happens : Happens device happening next) :
    (∃ rest answer after, device.signer.Steps device.record happening.input
        (happening.exchanges ++ rest) answer after) ∧
      next.record = device.record.after happening.exchanges := by
  cases happens with
  | @step signer after record input exchanges answer yields =>
    refine ⟨⟨[], answer, after, ?_⟩, rfl⟩
    rw [List.append_nil]
    exact Signer.steps_of_yields yields
  | powerCut begins =>
    obtain ⟨rest, ⟨answer, after⟩, yields⟩ := Dialog.begins_iff.1 begins
    exact ⟨⟨rest, answer, after, Signer.steps_of_yields yields⟩, rfl⟩

/-- A command that was accepted was performed. -/
theorem Happens.performs {command : Command} (happens : Happens device happening next)
    (accepted : happening.accepted? = some command) :
    ∃ answer, happening = .step happening.input happening.exchanges (some (.ok answer)) ∧
      device.signer.Performs (BakingState.decode device.record) command happening.exchanges
        (.ok (answer, next.signer)) := by
  unfold Happening.accepted? at accepted
  split at accepted
  · rename_i input exchanges answer
    obtain ⟨steps, _⟩ := happens.steps
    generalize next.signer = after at steps ⊢
    cases steps with
    | obeyed read performs =>
      rw [accepted] at read
      cases read
      exact ⟨answer, rfl, performs⟩
    | confirmed _ _ => cases accepted
    | rejected _ => cases accepted
  · cases accepted

theorem Run.single (happens : Happens device happening next) :
    Run device [happening] next :=
  .cons happens (.nil next)

theorem run_pair_iff {second : Happening} :
    Run first [happening, second] last ↔
      ∃ middle, Happens first happening middle ∧ Happens middle second last := by
  constructor
  · intro run
    cases run with
    | cons head tail =>
      cases tail with
      | cons more rest =>
        cases rest
        exact ⟨_, head, more⟩
  · rintro ⟨middle, head, more⟩
    exact .cons head (.single more)

theorem run_concat_iff {history : List Happening} :
    Run first (history ++ [happening]) last ↔
      ∃ middle, Run first history middle ∧ Happens middle happening last := by
  rw [run_append_iff]
  constructor
  · rintro ⟨middle, before, single⟩
    cases single with
    | cons head tail =>
      cases tail
      exact ⟨middle, before, head⟩
  · rintro ⟨middle, before, happens⟩
    exact ⟨middle, before, .single happens⟩

/-- What holds at the start and is kept by every happening holds after every run. -/
theorem Run.concat_induction {start : Device} {motive : List Happening → Device → Prop}
    (nil : motive [] start)
    (concat : ∀ {history : List Happening} {middle last : Device} {happening : Happening},
      Run start history middle → motive history middle → Happens middle happening last →
        motive (history ++ [happening]) last)
    {history : List Happening} {last : Device} (run : Run start history last) :
    motive history last := by
  induction history using List.reverseRecOn generalizing last with
  | nil =>
    cases run
    exact nil
  | append_singleton history happening ih =>
    obtain ⟨middle, before, happens⟩ := run_concat_iff.1 run
    exact concat before (ih before) happens

end Device

/-!
## What is under way

An observer who sees the inputs, the exchanges and the answers of a device knows what it
has under way, without a look inside.  An accepted first packet opens a signing request,
and each accepted data packet adds to it; the answer tells whether the operator is being
asked.  The queries, and the command that does nothing, leave it alone.  Whatever else
happens ends it.
-/

/-- A data packet that was taken, with the exchanges that were made for it. -/
structure DataPacket where
  control : PacketControl
  data : Bytes
  exchanges : List Exchange

/-- A signing request, as far as it has come. -/
structure SigningRequest where
  instruction : Instruction
  key : KeyPath
  packets : List DataPacket

namespace SigningRequest

/-- The bytes of all data packets. -/
def message (request : SigningRequest) : Bytes :=
  request.packets.flatMap (·.data)

/-- The request with one more data packet. -/
def push (request : SigningRequest) (packet : DataPacket) : SigningRequest :=
  { request with packets := request.packets ++ [packet] }

@[simp] theorem message_singleton (instruction : Instruction) (key : KeyPath)
    (packet : DataPacket) :
    message { instruction := instruction, key := key, packets := [packet] } = packet.data := by
  simp [message]

@[simp] theorem message_push (request : SigningRequest) (packet : DataPacket) :
    (request.push packet).message = request.message ++ packet.data := by
  simp [message, push]

/-- All data packets have come: the last one, and only that, is marked as the last. -/
def IsComplete (request : SigningRequest) : Prop :=
  ∃ front final, request.packets = front ++ [final] ∧
    (∀ packet ∈ front, packet.control.last = false) ∧ final.control.last = true

end SigningRequest

/-- What a device has under way. -/
inductive Progress where
  | nothing
  /-- More data packets of a signing request are to come. -/
  | receiving (request : SigningRequest)
  /-- The operator is being asked about a signing request. -/
  | signing (request : SigningRequest)
  /-- The operator is being asked about another command, for which these exchanges were
  made. -/
  | asked (command : Command) (exchanges : List Exchange)

namespace Progress

/-- What is under way once a data packet was accepted. -/
def pushed (progress : Progress) (packet : DataPacket) (answer : Answer) : Progress :=
  match progress, answer with
  | .receiving request, .none => .receiving (request.push packet)
  | .receiving request, .pending => .signing (request.push packet)
  | _, _ => .nothing

/-- What is under way once a command was accepted. -/
def obeyed (progress : Progress) (command : Command) (exchanges : List Exchange)
    (answer : Answer) : Progress :=
  match command with
  | .none => progress
  | .queryAuthKey => progress
  | .queryHighWaterMark => progress
  | .signFirst instruction key _ =>
      .receiving { instruction := instruction, key := key, packets := [] }
  | .signNext _ control data =>
      progress.pushed { control := control, data := data, exchanges := exchanges } answer
  | .getPublicKey _ => if answer = .pending then .asked command exchanges else .nothing
  | .authorizeBaking _ => .asked command exchanges
  | .resetHighWaterMark _ => .asked command exchanges

/-- What is under way after one more happening. -/
def next (progress : Progress) : Happening → Progress
  | .step input exchanges (some (.ok answer)) =>
      match input.command? with
      | some command => progress.obeyed command exchanges answer
      | none => .nothing
  | _ => .nothing

/-- What is under way after a history. -/
def ofHistory (history : List Happening) : Progress :=
  history.foldl next .nothing

@[simp] theorem ofHistory_nil : ofHistory [] = .nothing := rfl

@[simp] theorem ofHistory_concat (history : List Happening) (happening : Happening) :
    ofHistory (history ++ [happening]) = (ofHistory history).next happening := by
  simp [ofHistory]

end Progress

/-!
## Signing requests in a history

`Submits` finds a signing request in a history without the help of `Progress`: the history
ends with an accepted first packet, the accepted data packets of the same instruction, and
idle commands between and after them.
-/

/-- The commands that leave a signing request alone.  A wallet has no queries. -/
def Mode.Idle : Mode → Command → Prop
  | _, .none => True
  | .baking, .queryAuthKey => True
  | .baking, .queryHighWaterMark => True
  | _, _ => False

/-- A command that leaves a signing request alone leaves everything alone: it is answered
without a call, and the operator is not asked. -/
theorem Device.Happens.eq_of_idle {mode : Mode} {device next : Device} {happening : Happening}
    {command : Command} (happens : Happens device happening next)
    (accepted : happening.accepted? = some command) (idle : mode.Idle command) :
    next = device ∧ ∃ input answer, happening = .step input [] (some (.ok answer)) ∧
      answer ≠ .pending := by
  obtain ⟨answer, shape, performs⟩ := happens.performs accepted
  obtain ⟨_, record⟩ := happens.completes
  obtain ⟨after, stored⟩ := next
  generalize madeEq : happening.exchanges = made at shape performs record
  generalize outcomeEq : Except.ok (answer, after) = outcome at performs
  cases performs with
  | none =>
    cases outcomeEq
    cases record
    exact ⟨rfl, _, _, shape, by simp⟩
  | queryAuthKey baking =>
    cases outcomeEq
    cases record
    exact ⟨rfl, _, _, shape, by simp⟩
  | queryHighWaterMark baking =>
    cases outcomeEq
    cases record
    exact ⟨rfl, _, _, shape, by simp⟩
  | refused => cases outcomeEq
  | keyRefused _ => cases outcomeEq
  | _ => cases mode <;> exact idle.elim

/-- Happenings that are data packets of one instruction or idle commands, and nothing
else. -/
inductive Gathers (mode : Mode) (instruction : Instruction) :
    List Happening → List DataPacket → Prop where
  | nil : Gathers mode instruction [] []
  | idle {happening : Happening} {command : Command} {rest : List Happening}
      {packets : List DataPacket} (accepted : happening.accepted? = some command)
      (idle : mode.Idle command) (more : Gathers mode instruction rest packets) :
      Gathers mode instruction (happening :: rest) packets
  | packet {happening : Happening} {control : PacketControl} {data : Bytes}
      {rest : List Happening} {packets : List DataPacket}
      (accepted : happening.accepted? = some (.signNext instruction control data))
      (more : Gathers mode instruction rest packets) :
      Gathers mode instruction (happening :: rest)
        ({ control := control, data := data, exchanges := happening.exchanges } :: packets)

/-- A happening that opens a signing request. -/
def Happening.Opens (happening : Happening) (instruction : Instruction) (key : KeyPath) : Prop :=
  ∃ control, happening.accepted? = some (.signFirst instruction key control)

/-- A history that ends with a signing request, complete or not. -/
def Submits (mode : Mode) (history : List Happening) (request : SigningRequest) : Prop :=
  ∃ earlier opening later, history = earlier ++ opening :: later ∧
    opening.Opens request.instruction request.key ∧
    Gathers mode request.instruction later request.packets

namespace Gathers

variable {mode : Mode} {instruction : Instruction} {first second : List Happening}
  {one two : List DataPacket}

theorem append (before : Gathers mode instruction first one)
    (after : Gathers mode instruction second two) :
    Gathers mode instruction (first ++ second) (one ++ two) := by
  induction before with
  | nil => exact after
  | idle accepted idle _ ih => exact .idle accepted idle ih
  | packet accepted _ ih => exact .packet accepted ih

theorem not_opens (gathers : Gathers mode instruction first one) :
    ∀ happening ∈ first, ∀ other key, ¬ happening.Opens other key := by
  induction gathers with
  | nil =>
    intro happening impossible
    cases impossible
  | idle accepted idle _ ih =>
    intro happening member other key
    rcases List.mem_cons.1 member with rfl | later
    · rintro ⟨control, opened⟩
      rw [opened] at accepted
      cases accepted
      cases mode <;> exact idle
    · exact ih happening later other key
  | packet accepted _ ih =>
    intro happening member other key
    rcases List.mem_cons.1 member with rfl | later
    · rintro ⟨control, opened⟩
      rw [opened] at accepted
      cases accepted
    · exact ih happening later other key

theorem unique (left : Gathers mode instruction first one)
    (right : Gathers mode instruction first two) : one = two := by
  induction left generalizing two with
  | nil =>
    cases right
    rfl
  | idle accepted idle _ ih =>
    cases right with
    | idle _ _ more => exact ih more
    | packet other _ =>
      rw [other] at accepted
      cases accepted
      cases mode <;> exact idle.elim
  | packet accepted _ ih =>
    cases right with
    | idle other idle _ =>
      rw [accepted] at other
      cases other
      cases mode <;> exact idle.elim
    | packet other more =>
      rw [accepted] at other
      cases other
      rw [ih more]

end Gathers

namespace Submits

variable {mode : Mode} {history : List Happening} {request one two : SigningRequest}
  {happening : Happening}

theorem opened {instruction : Instruction} {key : KeyPath}
    (opens : happening.Opens instruction key) :
    Submits mode (history ++ [happening])
      { instruction := instruction, key := key, packets := [] } :=
  ⟨history, happening, [], rfl, opens, .nil⟩

/-- What comes after a request and gathers more packets for it makes it a longer request. -/
theorem gathered {later : List Happening} {packets : List DataPacket}
    (submits : Submits mode history request)
    (more : Gathers mode request.instruction later packets) :
    Submits mode (history ++ later) { request with packets := request.packets ++ packets } := by
  obtain ⟨earlier, opening, between, rfl, opens, gathers⟩ := submits
  refine ⟨earlier, opening, between ++ later, ?_, opens, gathers.append more⟩
  simp

theorem idled {command : Command} (submits : Submits mode history request)
    (accepted : happening.accepted? = some command) (idle : mode.Idle command) :
    Submits mode (history ++ [happening]) request := by
  have longer := submits.gathered (.idle accepted idle .nil)
  simpa using longer

theorem pushed {control : PacketControl} {data : Bytes} (submits : Submits mode history request)
    (accepted : happening.accepted? = some (.signNext request.instruction control data)) :
    Submits mode (history ++ [happening])
      (request.push { control := control, data := data, exchanges := happening.exchanges }) :=
  submits.gathered (.packet accepted .nil)

/-- The opening of the request that a history ends with is the last one in it. -/
private theorem opening_unique {early early' later later' : List Happening}
    {opening opening' : Happening} {instruction : Instruction} {key : KeyPath}
    (same : early ++ opening :: later = early' ++ opening' :: later')
    (opens : opening'.Opens instruction key)
    (last : ∀ happening ∈ later, ∀ other key, ¬ happening.Opens other key)
    (shorter : early.length ≤ early'.length) :
    opening = opening' ∧ later = later' := by
  rcases List.append_eq_append_iff.1 same with ⟨between, rfl, tails⟩ | ⟨between, rfl, tails⟩
  · cases between with
    | nil =>
      cases tails
      exact ⟨rfl, rfl⟩
    | cons first between =>
      cases tails
      exact absurd opens (last opening' (by simp) instruction key)
  · cases between with
    | nil =>
      cases tails
      exact ⟨rfl, rfl⟩
    | cons first between =>
      simp only [List.length_append, List.length_cons] at shorter
      omega

/-- A history ends with one signing request at most. -/
theorem unique (left : Submits mode history one) (right : Submits mode history two) :
    one = two := by
  obtain ⟨early, opening, later, rfl, ⟨control, opens⟩, gathers⟩ := left
  obtain ⟨early', opening', later', same, ⟨control', opens'⟩, gathers'⟩ := right
  -- Of two openings the later one would be among the packets of the other request.
  have aligned : opening = opening' ∧ later = later' := by
    rcases Nat.le_total early.length early'.length with shorter | longer
    · exact opening_unique same ⟨control', opens'⟩ gathers.not_opens shorter
    · obtain ⟨eq, eq'⟩ := opening_unique same.symm ⟨control, opens⟩ gathers'.not_opens longer
      exact ⟨eq.symm, eq'.symm⟩
  obtain ⟨rfl, rfl⟩ := aligned
  rcases one with ⟨instruction, key, packets⟩
  rcases two with ⟨instruction', key', packets'⟩
  rw [opens] at opens'
  cases opens'
  have samePackets : packets = packets' := gathers.unique gathers'
  rw [samePackets]

end Submits

end TezosSigner
