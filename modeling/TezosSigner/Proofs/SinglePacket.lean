/-
Module: TezosSigner.Proofs.SinglePacket
Purpose: Requests of a single data packet that go through, in both modes.
Main exports:
  SignReply.answer, Session.opened, Session.taken, Signer.perform_opening_eq,
  Signer.perform_opening_of_classified, Device.Run.bakes, Device.Run.bakes_block,
  Device.Run.signs_operation
-/
import TezosSigner.Proofs.RecordCodec
import TezosSigner.Proofs.PayloadGrammar
import TezosSigner.Proofs.SigningCalls

namespace TezosSigner

/-!
The guards refuse nothing that they should let pass.  Whatever a baking device was doing,
the two packets of a request for a block or an endorsement beyond the mark make it sign and
move the mark, if the platform signs and stores.  Whatever a wallet was doing, the two
packets of a request for an operation make it ask the operator, and sign once they confirm.
-/

/-- What a request of a single data packet is answered, if the platform has replied like this. -/
def SignReply.answer (reply : SignReply) (instruction : Instruction) (key : KeyPath)
    (data : Bytes) : Answer :=
  .signature (if instruction = .signWithHash then some (Blake2b.hash data) else none)
    (reply.signature key.curve)

namespace Session

/-- A session as it is opened. -/
def opened (instruction : Instruction) (key : KeyPath) : Session :=
  { instruction := instruction
    key := key
    packets := 0
    message := MessageBuffer.empty
    finalHash := none
    magic := .invalid
    parsed := .invalid
    hashOnly := false }

/-- A hashed session that has taken a single data packet and understood it like this. -/
def taken (instruction : Instruction) (key : KeyPath) (data : Bytes) (parsed : Parsed) : Session :=
  { opened instruction key with
    packets := 1
    message := { hashed := some Blake2b.Stream.empty, pending := data }
    magic := Magic.ofPayload data
    parsed := parsed }

variable {instruction : Instruction} {key : KeyPath} {data : Bytes} {parsed : Parsed}

theorem isHashing_opened (hashed : instruction = .sign ∨ instruction = .signWithHash) :
    (opened instruction key).isHashing = true := by
  rcases hashed with rfl | rfl <;> rfl

theorem start_eq (signing : instruction.isSigning = true) (key : KeyPath) :
    start instruction key = .ok (opened instruction key) := by
  rw [start, if_pos signing]
  rfl

/-- The first bytes of a hashed message stay in the buffer, if it has room for them. -/
theorem append_taken (hashing : (opened instruction key).isHashing = true)
    (room : data.length ≤ MessageBuffer.capacity) :
    append
      (classifyAs { opened instruction key with packets := 1 } (Magic.ofPayload data) parsed)
      data = (.ok (), taken instruction key data parsed) := by
  generalize sessionEq : classifyAs { opened instruction key with packets := 1 }
    (Magic.ofPayload data) parsed = session
  have hashes : session.isHashing = true := sessionEq ▸ hashing
  have empty : session.message = MessageBuffer.empty := sessionEq ▸ rfl
  have absorbed : session.absorb = { session with
      message := { hashed := some Blake2b.Stream.empty, pending := [] } } := by
    rw [absorb, if_pos hashes, empty, MessageBuffer.absorb,
      MessageBuffer.absorbBlocks_of_le (by simp [MessageBuffer.empty])]
    rfl
  have appended : MessageBuffer.append?
      { hashed := some Blake2b.Stream.empty, pending := [] } data =
        some { hashed := some Blake2b.Stream.empty, pending := data } := by
    rw [MessageBuffer.append?, if_pos (by simpa using room), List.nil_append]
  rw [append, absorbed, appended, ← sessionEq]
  rfl

/-- The hash of the data packet is the hash of the finished session. -/
theorem finalHash_taken (hashing : (opened instruction key).isHashing = true) :
    (taken instruction key data parsed).finish.finalHash = some (Blake2b.hash data) := by
  have hashes : (taken instruction key data parsed).isHashing = true := hashing
  rw [finish_of_hashing hashes, ← Blake2b.Stream.digest_absorb]
  rfl

theorem toSign?_taken (hashing : (opened instruction key).isHashing = true) :
    (taken instruction key data parsed).finish.toSign? = some (Blake2b.hash data).toList := by
  have hashes : (taken instruction key data parsed).isHashing = true := hashing
  have unflagged : (taken instruction key data parsed).hashOnly = false := rfl
  have finished : (taken instruction key data parsed).finish.finalHash = _ :=
    finalHash_taken hashing
  simp only [toSign?, isHashing_finish, hashOnly_finish, hashes, unflagged, finished, if_true,
    Bool.false_eq_true, if_false, Option.map_some]

theorem sentHash?_taken (hashing : (opened instruction key).isHashing = true) :
    (taken instruction key data parsed).finish.sentHash? =
      if instruction = .signWithHash then some (Blake2b.hash data) else none := by
  rw [sentHash?, finalHash_taken hashing, emitsHash, instruction_finish]
  simp [taken, opened]

/-- The session of a single data packet is signed, if the platform replies with a signature
that fits. -/
theorem taken_signs {reply : SignReply} (hashed : instruction = .sign ∨ instruction = .signWithHash)
    (fits : 0 < reply.length ∧ reply.length ≤ maxSignature) :
    (taken instruction key data parsed).finish.sign.Yields
      [⟨.sign key (Blake2b.hash data).toList, .ok reply⟩]
      (.ok (reply.answer instruction key data)) := by
  have hashing : (opened instruction key).isHashing = true := isHashing_opened hashed
  have asked : (taken instruction key data parsed).finish.toSign? =
      some (Blake2b.hash data).toList := toSign?_taken hashing
  have signs := sign_yields asked (signatureOf_of_fits fits)
  rw [key_finish, sentHash?_taken hashing] at signs
  exact signs

end Session

namespace Mode

variable {session : Session} {data : Bytes}

/-- A block or an endorsement is classified by its own bytes. -/
theorem classify_payload_eq (hashing : session.isHashing = true)
    (kind : (Magic.ofPayload data).isBaking = true) :
    Mode.baking.classify session 1 data =
      pure (session.classifyAs (Magic.ofPayload data) (Parsed.ofPayload data)) := by
  rw [classify, if_pos hashing, classifyForBaking, if_neg (by simp),
    if_pos (Magic.isAllowed_of_isBaking kind), if_pos kind, Parsed.ofPayload]
  cases BakingPayload.ofBytes? data <;> rfl

/-- A baking device has the first data packet of an operation read. -/
theorem classify_operations_eq (hashing : session.isHashing = true)
    (kind : Magic.ofPayload data = .unsafeOp) :
    Mode.baking.classify session 1 data = (do
      let parsed ← Mode.baking.readOperations session data
      pure (session.classifyAs (Magic.ofPayload data) parsed)) := by
  rw [classify, if_pos hashing]
  simp only [classifyForBaking]
  rw [if_neg (by simp), if_pos (by rw [kind]; rfl), if_neg (by rw [kind]; decide)]

/-- In both modes, a first data packet of no kind that is signed is refused at once. -/
theorem classify_unknown_eq {mode : Mode} (hashing : session.isHashing = true)
    (unknown : (Magic.ofPayload data).isAllowed mode = false) :
    mode.classify session 1 data = throw .parseError := by
  cases mode with
  | wallet =>
    rw [classify, if_pos hashing]
    simp only [classifyForWallet]
    rw [if_neg (by simp), if_neg (by simp [unknown])]
  | baking =>
    rw [classify, if_pos hashing]
    simp only [classifyForBaking]
    rw [if_neg (by simp), if_neg (by simp [unknown])]

/-- A wallet has the first data packet read. -/
theorem classify_wallet_eq (hashing : session.isHashing = true)
    (allowed : (Magic.ofPayload data).isAllowed .wallet = true) :
    Mode.wallet.classify session 1 data = (do
      let parsed ← Mode.wallet.readOperations session data
      pure (session.classifyAs (Magic.ofPayload data) parsed)) := by
  rw [classify, if_pos hashing]
  simp only [classifyForWallet]
  rw [if_neg (by simp), if_pos allowed]

/-- An operation that there is a prompt for is shown by it. -/
theorem completeForWallet_understood {group : OperationGroup} {shown : Prompt} {hash : Digest}
    (hashing : session.isHashing = true) (finished : session.finalHash = some hash)
    (kind : session.magic = .unsafeOp) (parsed : session.parsed = .operations group)
    (template : Prompt.operation? group = some shown) :
    completeForWallet session = .ok (.awaits { prompt := shown, action := .sign session }) := by
  have chosen : walletPrompt session hash = .ok shown := by
    rw [walletPrompt, kind, parsed]
    simp only [template, Option.getD_some]
  rw [completeForWallet, if_pos hashing, finished]
  simp only [chosen]
  rfl

end Mode

namespace Signer

variable {signer : Signer} {state : BakingState} {instruction : Instruction} {key : KeyPath}
  {data : Bytes}

/-- The signer once a request was opened. -/
def opening (signer : Signer) (instruction : Instruction) (key : KeyPath) : Signer :=
  { signer.discard with session := some (.opened instruction key), status := .receiving 0 }

/-- A request for a hashed signature can be opened at any time. -/
theorem perform_signFirst_eq {control : PacketControl}
    (hashed : instruction = .sign ∨ instruction = .signWithHash) (more : control.last = false) :
    signer.perform state (.signFirst instruction key control) =
      pure (.none, signer.opening instruction key) := by
  have signing : instruction.isSigning = true := by
    rcases hashed with rfl | rfl <;> rfl
  rw [perform, if_pos (by rcases hashed with rfl | rfl <;> rfl)]
  simp only [signFirst, more, Session.start_eq signing]
  rfl

theorem signFirst_opens (hashed : instruction = .sign ∨ instruction = .signWithHash) :
    (signer.perform state (.signFirst instruction key { kind := .first, last := false })).Yields
      [] (.ok (.none, signer.opening instruction key)) := by
  rw [perform_signFirst_eq hashed rfl]
  exact Act.yields_pure_iff.2 ⟨rfl, rfl⟩

/-- The single data packet of a request is classified, and the session that takes it is
completed. -/
theorem perform_opening_eq (hashed : instruction = .sign ∨ instruction = .signWithHash) :
    (signer.opening instruction key).perform state
        (.signNext instruction { kind := .next, last := true } data) = (do
      let session ← signer.config.mode.classify
        { Session.opened instruction key with packets := 1 } 1 data
      Act.ofExcept (session.append data).1
      let completion ← signer.config.mode.complete state (session.append data).2.finish
      pure ((signer.opening instruction key).concluded completion)) := by
  have continues : (signer.opening instruction key).Continues instruction
      { kind := .next, last := true } (.opened instruction key) :=
    { held := rfl, same := rfl, permitted := by simp }
  have single : (Session.opened instruction key).counted .next =
      { Session.opened instruction key with packets := 1 } := rfl
  have empty : (Session.opened instruction key).packets = 0 := rfl
  rw [perform, if_pos (by rcases hashed with rfl | rfl <;> rfl)]
  simp only [signNext_of_room continues (by simp) (by rw [empty]; decide), single, if_true]
  rfl

/-- A single data packet that is classified is taken whole. -/
theorem perform_opening_of_classified (act : Act Parsed)
    (hashed : instruction = .sign ∨ instruction = .signWithHash)
    (room : data.length ≤ MessageBuffer.capacity)
    (classified : signer.config.mode.classify
      { Session.opened instruction key with packets := 1 } 1 data = (do
        let parsed ← act
        pure (Session.classifyAs { Session.opened instruction key with packets := 1 }
          (Magic.ofPayload data) parsed))) :
    (signer.opening instruction key).perform state
        (.signNext instruction { kind := .next, last := true } data) = (do
      let completion ← act >>= fun parsed =>
        signer.config.mode.complete state (Session.taken instruction key data parsed).finish
      pure ((signer.opening instruction key).concluded completion)) := by
  rw [perform_opening_eq hashed, classified, bind_assoc, bind_assoc]
  refine bind_congr fun parsed => ?_
  rw [pure_bind, Session.append_taken (Session.isHashing_opened hashed) room]
  rfl

/-- An operation that the platform reads and that there is a prompt for makes a wallet ask the
operator. -/
theorem opening_asks {group : OperationGroup} {shown : Prompt}
    (wallet : signer.config.mode = .wallet)
    (hashed : instruction = .sign ∨ instruction = .signWithHash)
    (room : data.length ≤ MessageBuffer.capacity) (leading : data.head? = some 0x03)
    (template : Prompt.operation? group = some shown) :
    ((signer.opening instruction key).perform state
      (.signNext instruction { kind := .next, last := true } data)).Yields
        [⟨.parse key data Mode.wallet.acceptedTags, some group⟩]
        (.ok ((signer.opening instruction key).concluded (.awaits
          { prompt := shown
            action :=
              .sign (Session.taken instruction key data (.operations group)).finish }))) := by
  have kind := Magic.ofPayload_eq_unsafeOp_iff.2 leading
  have hashing : (Session.opened instruction key).isHashing = true :=
    Session.isHashing_opened hashed
  have finishedHashing :
      (Session.taken instruction key data (.operations group)).finish.isHashing = true := by
    rw [Session.isHashing_finish]
    exact hashing
  have finishedKind :
      (Session.taken instruction key data (.operations group)).finish.magic = .unsafeOp := by
    rw [Session.magic_finish]
    exact kind
  have completed := Mode.completeForWallet_understood finishedHashing
    (Session.finalHash_taken hashing) finishedKind Session.parsed_finish template
  rw [perform_opening_of_classified _ hashed room
    (by rw [wallet]; exact Mode.classify_wallet_eq hashing (by rw [kind]; rfl)), wallet]
  refine Act.yields_bind_pure_iff.2 ⟨.ok _, ?_, rfl⟩
  exact Act.Yields.bind (Mode.readOperations_yields_iff.2 ⟨some group, rfl, rfl⟩)
    (Act.yields_ofExcept_iff.2 ⟨rfl, completed.symm⟩)

end Signer

namespace Device

variable {signer : Signer} {record : Record} {instruction : Instruction} {key : KeyPath}
  {data : Bytes} {payload : BakingPayload} {reply : SignReply}

/-- The happenings of a request of a single data packet. -/
def singlePacket (instruction : Instruction) (key : KeyPath) (data : Bytes)
    (exchanges : List Exchange) (answer : Answer) : List Happening :=
  [.step (.command (.signFirst instruction key { kind := .first, last := false })) []
      (some (.ok .none)),
    .step (.command (.signNext instruction { kind := .next, last := true } data)) exchanges
      (some (.ok answer))]

/-- Whatever a device was doing, a request for a hashed signature can be opened. -/
theorem Happens.opens (hashed : instruction = .sign ∨ instruction = .signWithHash) :
    Happens { signer := signer, record := record }
      (.step (.command (.signFirst instruction key { kind := .first, last := false })) []
        (some (.ok .none)))
      { signer := signer.opening instruction key, record := record } :=
  .step (Signer.step_command_yields (Signer.signFirst_opens hashed))

/-- Whatever a baking device was doing, it signs a block or an endorsement that is well formed
and beyond its mark under the authorized key, and moves the mark to it. -/
theorem Run.bakes (baking : signer.config.mode = .baking)
    (hashed : instruction = .sign ∨ instruction = .signWithHash)
    (room : data.length ≤ MessageBuffer.capacity)
    (holds : BakingPayload.ofBytes? data = some payload)
    (authorized : (BakingState.decode record).authorizes key = true)
    (permitted : (BakingState.decode record).permits payload.mark = true)
    (fits : 0 < reply.length ∧ reply.length ≤ maxSignature) :
    Run { signer := signer, record := record }
      (singlePacket instruction key data
        [⟨.sign key (Blake2b.hash data).toList, .ok reply⟩,
          ⟨.store { BakingState.decode record with mark := payload.mark }.encode, .ok ()⟩]
        (reply.answer instruction key data))
      { signer := { signer.discard with status := .complete }
        record := { BakingState.decode record with mark := payload.mark }.encode } := by
  have kind := Magic.isBaking_of_ofBytes? holds
  have hashing : (Session.opened instruction key).isHashing = true :=
    Session.isHashing_opened hashed
  have vouched : (BakingState.decode record).Vouches
      (Session.taken instruction key data (Parsed.ofPayload data)).finish payload :=
    { kind := by simpa [Session.taken] using kind
      parsed := by simpa [Session.taken] using Parsed.ofPayload_eq_baking_iff.2 holds
      authorized := by simpa [Session.taken, Session.opened] using authorized
      permitted := permitted }
  have completed : (Mode.completeForBaking (BakingState.decode record)
      (Session.taken instruction key data (Parsed.ofPayload data)).finish).Yields
        [⟨.sign key (Blake2b.hash data).toList, .ok reply⟩,
          ⟨.store { BakingState.decode record with mark := payload.mark }.encode, .ok ()⟩]
        (.ok (.answered (reply.answer instruction key data))) := by
    rw [Mode.completeForBaking_eq vouched]
    exact (Session.taken_signs hashed fits).bind (Act.yields_bind_pure_iff.2
      ⟨.ok (), Act.yields_store_iff.2 ⟨.ok (), rfl, rfl⟩, rfl⟩)
  have performs : ((signer.opening instruction key).perform (BakingState.decode record)
      (.signNext instruction { kind := .next, last := true } data)).Yields
        [⟨.sign key (Blake2b.hash data).toList, .ok reply⟩,
          ⟨.store { BakingState.decode record with mark := payload.mark }.encode, .ok ()⟩]
        (.ok ((signer.opening instruction key).concluded
          (.answered (reply.answer instruction key data)))) := by
    have classified : Mode.baking.classify
        { Session.opened instruction key with packets := 1 } 1 data = _ :=
      Mode.classify_payload_eq hashing kind
    rw [Signer.perform_opening_of_classified (pure (Parsed.ofPayload data)) hashed room
      (by rw [baking]; exact classified), baking]
    exact Act.yields_bind_pure_iff.2 ⟨.ok _, completed, rfl⟩
  exact .cons (.opens hashed) (.single (.step (Signer.step_command_yields performs)))

/-- Whatever a wallet was doing, it shows an operation that the platform reads and that there
is a prompt for, and has it signed once the operator confirms. -/
theorem Run.signs_operation {group : OperationGroup} {shown : Prompt}
    (wallet : signer.config.mode = .wallet)
    (hashed : instruction = .sign ∨ instruction = .signWithHash)
    (room : data.length ≤ MessageBuffer.capacity) (leading : data.head? = some 0x03)
    (template : Prompt.operation? group = some shown)
    (fits : 0 < reply.length ∧ reply.length ≤ maxSignature) :
    ∃ pending next,
      Run { signer := signer, record := record }
        (singlePacket instruction key data
          [⟨.parse key data Mode.wallet.acceptedTags, some group⟩] .pending)
        { signer := (signer.discard.suspend pending).2, record := record } ∧
      Happens { signer := (signer.discard.suspend pending).2, record := record }
        (.step .confirm [⟨.sign key (Blake2b.hash data).toList, .ok reply⟩]
          (some (.ok (reply.answer instruction key data)))) next := by
  have asks : ((signer.opening instruction key).perform (.decode record)
      (.signNext instruction { kind := .next, last := true } data)).Yields
        [⟨.parse key data Mode.wallet.acceptedTags, some group⟩] _ :=
    Signer.opening_asks wallet hashed room leading template
  have signed : (Action.perform (.decode record)
      (.sign (Session.taken instruction key data (.operations group)).finish)).Yields
        [⟨.sign key (Blake2b.hash data).toList, .ok reply⟩]
        (.ok (reply.answer instruction key data)) :=
    Session.taken_signs hashed fits
  exact ⟨_, _, .cons (.opens hashed) (.single (.step (Signer.step_command_yields asks))),
    .step (Signer.step_confirm_yields rfl signed)⟩

end Device

/-- A block header of the given level that ends with its protocol byte. -/
def blockHeader (chain : Vector UInt8 4) (level : UInt32) (protocol : UInt8) : Bytes :=
  0x01 :: (chain.toList ++ (encodeWord level ++ [protocol]))

theorem ofBytes?_blockHeader (chain : Vector UInt8 4) (level : UInt32) (protocol : UInt8) :
    BakingPayload.ofBytes? (blockHeader chain level protocol) =
      some { chain := chain, mark := { level := level, endorsement := false } } := by
  have spells : BakingPayload.Spells (blockHeader chain level protocol)
      { chain := chain, mark := { level := level, endorsement := false } } := by
    rw [blockHeader, ← List.append_assoc]
    exact .block (List.cons_ne_nil protocol [])
  exact spells.ofBytes?_eq

theorem blockHeader_fits (chain : Vector UInt8 4) (level : UInt32) (protocol : UInt8) :
    (blockHeader chain level protocol).length ≤ MessageBuffer.capacity := by
  simp [blockHeader, MessageBuffer.capacity]

/-- A baker signs a block of any higher level. -/
theorem Device.Run.bakes_block {signer : Signer} {state : BakingState} {key : KeyPath}
    {level : UInt32} {reply : SignReply} (chain : Vector UInt8 4)
    (baking : signer.config.mode = .baking) (bound : state.key = some key)
    (steps : key.path ≠ []) (valid : isValidLevel level = true)
    (higher : state.mark.level < level) (fits : 0 < reply.length ∧ reply.length ≤ maxSignature) :
    Run { signer := signer, record := state.encode }
      (singlePacket .sign key (blockHeader chain level 0)
        [⟨.sign key (Blake2b.hash (blockHeader chain level 0)).toList, .ok reply⟩,
          ⟨.store { state with mark := { level := level, endorsement := false } }.encode, .ok ()⟩]
        (.signature none (reply.signature key.curve)))
      { signer := { signer.discard with status := .complete }
        record := { state with mark := { level := level, endorsement := false } }.encode } := by
  have decoded := BakingState.decode_encode_of_bound bound steps
  have authorized : (BakingState.decode state.encode).authorizes key = true := by
    rw [decoded]
    exact BakingState.authorizes_iff.2 ⟨bound, steps⟩
  have permitted : (BakingState.decode state.encode).permits
      { level := level, endorsement := false } = true := by
    rw [decoded]
    exact BakingState.permits_iff.2 ⟨valid, .inl higher⟩
  have hashed : Instruction.sign = .sign ∨ Instruction.sign = .signWithHash := .inl rfl
  have baked := Run.bakes baking hashed (blockHeader_fits chain level 0)
    (ofBytes?_blockHeader chain level 0) authorized permitted fits
  rw [decoded] at baked
  exact baked

/-- A key, a chain and a baker for the examples. -/
def bakingKey : KeyPath :=
  { curve := .ed25519, path := [0x8000002c, 0x800006c1, 0x80000000], depth_le := by decide }

def mainChain : Vector UInt8 4 :=
  #v[0x7a, 0x06, 0xa7, 0x70]

def newBaker : BakingState :=
  { key := some bakingKey, mark := { level := 0, endorsement := false } }

/-- An account of the key, a transfer from it, and the bytes that the transfer was read from. -/
def ownAccount : Contract :=
  { originated := false, curve := some .ed25519, hash := Vector.replicate 20 0x11 }

def transfer : OperationGroup :=
  { signing := ownAccount
    operation :=
      { tag := .babylonTransaction
        source := ownAccount
        destination := some ownAccount
        delegate := none
        amount := 1000000
        spendable := false
        delegatable := false
        viaManager := false
        governance := none }
    totalFee := 1420
    totalStorageLimit := 0 }

def transferBytes : Bytes :=
  [0x03, 0x6c]

/-- A reply with a signature of the usual length. -/
def signedReply : SignReply :=
  { buffer := Vector.replicate 100 0x5a, length := 64, parityOdd := false }

namespace Device

/-- The happenings in which the baker of the examples signs the block of a level. -/
def blockSigned (level : UInt32) : List Happening :=
  singlePacket .sign bakingKey (blockHeader mainChain level 0)
    [⟨.sign bakingKey (Blake2b.hash (blockHeader mainChain level 0)).toList, .ok signedReply⟩,
      ⟨.store { newBaker with mark := { level := level, endorsement := false } }.encode, .ok ()⟩]
    (.signature none (signedReply.signature .ed25519))

/-- The baker of the examples once it has signed the block of a level. -/
def bakerAt (level : UInt32) : Device :=
  { signer := { Signer.boot { mode := .baking } with status := .complete }
    record := { newBaker with mark := { level := level, endorsement := false } }.encode }

/-- Whatever the baker was doing, it signs every block of a higher level than the last one. -/
theorem Run.bakes_next {signer : Signer} {last level : UInt32}
    (baking : signer.config.mode = .baking) (valid : isValidLevel level = true)
    (higher : last < level) :
    Run { signer := signer
          record := { newBaker with mark := { level := last, endorsement := false } }.encode }
      (blockSigned level)
      { signer := { signer.discard with status := .complete }
        record := { newBaker with mark := { level := level, endorsement := false } }.encode } :=
  Run.bakes_block mainChain baking rfl (by decide) valid higher (by decide)

/-- The first block of a new baker. -/
theorem Run.bakes_first :
    Run (.boot { mode := .baking } newBaker.encode) (blockSigned 1) (bakerAt 1) :=
  Run.bakes_next rfl (by decide) (by decide)

/-- The wallet of the examples is asked to sign the transfer. -/
def transferAsked : List Happening :=
  singlePacket .sign bakingKey transferBytes
    [⟨.parse bakingKey transferBytes Mode.wallet.acceptedTags, some transfer⟩] .pending

/-- The wallet signs the transfer once the operator confirms. -/
theorem Run.signs_transfer :
    ∃ pending next,
      Run (.boot { mode := .wallet } newBaker.encode) transferAsked
        { signer := ((Signer.boot { mode := .wallet }).suspend pending).2
          record := newBaker.encode } ∧
      Happens
        { signer := ((Signer.boot { mode := .wallet }).suspend pending).2
          record := newBaker.encode }
        (.step .confirm [⟨.sign bakingKey (Blake2b.hash transferBytes).toList, .ok signedReply⟩]
          (some (.ok (.signature none (signedReply.signature .ed25519))))) next :=
  Run.signs_operation rfl (.inl rfl) (by decide) rfl rfl (by decide)

end Device

end TezosSigner
