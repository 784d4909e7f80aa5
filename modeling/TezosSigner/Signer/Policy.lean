/-
Module: TezosSigner.Signer.Policy
Purpose: What each mode accepts, and what it takes to sign it.
Main exports: Mode.classify, Completion, Mode.complete
-/
import TezosSigner.Signer.Pending

namespace TezosSigner

/-!
A session is classified packet by packet and completed after the last one.

A wallet takes any number of packets.  It tries to read the operation from the first
one; an operation that goes on in a second packet counts as not understood.  Every
signature needs the operator's consent, to the fields of the operation where it was
understood and to its hash where it was not.

A baking device takes a single packet.  Blocks and endorsements are signed at once if
the baking state vouches for them, and the mark moves after the signature exists.
The only other thing it signs is the delegation of the baking key to itself, with the
operator's consent.
-/

namespace Mode

/-- Have an operation group read under the tags that a mode accepts. -/
def readOperations (mode : Mode) (session : Session) (data : Bytes) : Act Parsed := do
  match ← Act.parse session.key data mode.acceptedTags with
  | some group => pure (.operations group)
  | none => pure .invalid

/-- Classify a session of a wallet by its data packet of the given number. -/
def classifyForWallet (session : Session) (packet : UInt8) (data : Bytes) : Act Session :=
  if packet ≠ 1 then
    pure session.invalidate
  else if (Magic.ofPayload data).isAllowed .wallet then do
    let parsed ← readOperations .wallet session data
    pure (session.classifyAs (Magic.ofPayload data) parsed)
  else
    throw .parseError

/-- Classify a session of a baking device by its data packet of the given number. -/
def classifyForBaking (session : Session) (packet : UInt8) (data : Bytes) : Act Session :=
  if packet ≠ 1 then
    throw .parseError
  else if (Magic.ofPayload data).isAllowed .baking then
    if (Magic.ofPayload data).isBaking then
      match BakingPayload.ofBytes? data with
      | some payload => pure (session.classifyAs (Magic.ofPayload data) (.baking payload))
      | none => pure (session.classifyAs (Magic.ofPayload data) .invalid)
    else do
      let parsed ← readOperations .baking session data
      pure (session.classifyAs (Magic.ofPayload data) parsed)
  else
    throw .parseError

/-- Classify a session by its data packet of the given number.  A raw session has
nothing to classify. -/
def classify (mode : Mode) (session : Session) (packet : UInt8) (data : Bytes) :
    Act Session :=
  if session.isHashing then
    match mode with
    | .wallet => classifyForWallet session packet data
    | .baking => classifyForBaking session packet data
  else
    pure session

end Mode

/-- How a finished session goes on. -/
inductive Completion where
  /-- It is answered at once. -/
  | answered (answer : Answer)
  /-- It waits for the operator. -/
  | awaits (pending : Pending)
deriving Repr, DecidableEq

namespace Mode

/-- The prompt for a hashed message in a wallet, where its kind may be signed. -/
def walletPrompt (session : Session) (hash : Digest) : Except SignerError Prompt :=
  match session.magic, session.parsed with
  | .unsafeOp, .operations group => .ok ((Prompt.operation? group).getD (Prompt.rawHash hash))
  | .unsafeOp, _ => .ok (Prompt.rawHash hash)
  | .unsafeOp2, _ => .ok (Prompt.rawHash hash)
  | .unsafeOp3, _ => .ok (Prompt.rawHash hash)
  | _, _ => .error .parseError

/-- Complete a session of a wallet: the operator is asked. -/
def completeForWallet (session : Session) : Except SignerError Completion :=
  if session.isHashing then
    match session.finalHash with
    | none => .error .memoryError
    | some hash => do
        let prompt ← walletPrompt session hash
        return .awaits { prompt := prompt, action := .sign session }
  else
    .ok (.awaits { prompt := Prompt.preHashed, action := .sign session })

/-- Complete a session of a baking device: guard it, then sign and record it, or ask
the operator. -/
def completeForBaking (state : BakingState) (session : Session) : Act Completion :=
  if session.magic.isBaking then do
    let payload :=
      match session.parsed with
      | .baking payload => some payload
      | _ => none
    let payload ← Act.ofExcept (state.guardBaking session.key payload)
    let answer ← session.sign
    state.recordSigned payload.mark
    pure (.answered answer)
  else
    match session.magic, session.parsed with
    | .unsafeOp, .operations group => do
        Act.ofExcept (state.guardSelfDelegation session.key group)
        pure (.awaits { prompt := Prompt.registerDelegate group, action := .sign session })
    | _, _ => throw .parseError

/-- Complete a finished session, given the baking state. -/
def complete (mode : Mode) (state : BakingState) (session : Session) : Act Completion :=
  match mode with
  | .wallet => Act.ofExcept (completeForWallet session)
  | .baking => completeForBaking state session

end Mode

end TezosSigner
