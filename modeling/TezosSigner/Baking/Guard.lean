/-
Module: TezosSigner.Baking.Guard
Purpose: What a baking key may sign, and how the baking state moves.
Main exports:
  BakingState.authorizes, BakingState.permits, BakingState.guardBaking,
  BakingState.guardSelfDelegation, BakingState.bindKey, BakingState.recordSigned,
  BakingState.resetTo
-/
import TezosSigner.Operation.BakingPayload
import TezosSigner.Platform.Dialog

namespace TezosSigner.BakingState

/-!
A baking key signs without the operator, so the state has to vouch for each
signature: the key is the authorized one, the level is well formed, and the mark of
the payload lies beyond the high-water mark.  A key may also sign one operation with
the operator's consent, the delegation to itself.

Authorizing a key leaves the mark alone, and moving the mark leaves the key alone.
-/

/-- Whether a key is the authorized one.  The empty path is never authorized. -/
def authorizes (state : BakingState) (key : KeyPath) : Bool :=
  match state.key with
  | some authorized => !key.path.isEmpty && authorized == key
  | none => false

/-- Whether a block or an endorsement at a mark may be signed. -/
def permits (state : BakingState) (mark : Mark) : Bool :=
  isValidLevel mark.level && state.mark.advances mark

/-- Let a block or an endorsement pass, if there is one and the state vouches for
it. -/
def guardBaking (state : BakingState) (key : KeyPath) (payload : Option BakingPayload) :
    Except SignerError BakingPayload :=
  if state.authorizes key then
    match payload with
    | some payload =>
        if state.permits payload.mark then .ok payload else .error .securityError
    | none => .error .securityError
  else
    .error .securityError

/-- Let an operation group pass, if it is the delegation of the authorized key to
itself. -/
def guardSelfDelegation (state : BakingState) (key : KeyPath) (group : OperationGroup) :
    Except SignerError Unit :=
  if state.authorizes key && group.isSelfDelegation then .ok () else .error .securityError

/-- Write a state to the persisted record. -/
def save (state : BakingState) : Act Unit :=
  Act.store state.encode

/-- Bind a key for baking in place of any other; the mark stays. -/
def bindKey (state : BakingState) (key : KeyPath) : Act Unit :=
  if key.path.isEmpty then
    throw .wrongLength
  else
    save { state with key := some key }

/-- Move the mark to what was signed.  A level that is not well formed is never
signed, and leaves the mark where it is. -/
def recordSigned (state : BakingState) (mark : Mark) : Act Unit :=
  if isValidLevel mark.level then
    save { state with mark := mark }
  else
    pure ()

/-- Move the mark to a level of the operator's choice, not yet endorsed. -/
def resetTo (state : BakingState) (level : UInt32) : Act Unit :=
  if isValidLevel level then
    save { state with mark := { level := level, endorsement := false } }
  else
    throw .wrongParameter

end TezosSigner.BakingState
