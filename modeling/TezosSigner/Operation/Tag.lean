/-
Module: TezosSigner.Operation.Tag
Purpose: The tags of the operations in a group, and which of them each mode accepts.
Main exports: OperationTag, OperationTag.code, OperationTag.ofCode?, Mode.accepts,
  Mode.acceptedTags
-/
import TezosSigner.Labelled
import TezosSigner.Mode

namespace TezosSigner

/-- What an operation does.  Manager operations exist in two protocol generations. -/
inductive OperationTag where
  /-- Nothing beyond a reveal. -/
  | none
  | proposal
  | ballot
  | athensReveal
  | athensTransaction
  | athensOrigination
  | athensDelegation
  | babylonReveal
  | babylonTransaction
  | babylonOrigination
  | babylonDelegation
deriving Repr, Inhabited, DecidableEq

namespace OperationTag

instance : Labelled OperationTag where
  all := [.none, .proposal, .ballot, .athensReveal, .athensTransaction, .athensOrigination,
    .athensDelegation, .babylonReveal, .babylonTransaction, .babylonOrigination,
    .babylonDelegation]
  label
    | .none => "None"
    | .proposal => "Proposal"
    | .ballot => "Ballot"
    | .athensReveal => "AthensReveal"
    | .athensTransaction => "AthensTransaction"
    | .athensOrigination => "AthensOrigination"
    | .athensDelegation => "AthensDelegation"
    | .babylonReveal => "BabylonReveal"
    | .babylonTransaction => "BabylonTransaction"
    | .babylonOrigination => "BabylonOrigination"
    | .babylonDelegation => "BabylonDelegation"

/-- The byte that stands for a tag on the chain. -/
def code : OperationTag → UInt8
  | .none => 0
  | .proposal => 5
  | .ballot => 6
  | .athensReveal => 7
  | .athensTransaction => 8
  | .athensOrigination => 9
  | .athensDelegation => 10
  | .babylonReveal => 107
  | .babylonTransaction => 108
  | .babylonOrigination => 109
  | .babylonDelegation => 110

/-- The tag a byte stands for. -/
def ofCode? (byte : UInt8) : Option OperationTag :=
  (Labelled.all : List OperationTag).find? (code · == byte)

@[simp] theorem ofCode?_code (tag : OperationTag) : ofCode? tag.code = some tag := by
  cases tag <;> rfl

/-- A group whose only effect is to reveal a key. -/
def isReveal : OperationTag → Bool
  | .none => true
  | .athensReveal => true
  | .babylonReveal => true
  | _ => false

/-- An operation that sets or withdraws a delegate. -/
def isDelegation : OperationTag → Bool
  | .athensDelegation => true
  | .babylonDelegation => true
  | _ => false

/-- An operation that creates a contract. -/
def isOrigination : OperationTag → Bool
  | .athensOrigination => true
  | .babylonOrigination => true
  | _ => false

/-- An operation that moves an amount. -/
def isTransaction : OperationTag → Bool
  | .athensTransaction => true
  | .babylonTransaction => true
  | _ => false

end OperationTag

namespace Mode

/-- The operations a device accepts in each mode.  A baking device only reveals and
delegates; a wallet also votes, originates and transfers. -/
def accepts : Mode → OperationTag → Bool
  | _, .athensReveal => true
  | _, .athensDelegation => true
  | _, .babylonReveal => true
  | _, .babylonDelegation => true
  | .wallet, .proposal => true
  | .wallet, .ballot => true
  | .wallet, .athensOrigination => true
  | .wallet, .athensTransaction => true
  | .wallet, .babylonOrigination => true
  | .wallet, .babylonTransaction => true
  | _, _ => false

/-- The accepted tags in their declared order. -/
def acceptedTags (mode : Mode) : List OperationTag :=
  (Labelled.all : List OperationTag).filter mode.accepts

end Mode

end TezosSigner
