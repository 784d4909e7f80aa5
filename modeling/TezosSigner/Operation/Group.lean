/-
Module: TezosSigner.Operation.Group
Purpose: What the platform reads out of an operation group.
Main exports: Contract, Vote, Governance, Operation, OperationGroup,
  OperationGroup.isSelfDelegation
-/
import TezosSigner.Bytes
import TezosSigner.Key.Curve
import TezosSigner.Operation.Tag

namespace TezosSigner

/-- An account: an implicit one belongs to a key on some curve, an originated one is
a contract. -/
structure Contract where
  /-- Set for originated contracts. -/
  originated : Bool
  /-- The curve of an implicit account. -/
  curve : Option Curve
  /-- The hash of the public key or of the contract. -/
  hash : Vector UInt8 20
deriving Repr, DecidableEq

/-- A vote on a proposal. -/
inductive Vote where
  | yea
  | nay
  | pass
deriving Repr, Inhabited, DecidableEq

namespace Vote

instance : Labelled Vote where
  all := [.yea, .nay, .pass]
  label
    | .yea => "Yea"
    | .nay => "Nay"
    | .pass => "Pass"

/-- The byte that stands for a vote on the chain. -/
def code : Vote → UInt8
  | .yea => 0
  | .nay => 1
  | .pass => 2

/-- The vote a byte stands for. -/
def ofCode? (byte : UInt8) : Option Vote :=
  (Labelled.all : List Vote).find? (code · == byte)

@[simp] theorem ofCode?_code (vote : Vote) : ofCode? vote.code = some vote := by
  cases vote <;> rfl

end Vote

/-- The part of an operation that takes part in an amendment of the protocol. -/
structure Governance where
  votingPeriod : UInt32
  protocolHash : Vector UInt8 32
  /-- Set for ballots. -/
  vote : Option Vote
deriving Repr, DecidableEq

/-- The main operation of a group. -/
structure Operation where
  tag : OperationTag
  source : Contract
  /-- The receiver, or the delegate; absent where a delegate is withdrawn. -/
  destination : Option Contract
  /-- The delegate of a new contract. -/
  delegate : Option Contract
  /-- In millionths of a tez. -/
  amount : UInt64
  /-- A new contract may be spent from by its manager. -/
  spendable : Bool
  /-- The delegate of a new contract may be changed. -/
  delegatable : Bool
  /-- The operation was made through the manager contract. -/
  viaManager : Bool
  governance : Option Governance
deriving Repr, DecidableEq

/-- An operation group, reduced to what the operator has to know. -/
structure OperationGroup where
  /-- The identity of the signing key. -/
  signing : Contract
  operation : Operation
  /-- In millionths of a tez. -/
  totalFee : UInt64
  totalStorageLimit : UInt64
deriving Repr, DecidableEq

/-- Whether the signing key delegates to itself, which registers it as a delegate. -/
def OperationGroup.isSelfDelegation (group : OperationGroup) : Bool :=
  group.operation.tag.isDelegation &&
    group.operation.source == group.signing &&
    group.operation.destination == some group.signing

end TezosSigner
