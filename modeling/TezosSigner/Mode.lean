/-
Module: TezosSigner.Mode
Purpose: The two ways a device is configured.
Main exports: Mode, Config
-/
import TezosSigner.Labelled

namespace TezosSigner

/-- How a device is configured: as a general wallet, where the operator confirms
every operation, or for baking, where blocks and endorsements are signed without
the operator but only above the high-water mark. -/
inductive Mode where
  | wallet
  | baking
deriving Repr, Inhabited, DecidableEq

namespace Mode

instance : Labelled Mode where
  all := [.wallet, .baking]
  label
    | .wallet => "Wallet"
    | .baking => "Baking"

end Mode

/-- The configuration of a device, fixed when it starts. -/
structure Config where
  mode : Mode
  /-- The operator confirms each public key before it leaves the device. -/
  promptPublicKey : Bool := true
deriving Repr, DecidableEq

end TezosSigner
