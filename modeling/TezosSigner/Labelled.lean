/-
Module: TezosSigner.Labelled
Purpose: Finite choices that are printed and read back by their labels.
Main exports: Labelled, Labelled.ofLabel?
-/

namespace TezosSigner

/-!
Curves, modes, packet kinds and the like are finite choices.  Hosts and logs name
them by a label; `Labelled` lists the choices in their declared order together
with their labels, and `ofLabel?` reads a label back.  Reading is exact: case
matters, and only a listed choice is found.
-/

/-- A finite choice, listed in its declared order and named by labels. -/
class Labelled (Choice : Type) where
  /-- Every choice once, in its declared order. -/
  all : List Choice
  /-- The text that names a choice. -/
  label : Choice → String

/-- The choice that a text names. -/
def Labelled.ofLabel? {Choice : Type} [Labelled Choice] (text : String) : Option Choice :=
  (Labelled.all : List Choice).find? (Labelled.label · == text)

end TezosSigner
