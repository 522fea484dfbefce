import ViewTemplates.Store.Template

/-!
# Stores of templates

A store finds templates by name. It is bounded if its templates ask to extend only finitely many
views that it has. A chain of views that extend each other comes to an end then, since no view comes
up twice in it; a store that makes up ever new templates need not be bounded.
-/

set_option autoImplicit false

namespace ViewTemplates

/-- Finds templates by name. -/
structure Store where
  find : String → Except Fault Template

namespace Store

/-- Some template asks to extend the view. -/
def Asks (store : Store) (parent : String) : Prop :=
  ∃ name template, store.find name = .ok template ∧ template.MayRun (.extend parent)

/-- All views that the templates ask to extend are among the names, as far as the store has them. -/
def BoundedBy (store : Store) (names : List String) : Prop :=
  ∀ parent template, store.Asks parent → store.find parent = .ok template → parent ∈ names

/-- The templates ask to extend finitely many views of the store. -/
def Bounded (store : Store) : Prop := ∃ names, store.BoundedBy names

end Store

end ViewTemplates
