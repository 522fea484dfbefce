import ViewTemplates.Fault
import ViewTemplates.Markup.Reader

/-!
# The body of a directive template

The body of a template is the list of its nodes. `Body.ofText` reads it from a text; a text that
cannot be read gives a fault with the report of all complaints.
-/

set_option autoImplicit false

namespace ViewTemplates.Markup

/-- The nodes of a directive template, in order. -/
abbrev Body := List Node

/-- The body that a text reads as. The name is only used in a fault. -/
def Body.ofText (name text : String) : Except Fault Body :=
  match readNodes text.toList with
  | .ok nodes => .ok nodes
  | .error complaints => .error (.unparsable name (report text.toList complaints))

/-- Whether a text can be read does not depend on the name it is read under. -/
theorem Body.ofText_eq_ok {name text : String} {body : Body} :
    Body.ofText name text = .ok body ↔ readNodes text.toList = .ok body := by
  unfold Body.ofText
  split <;> simp_all

/-- The view that a node asks to extend. -/
def Node.parent? : Node → Option String
  | extend parent => some parent
  | _ => none

theorem Node.parent?_eq_some {node : Node} {parent : String} :
    node.parent? = some parent ↔ node = extend parent := by
  cases node <;> simp [parent?]

/-- The views that a body asks to extend. -/
def Body.parents (body : Body) : List String :=
  body.filterMap Node.parent?

theorem Body.mem_parents {body : Body} {parent : String} :
    parent ∈ body.parents ↔ .extend parent ∈ body := by
  simp [parents, Node.parent?_eq_some]

end ViewTemplates.Markup
