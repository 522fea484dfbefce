/-!
# Nodes of a directive template

A directive template is a list of nodes: plain text, and directives that begin with an `@`.
Four directives name a view or a section in an argument; they are the helpers.
-/

set_option autoImplicit false

namespace ViewTemplates.Markup

/-- One piece of a directive template. -/
inductive Node
  /-- A comment, which writes nothing. -/
  | comment
  /-- Text that is written as it is. -/
  | text (text : String)
  /-- The value of a field. -/
  | field (name : String)
  /-- Names the view that is rendered in the place of the current one. -/
  | extend (parent : String)
  /-- Starts to capture a section. -/
  | beginSection (name : String)
  /-- Ends the section that is being captured. -/
  | close
  /-- The content of a section. -/
  | showSection (name : String)
  /-- The output of another template. -/
  | includePartial (name : String)
  deriving DecidableEq, Repr, Inhabited

/-- The directives that take an argument. -/
inductive Helper
  | extend
  | beginSection
  | showSection
  | includePartial
  deriving DecidableEq, Repr

namespace Helper

/-- The word after the `@`. -/
def keyword : Helper → String
  | extend => "extend"
  | beginSection => "section"
  | showSection => "show"
  | includePartial => "partial"

/-- What the argument names. -/
def argument : Helper → String
  | extend | includePartial => "view"
  | beginSection | showSection => "name"

/-- The node of a helper with its argument. -/
def node : Helper → String → Node
  | extend => .extend
  | beginSection => .beginSection
  | showSection => .showSection
  | includePartial => .includePartial

/-- The helper that a word names. -/
def ofKeyword? (word : String) : Option Helper :=
  [extend, beginSection, showSection, includePartial].find? (·.keyword = word)

@[simp] theorem ofKeyword?_keyword (h : Helper) : ofKeyword? h.keyword = some h := by
  cases h <;> decide

theorem ofKeyword?_eq_some {word : String} {h : Helper} :
    ofKeyword? word = some h ↔ word = h.keyword := by
  refine ⟨fun hw => ?_, fun hw => hw ▸ ofKeyword?_keyword h⟩
  have hk := List.find?_some hw
  exact (of_decide_eq_true hk).symm

theorem ofKeyword?_eq_none {word : String} :
    ofKeyword? word = none ↔ ∀ h : Helper, word ≠ h.keyword := by
  refine ⟨fun hw h hk => ?_, fun hne => ?_⟩
  · rw [ofKeyword?_eq_some.2 hk] at hw
    cases hw
  · cases hw : ofKeyword? word with
    | none => rfl
    | some h => exact absurd (ofKeyword?_eq_some.1 hw) (hne h)

end Helper

end ViewTemplates.Markup
