import Std.Data.ExtTreeMap
import ViewTemplates.Section.Marker
import ViewTemplates.Store.Template

/-!
# The state of a render

Text goes to the innermost of a stack of scopes. Every running template has a scope, and so has the
open section; the lowest scope belongs to the render itself. A section that ends gives its text to
the scope around it, and its content stays known for the rest of the render.
-/

set_option autoImplicit false

namespace ViewTemplates.Render

/-- Scopes, each with the text written to it. There is always one. -/
structure Scopes where
  /-- The text of the innermost scope. -/
  top : String := ""
  /-- The texts of the scopes around it, from the inside out. -/
  below : List String := []
  deriving DecidableEq, Repr

namespace Scopes

/-- How many scopes there are. -/
def height (scopes : Scopes) : Nat := scopes.below.length + 1

/-- Writes to the innermost scope. -/
def write (scopes : Scopes) (text : String) : Scopes :=
  { scopes with top := scopes.top ++ text }

theorem write_write (scopes : Scopes) (a b : String) :
    (scopes.write a).write b = scopes.write (a ++ b) := by
  simp [write, String.append_assoc]

/-- A new scope inside the others. -/
def push (scopes : Scopes) : Scopes :=
  { top := "", below := scopes.top :: scopes.below }

/-- The text of the innermost scope, and the scopes around it. The lowest scope stays. -/
def pop? (scopes : Scopes) : Option (String × Scopes) :=
  match scopes.below with
  | [] => none
  | next :: below => some (scopes.top, ⟨next, below⟩)

end Scopes

/-- A section that is being captured. -/
structure OpenSection where
  name : String
  /-- How many scopes are below the one that captures it. -/
  scope : Nat
  deriving DecidableEq, Repr

/-- What a render did. -/
inductive Event
  /-- A template was found and begins to run. -/
  | loaded (name : String)
  /-- The current view was said to extend another. -/
  | extended (parent : String)
  /-- A section began. -/
  | opened (name : String)
  /-- A section ended with the captured text, which made its content. -/
  | closed (name captured content : String)
  /-- The call at this place of a program gave a result. -/
  | called (template : String) (index : Nat) (result : Except Fault Answer)

/-- An event, with the number of scopes opened and closed up to it. -/
structure Entry where
  event : Event
  opened : Nat
  closed : Nat

/-- The state of a render. -/
structure State where
  scopes : Scopes := {}
  /-- The content of the sections that were closed. -/
  sections : Std.ExtTreeMap String String := ∅
  /-- The section that is being captured. -/
  openSection : Option OpenSection := none
  /-- The view that the current one was said to extend. -/
  parent : Option String := none
  /-- The names of the running templates, the innermost first. -/
  loading : List String := []
  /-- How many scopes were opened. -/
  opened : Nat := 0
  /-- How many scopes were closed. -/
  closed : Nat := 0
  /-- What happened, the latest first. -/
  history : List Entry := []

namespace State

/-! ## Scopes -/

/-- How many scopes there are. -/
def height (s : State) : Nat := s.scopes.height

/-- Adds an event to the history. -/
def record (s : State) (event : Event) : State :=
  { s with history := ⟨event, s.opened, s.closed⟩ :: s.history }

/-- Writes to the innermost scope. -/
def write (s : State) (text : String) : State :=
  { s with scopes := s.scopes.write text }

theorem write_empty (s : State) : s.write "" = s := by
  simp [write, Scopes.write]

theorem write_write (s : State) (a b : String) : (s.write a).write b = s.write (a ++ b) :=
  congrArg (fun scopes => { s with scopes }) (s.scopes.write_write a b)

/-- Opens a scope. -/
def openScope (s : State) : State :=
  { s with scopes := s.scopes.push, opened := s.opened + 1 }

/-- Closes the innermost scope and gives its text. The lowest scope is never closed. -/
def closeScope (s : State) : String × State :=
  match s.scopes.pop? with
  | some (text, scopes) => (text, { s with scopes, closed := s.closed + 1 })
  | none => ("", s)

/-- Closes some scopes and drops their texts. -/
def closeScopes (s : State) : Nat → State
  | 0 => s
  | n + 1 => s.closeScope.2.closeScopes n

/-! ## Sections -/

/-- The open section, if the innermost scope captures it. -/
def ownSection? (s : State) : Option OpenSection :=
  s.openSection.filter fun o => o.scope + 1 = s.height

/-- Drops the text of the innermost scope. -/
def restartScope (s : State) : State :=
  if s.scopes.below = [] then s else s.closeScope.2.openScope

/-- The content of a section after a close that captured some text. -/
def mergedContent (s : State) (name captured : String) : String :=
  match s.sections[name]? with
  | some stored => Section.merge stored captured
  | none => captured

/-- Writes the content of a section. One that was never closed writes nothing. -/
def showSection (s : State) (name : String) : State :=
  s.write ((s.sections[name]?).getD "")

/-! ## Running templates -/

/-- Begins to run a template, in a scope of its own. -/
def enter (s : State) (name : String) : State :=
  { s.openScope with loading := name :: s.loading }.record (.loaded name)

/-- Ends the innermost running template. -/
def leave (s : State) : State :=
  { s with loading := s.loading.tail }

/-- The open section, if it began above the scope with `entry` scopes below it. -/
def unclosed? (s : State) (entry : Nat) : Option OpenSection :=
  s.openSection.filter fun o => entry < o.scope

/-- Closes all scopes but `entry` of them, and drops a section that one of them captures. -/
def unwind (s : State) (entry : Nat) : State :=
  { s.closeScopes (s.height - entry) with
    openSection := s.openSection.filter fun o => o.scope < entry }

end State

end ViewTemplates.Render
