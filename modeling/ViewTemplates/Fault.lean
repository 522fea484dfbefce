/-!
# Faults

A fault is the cause that a render, or a call made during one, did not succeed. Its message says
what happened. A template that cannot be read has a cause of its own below it, which may again be a
fault; the diagnostic of a fault is its message and those of all causes below it.
-/

set_option autoImplicit false

namespace ViewTemplates

/-- A section call made where it is not allowed. -/
inductive SectionFault
  /-- A section begins while another is open. -/
  | alreadyOpen (current requested : String)
  /-- A section ends while none is open. -/
  | notOpen
  /-- A section ends in a template that did not begin it. -/
  | foreignClose (name : String)
  /-- A template ends before the section it began. -/
  | neverClosed (name template : String)
  /-- A template extends another inside a section of its own. -/
  | extendInside (parent current : String)
  deriving DecidableEq, Repr

mutual

/-- What can go wrong while a view is rendered. -/
inductive Fault
  /-- The source has no template of that name. -/
  | templateNotFound (name location : String)
  /-- The file of a template cannot be read. -/
  | unreadable (path : String) (cause : Cause)
  /-- The text of a template is not well formed; the report shows where. -/
  | unparsable (name report : String)
  /-- A section call is not allowed where it is made. -/
  | misplaced (fault : SectionFault)
  /-- Templates are nested too deep. -/
  | nestedTooDeep (name : String) (limit : Nat)
  /-- A view extends itself, through the views of the chain. -/
  | extendCycle (chain : List String)
  /-- The value of an environment variable is not text. -/
  | environment (name : String)
  /-- A template reports a failure in its own words. -/
  | reported (text : String)

/-- Why a file cannot be read. -/
inductive Cause
  /-- A cause with a text and nothing below it. -/
  | plain (text : String)
  /-- A fault, which stands for itself: it has the fault's message and the fault's cause. -/
  | wrapped (fault : Fault)

end

namespace SectionFault

/-- The words of a section fault. -/
def message : SectionFault → String
  | alreadyOpen current requested =>
    "cannot open section `" ++ requested ++ "` while section `" ++ current ++ "` is open"
  | notOpen => "close called with no open section"
  | foreignClose name =>
    "section `" ++ name ++ "` opened by an enclosing template cannot be closed here"
  | neverClosed name template =>
    "section `" ++ name ++ "` is never closed in template `" ++ template ++ "`"
  | extendInside parent current =>
    "cannot extend `" ++ parent ++ "` while section `" ++ current ++ "` is open"

end SectionFault

/-- The words of a fault, without its cause. -/
def Fault.message : Fault → String
  | templateNotFound name location => "template `" ++ name ++ "` not found (" ++ location ++ ")"
  | unreadable path _ => "failed to read template " ++ path
  | unparsable name report => "failed to parse template `" ++ name ++ "`:\n" ++ report
  | misplaced fault => fault.message
  | nestedTooDeep name limit =>
    "templates nested more than " ++ limit.repr ++ " levels deep when loading `" ++ name ++ "`"
  | extendCycle chain => "views extend each other in a cycle: " ++ " -> ".intercalate chain
  | environment name => "environment variable " ++ name ++ " is not valid unicode"
  | reported text => text

/-- The words of a cause, without what is below it. -/
def Cause.message : Cause → String
  | plain text => text
  | wrapped fault => fault.message

/-- The cause directly below a fault. -/
def Fault.cause? : Fault → Option Cause
  | unreadable _ cause => some cause
  | _ => none

/-- The cause directly below a cause: a fault as a cause stands for itself, so it is the fault's
own. -/
def Cause.next? : Cause → Option Cause
  | plain _ => none
  | wrapped fault => fault.cause?

/-- A cause below another is a smaller one. -/
theorem Cause.sizeOf_lt_of_next? {c d : Cause} (h : c.next? = some d) : sizeOf d < sizeOf c := by
  cases c with
  | plain => cases h
  | wrapped f =>
    cases f <;> simp only [next?, Fault.cause?, Option.some.injEq, reduceCtorEq] at h
    subst h
    simp only [wrapped.sizeOf_spec, Fault.unreadable.sizeOf_spec]
    omega

/-- The cause and all causes below it, the topmost first. -/
def Cause.chain (c : Cause) : List Cause :=
  match _h : c.next? with
  | some d => c :: d.chain
  | none => [c]
  termination_by sizeOf c
  decreasing_by exact sizeOf_lt_of_next? _h

theorem Cause.chain_of_next?_eq_some {c d : Cause} (h : c.next? = some d) :
    c.chain = c :: d.chain := by
  rw [chain]
  split <;> simp_all

theorem Cause.chain_of_next?_eq_none {c : Cause} (h : c.next? = none) : c.chain = [c] := by
  rw [chain]
  split <;> simp_all

/-- The causes below a fault, the topmost first. -/
def Fault.causes (f : Fault) : List Cause :=
  match f.cause? with
  | some c => c.chain
  | none => []

/-- The message of a fault and the messages of all causes below it. -/
def Fault.diagnostic (f : Fault) : String :=
  f.causes.foldl (fun out c => out ++ ": " ++ c.message) f.message

end ViewTemplates
