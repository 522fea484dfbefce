import ViewTemplates.Fields
import ViewTemplates.Markup.Body

/-!
# Templates

A template is either a body of directives or a program. A program makes calls to the running render
one after the other. What it does after a call may depend on the results of all calls so far, and a
call that fails is no more than a result to it. A script is a program that has its calls in a list:
a call that fails ends it with its fault, unless the step is guarded.
-/

set_option autoImplicit false

namespace ViewTemplates

open Markup

/-- A call that a program makes to the running render. -/
inductive Call
  /-- Does what a node of a directive template does. -/
  | node (node : Node)
  /-- Ends the open section and answers its content. -/
  | close
  /-- Runs another template and answers its output. -/
  | load (name : String)
  /-- Answers the content of a section. -/
  | sectionContent (name : String)
  /-- Answers the value of a field. -/
  | field (name : String)
  | fields
  /-- Answers the name of the running template. -/
  | currentTemplate
  /-- Answers how many scopes were opened and closed. -/
  | scopeCounts
  /-- Reads a text as a body and does what its nodes do. -/
  | execute (name text : String)
  | fail (fault : Fault)

/-- What a call answers. -/
inductive Answer
  | nothing
  | text (text : String)
  | value (value : Value)
  | fields (fields : Fields)
  | counts (opened closed : Nat)

/-- Makes calls and goes on as their results say. -/
inductive Program
  | done
  | fail (fault : Fault)
  | call (call : Call) (next : Except Fault Answer → Program)

/-- A call of a script, and whether the script goes on if it fails. -/
structure Step where
  call : Call
  guarded : Bool := false

/-- The program that makes the calls of a list. -/
def Program.ofSteps : List Step → Program
  | [] => done
  | step :: steps => call step.call fun
    | .ok _ => ofSteps steps
    | .error e => if step.guarded then ofSteps steps else fail e

/-- Something that a view can be rendered with. -/
inductive Template
  | directives (body : Body)
  | program (program : Program)

/-- The template that makes the calls of a list. -/
def Template.script (steps : List Step) : Template :=
  program (.ofSteps steps)

/-- The template that a text reads as. -/
def Template.ofText (name text : String) : Except Fault Template :=
  (Body.ofText name text).map directives

/-! ## What a template may do -/

/-- The nodes that a call runs by itself. -/
def Call.nodes : Call → List Node
  | node n => [n]
  | execute name text =>
    match Body.ofText name text with
    | .ok body => body
    | .error _ => []
  | _ => []

/-- The program makes the call after some results. -/
inductive Program.Makes (made : Call) : Program → Prop
  | first {next : Except Fault Answer → Program} : Makes made (call made next)
  | later {first : Call} {next : Except Fault Answer → Program} (result : Except Fault Answer) :
      Makes made (next result) → Makes made (call first next)

/-- The template may run the node by its own calls. -/
inductive Template.MayRun (node : Node) : Template → Prop
  | directives {body : Body} : node ∈ body → MayRun node (directives body)
  | program {g : Program} {call : Call} : g.Makes call → node ∈ call.nodes →
      MayRun node (program g)

end ViewTemplates
