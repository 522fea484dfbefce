import ViewTemplates.Render.State
import ViewTemplates.Store.Basic

/-!
# Running templates

A running template changes the state of the render and may fail; the state that it left is kept also
when it fails. Its calls are runs of their own. The end of a section takes the open section out of
the state first, and puts it back if it must not end here; so a section call that fails leaves the
state as it was (`Run.Atomic`).

`load` runs a template by name in a scope of its own, and takes the scope away again in either case.
Templates run inside each other only so many levels deep, so every run ends. A load counts the
levels that are left by the templates that run already (`State.levelsLeft`).
-/

set_option autoImplicit false

namespace ViewTemplates.Render

open Markup

/-- A run that changes the state of a render, and that gives a result or fails. -/
abbrev Run (α : Type) := EStateM Fault State α

/-- The state after a run. -/
def finalState {α : Type} : EStateM.Result Fault State α → State
  | .ok _ s => s
  | .error _ s => s

/-- What a run gave. -/
def resultOf {α : Type} : EStateM.Result Fault State α → Except Fault α
  | .ok a _ => .ok a
  | .error e _ => .error e

section
variable {α : Type} (a : α) (e : Fault) (s : State)

@[simp] theorem finalState_ok : finalState (.ok a s) = s := rfl

@[simp] theorem finalState_error :
    finalState (.error e s : EStateM.Result Fault State α) = s := rfl

@[simp] theorem resultOf_ok : resultOf (.ok a s) = .ok a := rfl

@[simp] theorem resultOf_error :
    resultOf (.error e s : EStateM.Result Fault State α) = .error e := rfl

end

/-- What a closed run gave can be decided, also where its final state is too large to be
compared. -/
theorem eq_ok_of_toOption {α : Type} {r : EStateM.Result Fault State α} {a : α}
    (h : (resultOf r).toOption = some a) : r = .ok a (finalState r) := by
  cases r with
  | ok b s =>
    cases h
    rfl
  | error e s => cases h

namespace Run

variable {α : Type}

/-! ## Sections and extensions -/

/-- Says that the current view extends `parent`. What the running template wrote so far is dropped,
so this is not allowed while the innermost scope captures a section. -/
def extend (parent : String) : Run Unit := do
  match (← get).ownSection? with
  | some o => throw (.misplaced (.extendInside parent o.name))
  | none =>
    modify fun s => { s with parent := some parent }
    modify State.restartScope
    modify (·.record (.extended parent))

/-- Begins to capture a section. -/
def beginSection (name : String) : Run Unit := do
  match (← get).openSection with
  | some o => throw (.misplaced (.alreadyOpen o.name name))
  | none =>
    let entry := (← get).height
    modify State.openScope
    modify fun s => { s with openSection := some ⟨name, entry⟩ }
    modify (·.record (.opened name))

/-- Takes the open section out of the state. -/
def takeSection : Run (Option OpenSection) :=
  modifyGet fun s => (s.openSection, { s with openSection := none })

/-- Closes the innermost scope and gives its text. -/
def closeScope : Run String := modifyGet State.closeScope

/-- Ends a section that the innermost scope captures, and gives its content. -/
def endSection (o : OpenSection) : Run String := do
  let captured ← closeScope
  let content := (← get).mergedContent o.name captured
  modify (·.write content)
  modify fun s => { s with sections := s.sections.insert o.name content }
  modify (·.record (.closed o.name captured content))
  return content

/-- Ends the open section, writes its content and gives it. A section that another template began
cannot end here. -/
def close : Run String := do
  match ← takeSection with
  | none => throw (.misplaced .notOpen)
  | some o =>
    if o.scope + 1 = (← get).height then
      endSection o
    else
      modify fun s => { s with openSection := some o }
      throw (.misplaced (.foreignClose o.name))

/-- A failure of the run leaves the state as it was. -/
def Atomic (run : Run α) : Prop := ∀ ⦃s e s'⦄, run.run s = .error e s' → s' = s

theorem eq_ok_of_bind {β : Type} {run : Run α} {next : α → Run β} {s t : State} {b : β}
    (h : (run >>= next).run s = .ok b t) :
    ∃ a u, run.run s = .ok a u ∧ (next a).run u = .ok b t := by
  rw [EStateM.run_bind] at h
  cases hr : run.run s with
  | ok a u =>
    rw [hr] at h
    exact ⟨a, u, rfl, h⟩
  | error e u =>
    rw [hr] at h
    cases h

theorem error_of_bind_pure {β : Type} {run : Run α} {f : α → β} {s u : State} {e : Fault}
    (h : (run >>= fun a => pure (f a)).run s = .error e u) : run.run s = .error e u := by
  rw [EStateM.run_bind] at h
  split at h <;> cases h
  assumption

theorem run_throw (e : Fault) (s : State) : (throw e : Run α).run s = .error e s := rfl

theorem run_extend (parent : String) (s : State) :
    (extend parent).run s =
      match s.ownSection? with
      | some o => .error (.misplaced (.extendInside parent o.name)) s
      | none => .ok () (({ s with parent := some parent }).restartScope.record
          (.extended parent)) := by
  cases h : s.ownSection? <;> simp [extend, h]

theorem run_beginSection (name : String) (s : State) :
    (beginSection name).run s =
      match s.openSection with
      | some o => .error (.misplaced (.alreadyOpen o.name name)) s
      | none => .ok () ({ s.openScope with openSection := some ⟨name, s.height⟩ }.record
          (.opened name)) := by
  cases h : s.openSection <;> simp [beginSection, h]

/-- Taking the open section out of a state and putting it back changes nothing. -/
theorem restore_section {s : State} {o : Option OpenSection} (h : s.openSection = o) :
    { s with openSection := o } = s :=
  h ▸ rfl

theorem closeScope_taken (s : State) :
    { s with openSection := none }.closeScope =
      (s.closeScope.1, { s.closeScope.2 with openSection := none }) := by
  simp only [State.closeScope]
  cases s.scopes.pop? <;> rfl

theorem run_endSection (o : OpenSection) (s : State) :
    (endSection o).run s =
      let (captured, inner) := s.closeScope
      let content := inner.mergedContent o.name captured
      .ok content (({ inner with
        sections := inner.sections.insert o.name content }.write content).record
          (.closed o.name captured content)) := by
  rfl

theorem mergedContent_closeScope (s : State) (name captured : String) :
    s.closeScope.2.mergedContent name captured = s.mergedContent name captured := by
  unfold State.closeScope
  cases s.scopes.pop? <;> rfl

theorem run_close (s : State) :
    close.run s =
      match s.openSection with
      | none => .error (.misplaced .notOpen) s
      | some o =>
        if o.scope + 1 = s.height then
          let (captured, inner) := s.closeScope
          let content := s.mergedContent o.name captured
          .ok content (({ inner with
            openSection := none
            sections := inner.sections.insert o.name content }.write content).record
              (.closed o.name captured content))
        else .error (.misplaced (.foreignClose o.name)) s := by
  cases h : s.openSection with
  | none => simp [close, takeSection, h, restore_section h, run_throw]
  | some o =>
    have hheight : { s with openSection := none }.height = s.height := rfl
    by_cases ho : o.scope + 1 = s.height
    · have htaken (t : State) (name captured : String) :
          { t with openSection := none }.mergedContent name captured =
            t.mergedContent name captured := rfl
      simp [close, takeSection, h, hheight, ho, run_endSection, closeScope_taken, htaken,
        mergedContent_closeScope]
    · simp [close, takeSection, h, hheight, ho, restore_section h, run_throw]

theorem atomic_extend (parent : String) : Atomic (extend parent) := by
  intro s e s' h
  rw [run_extend] at h
  split at h <;> cases h
  rfl

theorem atomic_beginSection (name : String) : Atomic (beginSection name) := by
  intro s e s' h
  rw [run_beginSection] at h
  split at h <;> cases h
  rfl

/-- A section that cannot end stays open. -/
theorem atomic_close : Atomic close := by
  intro s e s' h
  rw [run_close] at h
  split at h
  · cases h
    rfl
  · split at h <;> cases h
    rfl

/-! ## Failures and scopes -/

/-- Runs and gives the result, also if it is a failure. -/
def attempt (run : Run α) : Run (Except Fault α) := fun s =>
  .ok (resultOf (run.run s)) (finalState (run.run s))

/-- Runs a template in a scope of its own, and gives what it wrote there. A section that it began
must have ended. If anything fails, all scopes that were opened are closed again. -/
def framed (name : String) (run : Run Unit) : Run String := fun s =>
  match run.run (s.enter name) with
  | .ok _ s' =>
    match s'.unclosed? s.height with
    | none => .ok s'.leave.closeScope.1 s'.leave.closeScope.2
    | some o => .error (.misplaced (.neverClosed o.name name)) (s'.leave.unwind s.height)
  | .error e s' => .error e (s'.leave.unwind s.height)

theorem run_framed (name : String) (run : Run Unit) (s : State) :
    (framed name run).run s =
      match run.run (s.enter name) with
      | .ok _ s' =>
        match s'.unclosed? s.height with
        | none => .ok s'.leave.closeScope.1 s'.leave.closeScope.2
        | some o => .error (.misplaced (.neverClosed o.name name)) (s'.leave.unwind s.height)
      | .error e s' => .error e (s'.leave.unwind s.height) := rfl

theorem framed_congr {name : String} {run run' : Run Unit} {s : State}
    (h : run.run (s.enter name) = run'.run (s.enter name)) :
    (framed name run).run s = (framed name run').run s := by
  rw [run_framed, run_framed, h]

end Run

/-! ## Templates -/

/-- What stays the same during a render. -/
structure Setting where
  /-- Where templates are found. -/
  store : Store
  /-- The fields of the view. -/
  fields : Fields
  /-- How many levels deep templates run inside each other. -/
  maxDepth : Nat

section
variable (loader : String → Run String) (fields : Fields)

/-- Does what a node stands for. Other templates are run by `loader`. -/
def runNode : Node → Run Unit
  | .comment => pure ()
  | .text text => modify (·.write text)
  | .field name => modify (·.write (fields.display name))
  | .extend parent => Run.extend parent
  | .beginSection name => Run.beginSection name
  | .close => discard Run.close
  | .showSection name => modify (·.showSection name)
  | .includePartial name => do
    let output ← loader name
    modify (·.write output)

theorem runNode_close :
    runNode loader fields .close = Run.close >>= fun _ => pure () := rfl

/-- Does what the nodes of a body stand for, one after the other. -/
def runBody : Body → Run Unit
  | [] => pure ()
  | node :: body => do
    runNode loader fields node
    runBody body

/-- Makes a call. -/
def runCall : Call → Run Answer
  | .node node => do
    runNode loader fields node
    return .nothing
  | .close => return .text (← Run.close)
  | .load name => return .text (← loader name)
  | .sectionContent name => return ((← get).sections[name]?).elim .nothing .text
  | .field name => return fields[name]?.elim .nothing .value
  | .fields => return .fields fields
  | .currentTemplate => return (← get).loading.head?.elim .nothing .text
  | .scopeCounts => return .counts (← get).opened (← get).closed
  | .execute name text =>
    match Body.ofText name text with
    | .ok body => do
      runBody loader fields body
      return .nothing
    | .error e => throw e
  | .fail fault => throw fault

/-- Makes a call of a program and notes its result. -/
def tryCall (template : String) (index : Nat) (call : Call) : Run (Except Fault Answer) := do
  let result ← Run.attempt (runCall loader fields call)
  modify (·.record (.called template index result))
  return result

/-- Makes the calls of a program, the first of which is at the place `index`. -/
def runProgram (template : String) (index : Nat) : Program → Run Unit
  | .done => pure ()
  | .fail fault => throw fault
  | .call call next => do
    let result ← tryCall loader fields template index call
    runProgram template (index + 1) (next result)

/-- Runs the template of a name. -/
def runTemplate (name : String) : Template → Run Unit
  | .directives body => runBody loader fields body
  | .program program => runProgram loader fields name 0 program

theorem run_tryCall (template : String) (index : Nat) (call : Call) (s : State) :
    (tryCall loader fields template index call).run s =
      .ok (resultOf ((runCall loader fields call).run s))
        ((finalState ((runCall loader fields call).run s)).record
          (.called template index (resultOf ((runCall loader fields call).run s)))) := rfl

/-- The state after a call whose result was noted. -/
def noted (template : String) (index : Nat) (call : Call) (s : State) : State :=
  finalState ((tryCall loader fields template index call).run s)

theorem run_runProgram_call (template : String) (index : Nat) (call : Call)
    (next : Except Fault Answer → Program) (s : State) :
    (runProgram loader fields template index (.call call next)).run s =
      (runProgram loader fields template (index + 1)
        (next (resultOf ((runCall loader fields call).run s)))).run
          (noted loader fields template index call s) := rfl

end

/-- Runs the template of a name, with room for `levels` templates inside each other, and gives what
it wrote. -/
def loadWithin (setting : Setting) : Nat → String → Run String
  | 0, name => throw (.nestedTooDeep name setting.maxDepth)
  | levels + 1, name =>
    match setting.store.find name with
    | .ok template =>
      Run.framed name (runTemplate (loadWithin setting levels) setting.fields name template)
    | .error e => throw e

/-- How many levels of templates are left in a state. -/
def State.levelsLeft (s : State) (setting : Setting) : Nat := setting.maxDepth - s.loading.length

/-- Runs the template of a name inside of the templates that run, and gives what it wrote. -/
def load (setting : Setting) (name : String) : Run String := fun s =>
  (loadWithin setting (s.levelsLeft setting) name).run s

theorem run_load_eq_loadWithin (setting : Setting) (name : String) (s : State) :
    (load setting name).run s = (loadWithin setting (s.levelsLeft setting) name).run s := rfl

end ViewTemplates.Render
