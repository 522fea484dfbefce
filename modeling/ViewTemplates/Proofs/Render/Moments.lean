import Mathlib.Data.List.Chain
import ViewTemplates.Proofs.Render.Frame

/-!
# The moments of a render

The runs of `Render.Run` give the state that they end in. This file lists the states that they go
through: `bodyMoments`, `callMoments`, `programMoments` and `loadMoments` follow the runs of the
same names and collect the states between two steps, and also the states in which a scope is about
to be closed. A list leaves out the state that the run begins in; `attemptMoments` has it too.

`Leads R s ms t`: the moments `ms` lead from the state `s` to the state `t`, each related to the one
before it by `R`.
-/

set_option autoImplicit false

namespace ViewTemplates.Render

open Markup

/-- A moment of a render. -/
inductive Moment
  /-- Between two steps. -/
  | between (s : State)
  /-- When the innermost scope is about to be closed. -/
  | closing (s : State)

/-- The state at a moment. -/
def Moment.state : Moment → State
  | between s => s
  | closing s => s

namespace State

/-- The moments of a call that ends a section. -/
def closeMoments (s : State) : List Moment :=
  if s.ownSection? = none then [] else [.closing s]

/-- The moments of a call that says that the view extends another. -/
def extendMoments (s : State) (parent : String) : List Moment :=
  if s.ownSection? = none ∧ s.scopes.below ≠ [] then [.closing { s with parent := some parent }]
  else []

/-- The moments of closing all scopes but `entry` of them. -/
def unwindMoments (s : State) (entry : Nat) : List Moment :=
  (List.range (s.height - entry)).map fun n => .closing (s.closeScopes n)

end State

/-- The moments when a template ends that was begun with `entry` scopes. -/
def endMoments (entry : Nat) : EStateM.Result Fault State Unit → List Moment
  | .ok _ s =>
    if s.unclosed? entry = none then [.closing s.leave] else s.leave.unwindMoments entry
  | .error _ s => s.leave.unwindMoments entry

section
variable (loader : String → Run String) (inner : String → State → List Moment) (fields : Fields)

/-- The moments of a node before it has done what it stands for. The moments of other templates are
given by `inner`. -/
def nodeMoments : Node → State → List Moment
  | .extend parent, s => s.extendMoments parent
  | .close, s => s.closeMoments
  | .includePartial name, s => inner name s
  | _, _ => []

/-- The moments of a body. -/
def bodyMoments : Body → State → List Moment
  | [], _ => []
  | node :: body, s =>
    nodeMoments inner node s ++
      match (runNode loader fields node).run s with
      | .ok _ s' => .between s' :: bodyMoments body s'
      | .error _ s' => [.between s']

/-- The moments of a call before its result is noted. -/
def callMoments : Call → State → List Moment
  | .node node, s => nodeMoments inner node s
  | .close, s => s.closeMoments
  | .load name, s => inner name s
  | .execute name text, s =>
    match Body.ofText name text with
    | .ok body => bodyMoments loader inner fields body s
    | .error _ => []
  | _, _ => []

/-- The moments of a program. -/
def programMoments (template : String) (index : Nat) : Program → State → List Moment
  | .done, _ | .fail _, _ => []
  | .call call next, s =>
    callMoments loader inner fields call s ++
      .between (noted loader fields template index call s) ::
        programMoments template (index + 1) (next (resultOf ((runCall loader fields call).run s)))
          (noted loader fields template index call s)

/-- The moments of a template. -/
def templateMoments (name : String) : Template → State → List Moment
  | .directives body => bodyMoments loader inner fields body
  | .program program => programMoments loader inner fields name 0 program

end

/-- The moments of a load, from when its template begins until its scopes are closed. -/
def loadMoments (setting : Setting) : Nat → String → State → List Moment
  | 0, _, _ => []
  | levels + 1, name, s =>
    match setting.store.find name with
    | .ok template =>
      .between (s.enter name) ::
        (templateMoments (loadWithin setting levels) (loadMoments setting levels) setting.fields
            name template (s.enter name) ++
          endMoments s.height ((runTemplate (loadWithin setting levels) setting.fields name
            template).run (s.enter name)))
    | .error _ => []

theorem loadMoments_of_find_ok {setting : Setting} {levels : Nat} {name : String}
    {template : Template} (h : setting.store.find name = .ok template) (s : State) :
    loadMoments setting (levels + 1) name s =
      .between (s.enter name) ::
        (templateMoments (loadWithin setting levels) (loadMoments setting levels) setting.fields
            name template (s.enter name) ++
          endMoments s.height ((runTemplate (loadWithin setting levels) setting.fields name
            template).run (s.enter name))) := by
  rw [loadMoments, h]

/-- The moments of a load at the outermost level, with the states before and after it. -/
def attemptMoments (setting : Setting) (name : String) (s : State) : List Moment :=
  .between s :: (loadMoments setting setting.maxDepth name s ++
    [.between (finalState ((load setting name).run s))])

/-- A state between two steps of a render. -/
def Reachable (setting : Setting) (t : State) : Prop :=
  ∃ view name chain s, Attempt setting view (name :: chain) s ∧
    .between t ∈ attemptMoments setting name s

/-! ## Chains of moments -/

/-- The moments `ms` lead from `s` to `t`, each related to the one before it. -/
structure Leads (R : Moment → Moment → Prop) (s : State) (ms : List Moment) (t : State) : Prop where
  chain : List.IsChain R (.between s :: ms)
  last : ∃ before, .between s :: ms = before ++ [.between t]

namespace Leads

variable {R S : Moment → Moment → Prop} {s t u : State} {ms ns : List Moment}

theorem nil (s : State) : Leads R s [] s := ⟨.singleton _, [], rfl⟩

theorem append (h : Leads R s ms t) (h' : Leads R t ns u) : Leads R s (ms ++ ns) u := by
  obtain ⟨hc, before, hb⟩ := h
  obtain ⟨hc', before', hb'⟩ := h'
  have heq : .between s :: (ms ++ ns) = before ++ .between t :: ns := by
    rw [← List.cons_append, hb, List.append_assoc, List.singleton_append]
  refine ⟨?_, before ++ before', ?_⟩
  · rw [heq]
    exact List.isChain_split.2 ⟨hb ▸ hc, hc'⟩
  · rw [heq, hb', List.append_assoc]

theorem step (h : R (.between s) (.between t)) : Leads R s [.between t] t :=
  ⟨.cons_cons h (.singleton _), [.between s], rfl⟩

theorem imp (h : Leads R s ms t) (hRS : ∀ ⦃m n⦄, n ∈ ms → R m n → S m n) : Leads S s ms t :=
  ⟨h.chain.imp_of_mem_tail_imp fun _ _ _ hn hr => hRS hn hr, h.last⟩

end Leads

/-- What the relation says of each later moment holds along the whole chain. -/
theorem forall_of_isChain {R : Moment → Moment → Prop} {Q : Moment → Prop} {m : Moment}
    {ms : List Moment} (h : List.IsChain R (m :: ms)) (hQ : ∀ m n, R m n → Q n) :
    ∀ n ∈ ms, Q n := by
  induction ms generalizing m with
  | nil => exact nofun
  | cons k ms ih =>
    obtain ⟨hr, hms⟩ := List.isChain_cons_cons.1 h
    exact List.forall_mem_cons.2 ⟨hQ _ _ hr, ih hms⟩

end ViewTemplates.Render
