import ViewTemplates.Iteration
import ViewTemplates.Render.Keeps

/-!
# Chains of views

A view may say that it extends another. Then its output is dropped and the other view is rendered in
its place, with the sections that are known so far, and so on. A view that would come up twice ends
the chain with a fault.

A store that makes up ever new views can go on so without end, and then there is no outcome. If the
store is bounded, every render ends (`halts_climbStep`), and `renderBounded` computes its outcome.
-/

set_option autoImplicit false

namespace ViewTemplates.Render

/-- How a render ended, and the state it ended in. -/
abbrev Outcome := EStateM.Result Fault State String

/-- The state with no view to be extended. -/
def State.takeParent (s : State) : State := { s with parent := none }

/-- How far a render has come: the view to be rendered next, and those `before` it, the latest
first. -/
structure Climb where
  before : List String
  name : String
  state : State

/-- Renders a view. What comes next is the outcome, or the view that it extends. -/
def climbStep (setting : Setting) (x : Climb) : Outcome ⊕ Climb :=
  match (load setting x.name).run x.state with
  | .error e s => .inl (.error e s)
  | .ok output s =>
    match s.parent with
    | none => .inl (.ok output s)
    | some parent =>
      if parent ∈ x.name :: x.before then
        .inl (.error (.extendCycle (parent :: x.name :: x.before).reverse) s.takeParent)
      else
        .inr ⟨x.name :: x.before, parent, s.takeParent⟩

/-- Goes on with the view `name`, and then with the view that it extends, as long as there is one.
There is no outcome if this does not come to an end. -/
noncomputable def climb (setting : Setting) (before : List String) (name : String) (s : State) :
    Option Outcome :=
  iterate? (climbStep setting) ⟨before, name, s⟩

/-- Renders the view of a name: runs its template, then the view that it extends, and so on. -/
noncomputable def render (setting : Setting) (name : String) : Option Outcome :=
  climb setting [] name {}

section
variable {setting : Setting} {before : List String} {name : String} {s s' : State}

theorem climbStep_of_load_error {e : Fault} (hl : (load setting name).run s = .error e s') :
    climbStep setting ⟨before, name, s⟩ = .inl (.error e s') := by
  simp only [climbStep, hl]

theorem climbStep_of_page {output : String} (hl : (load setting name).run s = .ok output s')
    (hp : s'.parent = none) : climbStep setting ⟨before, name, s⟩ = .inl (.ok output s') := by
  simp only [climbStep, hl, hp]

theorem climbStep_of_cycle {parent output : String}
    (hl : (load setting name).run s = .ok output s') (hp : s'.parent = some parent)
    (hc : parent ∈ name :: before) :
    climbStep setting ⟨before, name, s⟩ =
      .inl (.error (.extendCycle (parent :: name :: before).reverse) s'.takeParent) := by
  simp only [climbStep, hl, hp, if_pos hc]

theorem climbStep_of_parent {parent output : String}
    (hl : (load setting name).run s = .ok output s') (hp : s'.parent = some parent)
    (hc : parent ∉ name :: before) :
    climbStep setting ⟨before, name, s⟩ = .inr ⟨name :: before, parent, s'.takeParent⟩ := by
  simp only [climbStep, hl, hp, if_neg hc]

theorem climbStep_eq_inr {next : Climb} (h : climbStep setting ⟨before, name, s⟩ = .inr next) :
    ∃ parent output s', (load setting name).run s = .ok output s' ∧ s'.parent = some parent ∧
      parent ∉ name :: before ∧ next = ⟨name :: before, parent, s'.takeParent⟩ := by
  cases hl : (load setting name).run s with
  | error e s' => cases (climbStep_of_load_error hl).symm.trans h
  | ok output s' =>
    cases hp : s'.parent with
    | none => cases (climbStep_of_page hl hp).symm.trans h
    | some parent =>
      by_cases hc : parent ∈ name :: before
      · cases (climbStep_of_cycle hl hp hc).symm.trans h
      · cases (climbStep_of_parent hl hp hc).symm.trans h
        exact ⟨parent, output, s', rfl, hp, hc, rfl⟩

theorem climb_of_load_error {e : Fault} (hl : (load setting name).run s = .error e s') :
    climb setting before name s = some (.error e s') :=
  iterate?_of_inl (climbStep_of_load_error hl)

theorem climb_of_page {output : String} (hl : (load setting name).run s = .ok output s')
    (hp : s'.parent = none) : climb setting before name s = some (.ok output s') :=
  iterate?_of_inl (climbStep_of_page hl hp)

theorem climb_of_cycle {parent output : String} (hl : (load setting name).run s = .ok output s')
    (hp : s'.parent = some parent) (hc : parent ∈ name :: before) :
    climb setting before name s =
      some (.error (.extendCycle (parent :: name :: before).reverse) s'.takeParent) :=
  iterate?_of_inl (climbStep_of_cycle hl hp hc)

theorem climb_of_parent {parent output : String} (hl : (load setting name).run s = .ok output s')
    (hp : s'.parent = some parent) (hc : parent ∉ name :: before) :
    climb setting before name s = climb setting (name :: before) parent s'.takeParent :=
  iterate?_of_inr (climbStep_of_parent hl hp hc)

end

/-- What the render of a view gives, without the state that it ends in. -/
noncomputable def result (setting : Setting) (name : String) : Option (Except Fault String) :=
  (render setting name).map resultOf

theorem result_of_render {setting : Setting} {name : String} {outcome : Outcome}
    (h : render setting name = some outcome) : result setting name = some (resultOf outcome) := by
  rw [result, h, Option.map_some]

/-! ## Renders end -/

theorem length_filter_notMem_cons_lt {names chain : List String} {p : String} (hp : p ∈ names)
    (hc : p ∉ chain) :
    (names.filter (· ∉ p :: chain)).length < (names.filter (· ∉ chain)).length := by
  have heq : names.filter (· ∉ p :: chain) = (names.filter (· ∉ chain)).filter (· ≠ p) := by
    rw [List.filter_filter]
    exact List.filter_congr fun q _ => by simp
  rw [heq]
  refine List.length_filter_lt_length_iff_exists.2 ⟨p, List.mem_filter.2 ⟨hp, ?_⟩, ?_⟩ <;> simp [hc]

theorem exists_find_of_load {setting : Setting} {name output : String} {s s' : State}
    (hl : (load setting name).run s = .ok output s') :
    ∃ template, setting.store.find name = .ok template := by
  rw [run_load] at hl
  split at hl
  · cases hl
  · split at hl
    · exact ⟨_, ‹_›⟩
    · cases hl

theorem load_parentAsked {setting : Setting} {name output : String} {s s' : State}
    (hs : ParentAsked setting.store s) (hl : (load setting name).run s = .ok output s') :
    ParentAsked setting.store s' := by
  have hk := loadWithin_parentAsked setting (s.levelsLeft setting) name s hs
  rwa [← run_load_eq_loadWithin, hl] at hk

theorem halts_of_asks {setting : Setting} {names before : List String} {name : String} {s : State}
    (hb : setting.store.BoundedBy names) (hasks : setting.store.Asks name) (hc : name ∉ before)
    (hs : s.parent = none) : Halts (climbStep setting) ⟨before, name, s⟩ := by
  -- each view leaves fewer of those that can be extended
  induction hn : (names.filter (· ∉ before)).length using Nat.strongRecOn
    generalizing before name s with
  | ind n ih =>
    refine .intro _ fun next hnext => ?_
    obtain ⟨parent, _, s', hl, hp, hc', rfl⟩ := climbStep_eq_inr hnext
    obtain ⟨template, hfind⟩ := exists_find_of_load hl
    have hlt := length_filter_notMem_cons_lt (hb name template hasks hfind) hc
    exact ih _ (hn ▸ hlt) (load_parentAsked (parentAsked_of_none hs) hl parent hp) hc' rfl rfl

/-- With a bounded store every render ends. -/
theorem halts_climbStep {setting : Setting} (h : setting.store.Bounded) (name : String) :
    Halts (climbStep setting) ⟨[], name, {}⟩ := by
  obtain ⟨names, hb⟩ := h
  refine .intro _ fun next hnext => ?_
  obtain ⟨parent, _, s, hl, hp, hc, rfl⟩ := climbStep_eq_inr hnext
  exact halts_of_asks hb (load_parentAsked (parentAsked_of_none rfl) hl parent hp) hc rfl

/-- The outcome of a render with a bounded store. -/
def renderBounded (setting : Setting) (h : setting.store.Bounded) (name : String) : Outcome :=
  iterate (climbStep setting) ⟨[], name, {}⟩ (halts_climbStep h name)

theorem render_eq_renderBounded {setting : Setting} (h : setting.store.Bounded) (name : String) :
    render setting name = some (renderBounded setting h name) :=
  iterate?_of_halts (halts_climbStep h name)

end ViewTemplates.Render
