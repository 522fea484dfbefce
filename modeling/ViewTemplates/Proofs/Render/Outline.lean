import ViewTemplates.Proofs.Render.Moments
import ViewTemplates.Proofs.Render.Stackless

/-!
# What a render does, whatever the fields are

The fields of a view only change texts. `State.outline` is a state without the texts: the number of
scopes, the known sections by name, the open section, the view to be extended, the running
templates, the counters, and the history with the names of the sections but not their contents.

* `render_outline_eq`: two renders of a view of directive templates with different fields have
  states of the same outlines, and end both with a page or both with the same fault.

Each call takes states of one outline to states of one outline, and fails in both or in neither
(`Alike.extend`, `Alike.beginSection`, `Alike.close`). So runs are `Alike` if they are made of such
calls, and their moments have the same outlines (`loadWithin_alike`, `loadMoments_outline`).
-/

set_option autoImplicit false

namespace ViewTemplates.Render

open Markup

/-- The event without the texts of the section. -/
def Event.outline : Event → Event
  | closed name _ _ => closed name "" ""
  | e => e

/-- A state without the texts that were written. -/
structure Outline where
  height : Nat
  /-- Whether a section of this name was closed. -/
  known : String → Bool
  openSection : Option OpenSection
  parent : Option String
  loading : List String
  opened : Nat
  closed : Nat
  history : List Entry

/-- What of a state does not depend on the texts that were written. -/
def State.outline (s : State) : Outline where
  height := s.height
  known := fun name => s.sections.contains name
  openSection := s.openSection
  parent := s.parent
  loading := s.loading
  opened := s.opened
  closed := s.closed
  history := s.history.map fun e => { e with event := e.event.outline }

namespace State

/-! ## Calls -/

theorem outline_write (s : State) (text : String) : (s.write text).outline = s.outline := rfl

theorem outline_record (s : State) (e : Event) :
    (s.record e).outline = { s.outline with
      history := ⟨e.outline, s.outline.opened, s.outline.closed⟩ :: s.outline.history } := rfl

theorem outline_openScope (s : State) :
    s.openScope.outline = { s.outline with
      height := s.outline.height + 1, opened := s.outline.opened + 1 } := rfl

theorem outline_closeScope (s : State) :
    s.closeScope.2.outline =
      if s.outline.height = 1 then s.outline
      else { s.outline with height := s.outline.height - 1, closed := s.outline.closed + 1 } := by
  cases hs : s.scopes.below with
  | nil => simp [closeScope, Scopes.pop?, hs, outline, height, Scopes.height]
  | cons => simp [closeScope, Scopes.pop?, hs, outline, height, Scopes.height]

theorem outline_closed (s : State) (name captured content : String) :
    (({ s with openSection := none, sections := s.sections.insert name content }.write
      content).record (.closed name captured content)).outline =
      { s.outline with
        known := fun n => compare name n == .eq || s.outline.known n
        openSection := none
        history := ⟨.closed name "" "", s.outline.opened, s.outline.closed⟩ ::
          s.outline.history } := by
  simp [outline, record, write, height, Scopes.height, Scopes.write, Event.outline]

theorem below_eq_nil_iff (s : State) : s.scopes.below = [] ↔ s.outline.height = 1 := by
  simp [outline, height, Scopes.height]

theorem ownSection?_eq (s : State) :
    s.ownSection? = s.outline.openSection.filter fun o => o.scope + 1 = s.outline.height := rfl

section
variable {s t : State} (h : s.outline = t.outline)
include h

theorem closeScopes_outline (n : Nat) : (s.closeScopes n).outline = (t.closeScopes n).outline := by
  induction n generalizing s t with
  | zero => exact h
  | succ n ih =>
    apply ih
    rw [outline_closeScope, outline_closeScope, h]

theorem ownSection?_congr : s.ownSection? = t.ownSection? := by
  rw [ownSection?_eq, ownSection?_eq, h]

theorem restartScope_outline : s.restartScope.outline = t.restartScope.outline := by
  rw [restartScope, restartScope]
  simp only [below_eq_nil_iff, h]
  split
  · exact h
  · rw [outline_openScope, outline_openScope, outline_closeScope, outline_closeScope, h]

theorem unwind_outline (entry : Nat) : (s.unwind entry).outline = (t.unwind entry).outline := by
  have ho : s.openSection = t.openSection := congrArg Outline.openSection h
  have hh : s.height = t.height := congrArg Outline.height h
  rw [unwind, unwind, hh, ho]
  exact congrArg (fun o : Outline => { o with
    openSection := t.openSection.filter fun p => p.scope < entry }) (closeScopes_outline h _)

theorem enter_outline (name : String) : (s.enter name).outline = (t.enter name).outline :=
  congrArg (fun o : Outline => { o with
    height := o.height + 1, loading := name :: o.loading, opened := o.opened + 1,
    history := ⟨.loaded name, o.opened + 1, o.closed⟩ :: o.history }) h

theorem leave_outline : s.leave.outline = t.leave.outline :=
  congrArg (fun o : Outline => { o with loading := o.loading.tail }) h

theorem takeParent_outline : s.takeParent.outline = t.takeParent.outline :=
  congrArg (fun o : Outline => { o with parent := none }) h

end

end State

/-! ## Runs -/

/-- How a run ended, without any text. -/
def ending {α : Type} : EStateM.Result Fault State α → Except Fault Unit × Outline
  | .ok _ s => (.ok (), s.outline)
  | .error e s => (.error e, s.outline)

theorem eq_ok_of_ending_eq {α β : Type} {a : α} {s : State} {r : EStateM.Result Fault State β}
    (h : ending (.ok a s) = ending r) : ∃ b t, r = .ok b t ∧ s.outline = t.outline := by
  cases r with
  | ok b t => exact ⟨b, t, rfl, (Prod.mk.inj h).2⟩
  | error => cases (Prod.mk.inj h).1

theorem eq_error_of_ending_eq {α β : Type} {e : Fault} {s : State}
    {r : EStateM.Result Fault State β}
    (h : ending (α := α) (.error e s) = ending r) :
    ∃ t, r = .error e t ∧ s.outline = t.outline := by
  cases r with
  | ok => cases (Prod.mk.inj h).1
  | error e' t =>
    obtain ⟨he, hst⟩ := Prod.mk.inj h
    cases he
    exact ⟨t, rfl, hst⟩

/-- Runs that end alike end both with a result or both with the same fault. -/
theorem cases_of_ending_eq {α β : Type} {r₁ : EStateM.Result Fault State α}
    {r₂ : EStateM.Result Fault State β} (h : ending r₁ = ending r₂) :
    (∃ a s b t, r₁ = .ok a s ∧ r₂ = .ok b t ∧ s.outline = t.outline) ∨
      ∃ e s t, r₁ = .error e s ∧ r₂ = .error e t ∧ s.outline = t.outline := by
  cases r₁ with
  | ok a s =>
    obtain ⟨b, t, rfl, hst⟩ := eq_ok_of_ending_eq h
    exact .inl ⟨a, s, b, t, rfl, rfl, hst⟩
  | error e s =>
    obtain ⟨t, rfl, hst⟩ := eq_error_of_ending_eq h
    exact .inr ⟨e, s, t, rfl, rfl, hst⟩

theorem outline_finalState {α β : Type} {r₁ : EStateM.Result Fault State α}
    {r₂ : EStateM.Result Fault State β} (h : ending r₁ = ending r₂) :
    (finalState r₁).outline = (finalState r₂).outline := by
  obtain ⟨_, _, _, _, rfl, rfl, hst⟩ | ⟨_, _, _, rfl, rfl, hst⟩ := cases_of_ending_eq h
  · exact hst
  · exact hst

/-- Begun in states of one outline, the runs end alike. -/
def Alike {α β : Type} (run₁ : Run α) (run₂ : Run β) : Prop :=
  ∀ s t, s.outline = t.outline → ending (run₁.run s) = ending (run₂.run t)

namespace Alike

variable {α β α' β' : Type}

theorem pure (a : α) (b : β) : Alike (Pure.pure a : Run α) (Pure.pure b : Run β) := by
  intro s t h
  exact congrArg (Prod.mk _) h

theorem throw (e : Fault) : Alike (throw e : Run α) (throw e : Run β) := by
  intro s t h
  exact congrArg (Prod.mk _) h

theorem modify {f g : State → State} (hf : ∀ s, (f s).outline = s.outline)
    (hg : ∀ s, (g s).outline = s.outline) : Alike (modify f) (modify g) := by
  intro s t h
  exact congrArg (Prod.mk _) ((hf s).trans (h.trans (hg t).symm))

theorem bind {run₁ : Run α} {run₂ : Run β} {next₁ : α → Run α'} {next₂ : β → Run β'}
    (h : Alike run₁ run₂) (hnext : ∀ a b, Alike (next₁ a) (next₂ b)) :
    Alike (run₁ >>= next₁) (run₂ >>= next₂) := by
  intro s t hst
  rw [EStateM.run_bind, EStateM.run_bind]
  obtain ⟨a, s', b, t', h₁, h₂, hst'⟩ | ⟨e, s', t', h₁, h₂, hst'⟩ := cases_of_ending_eq (h s t hst)
  · rw [h₁, h₂]
    exact hnext a b s' t' hst'
  · rw [h₁, h₂]
    exact congrArg (Prod.mk _) hst'

theorem extend (parent : String) : Alike (Run.extend parent) (Run.extend parent) := by
  intro s t h
  have hset : ({ s with parent := some parent } : State).outline =
      ({ t with parent := some parent } : State).outline :=
    congrArg (fun o : Outline => { o with parent := some parent }) h
  rw [Run.run_extend, Run.run_extend, State.ownSection?_congr h]
  split
  · exact congrArg (Prod.mk _) h
  · have hr := State.restartScope_outline hset
    refine congrArg (Prod.mk _) ?_
    rw [State.outline_record, State.outline_record, hr]

theorem beginSection (name : String) : Alike (Run.beginSection name) (Run.beginSection name) := by
  intro s t h
  have ho : s.openSection = t.openSection := congrArg Outline.openSection h
  rw [Run.run_beginSection, Run.run_beginSection, ho]
  split
  · exact congrArg (Prod.mk _) h
  · exact congrArg (fun o : Outline => (Except.ok (), { o with
      height := o.height + 1, openSection := some ⟨name, o.height⟩, opened := o.opened + 1,
      history := ⟨.opened name, o.opened + 1, o.closed⟩ :: o.history })) h

theorem close : Alike Run.close Run.close := by
  intro s t h
  have ho : s.openSection = t.openSection := congrArg Outline.openSection h
  have hh : s.height = t.height := congrArg Outline.height h
  have hc : s.closeScope.2.outline = t.closeScope.2.outline := State.closeScopes_outline h 1
  rw [Run.run_close, Run.run_close, ho, hh]
  split
  · exact congrArg (Prod.mk _) h
  · split
    · rename_i o _ _
      have hs := State.outline_closed s.closeScope.2 o.name s.closeScope.1
        (s.mergedContent o.name s.closeScope.1)
      have ht := State.outline_closed t.closeScope.2 o.name t.closeScope.1
        (t.mergedContent o.name t.closeScope.1)
      rw [hc] at hs
      exact congrArg (Prod.mk _) (hs.trans ht.symm)
    · exact congrArg (Prod.mk _) h

theorem framed {run₁ run₂ : Run Unit} (h : Alike run₁ run₂) (name : String) :
    Alike (Run.framed name run₁) (Run.framed name run₂) := by
  intro s t hst
  have hh : s.height = t.height := congrArg Outline.height hst
  rw [Run.run_framed, Run.run_framed, hh]
  obtain ⟨_, s', _, t', h₁, h₂, hst'⟩ | ⟨e, s', t', h₁, h₂, hst'⟩ :=
    cases_of_ending_eq (h _ _ (State.enter_outline hst name))
  · have hun : s'.unclosed? t.height = t'.unclosed? t.height :=
      congrArg (·.filter fun o => t.height < o.scope) (congrArg Outline.openSection hst')
    simp only [h₁, h₂, hun]
    split
    · exact congrArg (Prod.mk _) (State.closeScopes_outline (State.leave_outline hst') 1)
    · exact congrArg (Prod.mk _) (State.unwind_outline (State.leave_outline hst') t.height)
  · rw [h₁, h₂]
    exact congrArg (Prod.mk _) (State.unwind_outline (State.leave_outline hst') t.height)

end Alike

/-! ## Templates and loads -/

section
variable {loader₁ loader₂ : String → Run String} (hl : ∀ p, Alike (loader₁ p) (loader₂ p))
  (fields₁ fields₂ : Fields)
include hl

theorem runNode_alike (node : Node) :
    Alike (runNode loader₁ fields₁ node) (runNode loader₂ fields₂ node) := by
  cases node with
  | comment => exact .pure _ _
  | text | field | showSection =>
    exact .modify (State.outline_write · _) (State.outline_write · _)
  | extend p => exact .extend p
  | beginSection n => exact .beginSection n
  | close => exact .bind .close fun _ _ => .pure _ _
  | includePartial p =>
    exact .bind (hl p) fun _ _ => .modify (State.outline_write · _) (State.outline_write · _)

theorem runBody_alike (body : Body) :
    Alike (runBody loader₁ fields₁ body) (runBody loader₂ fields₂ body) := by
  induction body with
  | nil => exact .pure _ _
  | cons node body ih => exact .bind (runNode_alike hl fields₁ fields₂ node) fun _ _ => ih

end

section
variable {store : Store} {bodies : Bodies} (h : store.HasBodies bodies) (fields₁ fields₂ : Fields)
  (maxDepth : Nat)
include h

theorem loadWithin_alike (levels : Nat) (name : String) :
    Alike (loadWithin ⟨store, fields₁, maxDepth⟩ levels name)
      (loadWithin ⟨store, fields₂, maxDepth⟩ levels name) := by
  induction levels generalizing name with
  | zero => exact .throw _
  | succ levels ih =>
    rw [loadWithin, loadWithin, h name]
    cases bodies name with
    | error e => exact .throw e
    | ok body => exact .framed (runBody_alike ih fields₁ fields₂ body) name

theorem load_alike (name : String) :
    Alike (load ⟨store, fields₁, maxDepth⟩ name) (load ⟨store, fields₂, maxDepth⟩ name) := by
  intro s t hst
  have hlevels : s.levelsLeft ⟨store, fields₁, maxDepth⟩ =
      t.levelsLeft ⟨store, fields₂, maxDepth⟩ :=
    congrArg (fun o : Outline => maxDepth - o.loading.length) hst
  rw [run_load_eq_loadWithin, run_load_eq_loadWithin, hlevels]
  exact loadWithin_alike h fields₁ fields₂ maxDepth _ name s t hst

end

/-! ## Moments -/

/-- The outline of the state at a moment. -/
def Moment.outline (m : Moment) : Outline := m.state.outline

namespace State

variable {s t : State} (h : s.outline = t.outline)
include h

theorem closeMoments_outline :
    s.closeMoments.map Moment.outline = t.closeMoments.map Moment.outline := by
  rw [closeMoments, closeMoments, ownSection?_congr h]
  split
  · rfl
  · exact congrArg (fun o => [o]) h

theorem extendMoments_outline (parent : String) :
    (s.extendMoments parent).map Moment.outline = (t.extendMoments parent).map Moment.outline := by
  rw [extendMoments, extendMoments, ownSection?_congr h]
  simp only [Ne, below_eq_nil_iff, h]
  split
  · exact congrArg (fun o : Outline => [{ o with parent := some parent }]) h
  · rfl

theorem unwindMoments_outline (entry : Nat) :
    (s.unwindMoments entry).map Moment.outline = (t.unwindMoments entry).map Moment.outline := by
  have hh : s.height = t.height := congrArg Outline.height h
  rw [unwindMoments, unwindMoments, hh, List.map_map, List.map_map]
  exact List.map_congr_left fun n _ => closeScopes_outline h n

end State

theorem endMoments_outline {r₁ r₂ : EStateM.Result Fault State Unit} (h : ending r₁ = ending r₂)
    (entry : Nat) :
    (endMoments entry r₁).map Moment.outline = (endMoments entry r₂).map Moment.outline := by
  obtain ⟨_, s, _, t, rfl, rfl, hst⟩ | ⟨e, s, t, rfl, rfl, hst⟩ := cases_of_ending_eq h
  · have hun : s.unclosed? entry = t.unclosed? entry :=
      congrArg (·.filter fun o => entry < o.scope) (congrArg Outline.openSection hst)
    rw [endMoments, endMoments, hun]
    split
    · exact congrArg (fun o => [o]) (State.leave_outline hst)
    · exact State.unwindMoments_outline (State.leave_outline hst) entry
  · exact State.unwindMoments_outline (State.leave_outline hst) entry

section
variable {loader₁ loader₂ : String → Run String} (hl : ∀ p, Alike (loader₁ p) (loader₂ p))
  {inner₁ inner₂ : String → State → List Moment}
  (hi : ∀ p s t, s.outline = t.outline →
    (inner₁ p s).map Moment.outline = (inner₂ p t).map Moment.outline)
include hi

theorem nodeMoments_outline (node : Node) {s t : State} (h : s.outline = t.outline) :
    (nodeMoments inner₁ node s).map Moment.outline =
      (nodeMoments inner₂ node t).map Moment.outline := by
  cases node with
  | extend parent => exact State.extendMoments_outline h parent
  | close => exact State.closeMoments_outline h
  | includePartial p => exact hi p s t h
  | comment | text | field | beginSection | showSection => rfl

include hl

theorem bodyMoments_outline (fields₁ fields₂ : Fields) (body : Body) {s t : State}
    (h : s.outline = t.outline) :
    (bodyMoments loader₁ inner₁ fields₁ body s).map Moment.outline =
      (bodyMoments loader₂ inner₂ fields₂ body t).map Moment.outline := by
  induction body generalizing s t with
  | nil => rfl
  | cons node body ih =>
    rw [bodyMoments, bodyMoments, List.map_append, List.map_append, nodeMoments_outline hi node h]
    congr 1
    obtain ⟨_, s', _, t', h₁, h₂, hst⟩ | ⟨e, s', t', h₁, h₂, hst⟩ :=
      cases_of_ending_eq (runNode_alike hl fields₁ fields₂ node s t h)
    · rw [h₁, h₂]
      exact congr_arg₂ List.cons hst (ih hst)
    · rw [h₁, h₂]
      exact congrArg (fun o => [o]) hst

end

section
variable {store : Store} {bodies : Bodies} (h : store.HasBodies bodies) (fields₁ fields₂ : Fields)
  (maxDepth : Nat)
include h

theorem loadMoments_outline (levels : Nat) (name : String) (s t : State)
    (hst : s.outline = t.outline) :
    (loadMoments ⟨store, fields₁, maxDepth⟩ levels name s).map Moment.outline =
      (loadMoments ⟨store, fields₂, maxDepth⟩ levels name t).map Moment.outline := by
  induction levels generalizing name s t with
  | zero => rfl
  | succ levels ih =>
    rw [loadMoments, loadMoments, h name]
    cases bodies name with
    | error e => rfl
    | ok body =>
      have he := State.enter_outline hst name
      have hh : s.height = t.height := congrArg Outline.height hst
      have hl := loadWithin_alike h fields₁ fields₂ maxDepth levels
      have hb := bodyMoments_outline hl ih fields₁ fields₂ body he
      have hend := endMoments_outline (runBody_alike hl fields₁ fields₂ body _ _ he) t.height
      simp only [Except.map, List.map_cons, List.map_append, hh]
      exact congr_arg₂ List.cons he (congr_arg₂ (· ++ ·) hb hend)

theorem attemptMoments_outline (name : String) {s t : State} (hst : s.outline = t.outline) :
    (attemptMoments ⟨store, fields₁, maxDepth⟩ name s).map Moment.outline =
      (attemptMoments ⟨store, fields₂, maxDepth⟩ name t).map Moment.outline := by
  have hm := loadMoments_outline h fields₁ fields₂ maxDepth maxDepth name s t hst
  have hend := outline_finalState (load_alike h fields₁ fields₂ maxDepth name s t hst)
  rw [attemptMoments, attemptMoments]
  simp only [List.map_cons, List.map_append]
  exact congr_arg₂ List.cons hst (congr_arg₂ (· ++ ·) hm (congrArg (fun o => [o]) hend))

/-! ## Renders -/

/-- What a render comes to load with some fields, it comes to load with any others. -/
theorem Attempt.exists_alike {view : String} {names : List String} {s : State}
    (ha : Attempt ⟨store, fields₁, maxDepth⟩ view names s) :
    ∃ t, Attempt ⟨store, fields₂, maxDepth⟩ view names t ∧ s.outline = t.outline := by
  induction ha with
  | view => exact ⟨{}, .view, rfl⟩
  | @parent name parent _ _ _ s' _ hl hp hc ih =>
    obtain ⟨t, ht, hst⟩ := ih
    have hload := load_alike h fields₁ fields₂ maxDepth name _ _ hst
    rw [hl] at hload
    obtain ⟨output, t', hl', hst'⟩ := eq_ok_of_ending_eq hload
    have hp' : t'.parent = some parent := (congrArg Outline.parent hst').symm.trans hp
    exact ⟨_, .parent ht hl' hp' hc, State.takeParent_outline hst'⟩

/-- Two attempts in states of one outline end the render alike. -/
theorem Attempt.Ends.exists_alike {name : String} {chain : List String} {s t : State}
    {outcome : Outcome} (hst : s.outline = t.outline)
    (hends : Attempt.Ends ⟨store, fields₁, maxDepth⟩ name chain s outcome) :
    ∃ outcome', Attempt.Ends ⟨store, fields₂, maxDepth⟩ name chain t outcome' ∧
      ending outcome = ending outcome' := by
  have hload := load_alike h fields₁ fields₂ maxDepth name s t hst
  cases hends with
  | fault hl =>
    rw [hl] at hload
    obtain ⟨t', hl', hst'⟩ := eq_error_of_ending_eq hload
    exact ⟨_, .fault hl', congrArg (Prod.mk _) hst'⟩
  | page hl hp =>
    rw [hl] at hload
    obtain ⟨output, t', hl', hst'⟩ := eq_ok_of_ending_eq hload
    have hp' : t'.parent = none := (congrArg Outline.parent hst').symm.trans hp
    exact ⟨_, .page hl' hp', congrArg (Prod.mk _) hst'⟩
  | @cycle parent _ _ hl hp hc =>
    rw [hl] at hload
    obtain ⟨output, t', hl', hst'⟩ := eq_ok_of_ending_eq hload
    have hp' : t'.parent = some parent := (congrArg Outline.parent hst').symm.trans hp
    exact ⟨_, .cycle hl' hp' hc, congrArg (Prod.mk _) (State.takeParent_outline hst')⟩

theorem ending_render_eq (view : String) :
    (render ⟨store, fields₁, maxDepth⟩ view).map ending =
      (render ⟨store, fields₂, maxDepth⟩ view).map ending := by
  cases hr : render ⟨store, fields₁, maxDepth⟩ view with
  | none =>
    have hr' : render ⟨store, fields₂, maxDepth⟩ view = none :=
      render_eq_none_of_attempts hr fun _ _ ha =>
        (ha.exists_alike h fields₁ fields₂ maxDepth).imp fun _ => And.left
    rw [hr']
  | some outcome =>
    obtain ⟨name, chain, s, ha, hends⟩ := render_cases hr
    obtain ⟨t, ht, hst⟩ := ha.exists_alike h fields₁ fields₂ maxDepth
    obtain ⟨outcome', hends', heq⟩ := hends.exists_alike h fields₁ fields₂ maxDepth hst
    rw [hends'.render_eq ht]
    exact congrArg some heq

/-- Whatever the fields are, a render goes through the same outlines and ends with the same
fault, or with a page. -/
theorem render_outline_eq (view : String) :
    (render ⟨store, fields₁, maxDepth⟩ view).map ending =
        (render ⟨store, fields₂, maxDepth⟩ view).map ending ∧
      ∀ name chain s, Attempt ⟨store, fields₁, maxDepth⟩ view (name :: chain) s →
        ∃ t, Attempt ⟨store, fields₂, maxDepth⟩ view (name :: chain) t ∧
          (attemptMoments ⟨store, fields₁, maxDepth⟩ name s).map Moment.outline =
            (attemptMoments ⟨store, fields₂, maxDepth⟩ name t).map Moment.outline := by
  refine ⟨ending_render_eq h fields₁ fields₂ maxDepth view, fun name chain s ha => ?_⟩
  obtain ⟨t, ht, hst⟩ := ha.exists_alike h fields₁ fields₂ maxDepth
  exact ⟨t, ht, attemptMoments_outline h fields₁ fields₂ maxDepth name hst⟩

end

/-- A page that writes a field in a section, for a layout that shows it. -/
def nameTemplates : List (String × Body) :=
  [("page", [.beginSection "body", .field "name", .close, .extend "layout"]),
    ("layout", [.text "-- ", .showSection "body"])]

theorem render_outline_eq_name :
    let store := (MemoryStore.ofBodies nameTemplates).toStore
    let fields : Fields := .ofList [("name", Value.text "@parent@close")]
    store.HasBodies (.ofList nameTemplates) ∧
      result ⟨store, fields, 2⟩ "page" = some (.ok "-- @parent@close") ∧
      (render ⟨store, ∅, 2⟩ "page").map ending = (render ⟨store, fields, 2⟩ "page").map ending ∧
      ∃ t, Attempt ⟨store, fields, 2⟩ "page" ["page"] t ∧
        (attemptMoments ⟨store, ∅, 2⟩ "page" {}).map Moment.outline =
          (attemptMoments ⟨store, fields, 2⟩ "page" t).map Moment.outline := by
  intro store fields
  have h : store.HasBodies (.ofList nameTemplates) := MemoryStore.ofBodies_hasBodies nameTemplates
  have hrender : result ⟨store, fields, 2⟩ "page" = some (.ok "-- @parent@close") := by
    rw [result, render, climb_of_parent rfl rfl (by decide), climb_of_page rfl rfl]
    rfl
  obtain ⟨hending, hmoments⟩ := render_outline_eq h ∅ fields 2 "page"
  exact ⟨h, hrender, hending, hmoments "page" [] {} .view⟩

end ViewTemplates.Render
