import ViewTemplates.Proofs.Render.Stackless
import ViewTemplates.View

/-!
# The limit on nested templates

The limit only ever turns a result into the fault that templates are nested too deep. Two runs with
different limits are compared by `SameUnlessDeep`: unless the first one has that fault, the second
one ends in the same way and in the same state. Nodes, bodies and templates keep this, so loads with
more room have it, by induction on the levels (`loadWithin_sameUnlessDeep`).

Where the fault comes from is followed by `Requests`: a load comes to request another one in some
state, by itself or through its partials. One template more runs on each step of the way, and a
request is refused only if as many templates run as the limit says (`exists_requests`).

* `render_limit`: raising the limit does not change a render that did not hit it, and one that hits
  it does so with that many templates running.
-/

set_option autoImplicit false

namespace ViewTemplates.Render

open Markup

/-! ## Runs with different limits -/

/-- The run failed because templates are nested too deep. -/
def TooDeep {α : Type} (r : EStateM.Result Fault State α) : Prop :=
  ∃ name limit s, r = .error (.nestedTooDeep name limit) s

theorem not_tooDeep_ok {α : Type} {a : α} {s : State} :
    ¬ TooDeep (.ok a s : EStateM.Result Fault State α) := by
  rintro ⟨_, _, _, h⟩
  cases h

/-- Unless the first run fails because templates are nested too deep, the second ends as it does. -/
def SameUnlessDeep {α : Type} (run₁ run₂ : Run α) : Prop :=
  ∀ s, TooDeep (run₁.run s) ∨ run₂.run s = run₁.run s

namespace SameUnlessDeep

variable {α β : Type}

theorem refl (run : Run α) : SameUnlessDeep run run := fun _ => .inr rfl

theorem bind {run₁ run₂ : Run α} {next : α → Run β} {next' : α → Run β}
    (h : SameUnlessDeep run₁ run₂) (hnext : ∀ a, SameUnlessDeep (next a) (next' a)) :
    SameUnlessDeep (run₁ >>= next) (run₂ >>= next') := by
  intro s
  rw [EStateM.run_bind, EStateM.run_bind]
  rcases h s with ⟨name, limit, s', hr⟩ | heq
  · left
    rw [hr]
    exact ⟨name, limit, s', rfl⟩
  · rw [heq]
    cases run₁.run s with
    | error e s' => exact .inr rfl
    | ok a s' => exact hnext a s'

theorem framed {run₁ run₂ : Run Unit} (h : SameUnlessDeep run₁ run₂) (name : String) :
    SameUnlessDeep (Run.framed name run₁) (Run.framed name run₂) := by
  intro s
  rw [Run.run_framed, Run.run_framed]
  rcases h (s.enter name) with ⟨p, limit, s', hr⟩ | heq
  · left
    rw [hr]
    exact ⟨p, limit, _, rfl⟩
  · right
    rw [heq]

end SameUnlessDeep

section
variable {loader₁ loader₂ : String → Run String}
  (hl : ∀ p, SameUnlessDeep (loader₁ p) (loader₂ p)) (fields : Fields)
include hl

theorem runNode_sameUnlessDeep (node : Node) :
    SameUnlessDeep (runNode loader₁ fields node) (runNode loader₂ fields node) := by
  cases node with
  | includePartial p => exact .bind (hl p) fun _ => .refl _
  | comment | text | field | extend | beginSection | close | showSection => exact .refl _

theorem runBody_sameUnlessDeep (body : Body) :
    SameUnlessDeep (runBody loader₁ fields body) (runBody loader₂ fields body) := by
  induction body with
  | nil => exact .refl _
  | cons node body ih => exact .bind (runNode_sameUnlessDeep hl fields node) fun _ => ih

end

section
variable {store : Store} {bodies : Bodies} (h : store.HasBodies bodies) {fields : Fields}
include h

/-- A load that does not hit its limit gives the same with room for `more` levels. -/
theorem loadWithin_sameUnlessDeep (n m more levels : Nat) (name : String) :
    SameUnlessDeep (loadWithin ⟨store, fields, n⟩ levels name)
      (loadWithin ⟨store, fields, m⟩ (levels + more) name) := by
  induction levels generalizing name with
  | zero => exact fun s => .inl ⟨name, n, s, rfl⟩
  | succ levels ih =>
    rw [Nat.add_right_comm, loadWithin, loadWithin, h name]
    cases bodies name with
    | error e => exact .refl _
    | ok body => exact .framed (runBody_sameUnlessDeep ih fields body) name

variable {n m : Nat} (hle : n ≤ m)
include hle

theorem load_sameUnlessDeep (name : String) :
    SameUnlessDeep (load ⟨store, fields, n⟩ name) (load ⟨store, fields, m⟩ name) := by
  intro s
  obtain ⟨more, hmore⟩ := Nat.exists_eq_add_of_le (Nat.sub_le_sub_right hle s.loading.length)
  have hlevels : s.levelsLeft ⟨store, fields, m⟩ = s.levelsLeft ⟨store, fields, n⟩ + more := hmore
  rw [run_load_eq_loadWithin, run_load_eq_loadWithin, hlevels]
  exact loadWithin_sameUnlessDeep h n m more _ name s

theorem load_eq_of_le {name : String} {s : State} {r : EStateM.Result Fault State String}
    (hl : (load ⟨store, fields, n⟩ name).run s = r) (hr : ¬ TooDeep r) :
    (load ⟨store, fields, m⟩ name).run s = r := by
  rcases load_sameUnlessDeep h hle name s with hdeep | heq
  · exact absurd (hl ▸ hdeep) hr
  · exact heq.trans hl

/-- What a render comes to load with a limit, it comes to load with a higher one. -/
theorem Attempt.of_le {view : String} {names : List String} {s : State}
    (ha : Attempt ⟨store, fields, n⟩ view names s) :
    Attempt ⟨store, fields, m⟩ view names s := by
  induction ha with
  | view => exact .view
  | parent _ hl hp hc ih => exact .parent ih (load_eq_of_le h hle hl not_tooDeep_ok) hp hc

theorem Attempt.Ends.of_le {name : String} {chain : List String} {s : State} {outcome : Outcome}
    (hends : Attempt.Ends ⟨store, fields, n⟩ name chain s outcome) (hr : ¬ TooDeep outcome) :
    Attempt.Ends ⟨store, fields, m⟩ name chain s outcome := by
  cases hends with
  | fault hl => exact .fault (load_eq_of_le h hle hl hr)
  | page hl hp => exact .page (load_eq_of_le h hle hl not_tooDeep_ok) hp
  | cycle hl hp hc => exact .cycle (load_eq_of_le h hle hl not_tooDeep_ok) hp hc

theorem render_eq_of_le {view : String}
    (hr : ∀ outcome, render ⟨store, fields, n⟩ view = some outcome → ¬ TooDeep outcome) :
    render ⟨store, fields, m⟩ view = render ⟨store, fields, n⟩ view := by
  cases hn : render ⟨store, fields, n⟩ view with
  | none => exact render_eq_none_of_attempts hn fun _ s ha => ⟨s, ha.of_le h hle⟩
  | some outcome =>
    obtain ⟨name, chain, s, ha, hends⟩ := render_cases hn
    exact (hends.of_le h hle (hr outcome hn)).render_eq (ha.of_le h hle)

end

/-! ## Requests -/

/-- The load of `name` from the state `s` comes to request the load of `p` in the state `t`: it is
that load, or a partial of its template does so after the nodes before it have run. -/
inductive Requests (setting : Setting) : String → State → String → State → Prop
  | here {name : String} {s : State} : Requests setting name s name s
  | inside {name q p : String} {before after : Body} {s t u : State} :
      s.loading.length < setting.maxDepth →
      setting.store.find name = .ok (.directives (before ++ .includePartial q :: after)) →
      (runBody (load setting) setting.fields before).run (s.enter name) = .ok () t →
      Requests setting q t p u → Requests setting name s p u

section
variable {loader : String → Run String} {fields : Fields} {s s' : State} {e : Fault}
  (he : ∀ fault, e ≠ .misplaced fault)
include he

/-- A node that fails, but is not misplaced, is a partial that fails. -/
theorem exists_partial_of_error {node : Node}
    (h : (runNode loader fields node).run s = .error e s') :
    ∃ p, node = .includePartial p ∧ ∃ t, (loader p).run s = .error e t := by
  cases node with
  | comment | text | field | showSection => cases h
  | extend parent =>
    obtain ⟨fault, hf⟩ := State.misplaced_of_extend h
    exact absurd hf (he fault)
  | beginSection name =>
    obtain ⟨fault, hf⟩ := State.misplaced_of_beginSection h
    exact absurd hf (he fault)
  | close =>
    obtain ⟨fault, hf⟩ := State.misplaced_of_close (Run.error_of_bind_pure h)
    exact absurd hf (he fault)
  | includePartial p =>
    rw [runNode, EStateM.run_bind] at h
    cases hl : (loader p).run s with
    | ok output t =>
      rw [hl] at h
      cases h
    | error e' t =>
      rw [hl] at h
      cases h
      exact ⟨p, rfl, _, hl⟩

/-- A body that fails, but has no misplaced node, stops at a partial that fails. -/
theorem exists_partial_of_body_error {body : Body}
    (h : (runBody loader fields body).run s = .error e s') :
    ∃ before p after t, body = before ++ .includePartial p :: after ∧
      (runBody loader fields before).run s = .ok () t ∧ ∃ u, (loader p).run t = .error e u := by
  induction body generalizing s with
  | nil => cases h
  | cons node body ih =>
    rw [runBody, EStateM.run_bind] at h
    cases hn : (runNode loader fields node).run s with
    | error e' t =>
      rw [hn] at h
      cases h
      obtain ⟨p, rfl, hl⟩ := exists_partial_of_error he hn
      exact ⟨[], p, body, s, rfl, rfl, hl⟩
    | ok _ t =>
      rw [hn] at h
      obtain ⟨before, p, after, u, rfl, hrun, hl⟩ := ih h
      refine ⟨node :: before, p, after, u, rfl, ?_, hl⟩
      rw [runBody, EStateM.run_bind, hn]
      exact hrun

theorem error_of_framed {name : String} {run : Run Unit}
    (h : (Run.framed name run).run s = .error e s') :
    ∃ t, run.run (s.enter name) = .error e t := by
  rw [Run.run_framed] at h
  split at h
  · split at h <;> cases h
    exact absurd rfl (he _)
  · rename_i hr
    cases h
    exact ⟨_, hr⟩

end

section
variable {setting : Setting}

/-- While the nodes of a template run, its name is on top of those that ran before. -/
theorem exists_within_of_runBody {name : String} {before : Body} {s t : State}
    (hs : s.SectionInside)
    (hrun : (runBody (load setting) setting.fields before).run (s.enter name) = .ok () t) :
    ∃ d, Within s name d t := by
  have hkeeps : Keeps (fun u => ∃ d, Within s name d u)
      (runBody (load setting) setting.fields before) :=
    (keptByCalls_within hs).runBody (fun p => load_keeps_within setting name p hs) before
  have ht := hkeeps _ ⟨{}, .enter s name⟩
  rwa [hrun] at ht

/-- A load that fails because templates are nested too deep, which the store does not say itself,
has come to request the named one while as many templates ran as the limit says. -/
theorem exists_requests {bodies : Bodies} (h : setting.store.HasBodies bodies) {limit : Nat}
    {name p : String} {s s' : State}
    (hp : ∀ q, setting.store.find q ≠ .error (.nestedTooDeep p limit)) (hs : s.SectionInside)
    (hroom : s.loading.length ≤ setting.maxDepth)
    (hl : (load setting name).run s = .error (.nestedTooDeep p limit) s') :
    limit = setting.maxDepth ∧
      ∃ t, Requests setting name s p t ∧ t.loading.length = setting.maxDepth := by
  -- each template that runs leaves less room
  induction hn : setting.maxDepth - s.loading.length generalizing name s s' with
  | zero =>
    have hfull : setting.maxDepth ≤ s.loading.length := Nat.le_of_sub_eq_zero hn
    rw [run_load, if_pos hfull] at hl
    cases hl
    exact ⟨rfl, s, .here, Nat.le_antisymm hroom hfull⟩
  | succ n ih =>
    have hlt : s.loading.length < setting.maxDepth := by omega
    have hfind := h name
    rw [run_load, if_neg (Nat.not_le_of_lt hlt)] at hl
    cases hb : bodies name with
    | error e =>
      simp only [hfind, hb, Except.map] at hl
      cases hl
      exact absurd (hfind.trans (congrArg _ hb)) (hp name)
    | ok body =>
      simp only [hfind, hb, Except.map] at hl
      obtain ⟨u, hrun⟩ := error_of_framed (by simp) hl
      obtain ⟨before, q, after, t, rfl, hbefore, v, hq⟩ :=
        exists_partial_of_body_error (by simp) hrun
      rw [hb] at hfind
      obtain ⟨d, hw⟩ := exists_within_of_runBody hs hbefore
      have hlen : t.loading.length = s.loading.length + 1 := by rw [hw.loading, List.length_cons]
      obtain ⟨hlimit, w, hreq, hfull⟩ :=
        ih (hw.sectionInside hs) (by omega) hq (by omega)
      exact ⟨hlimit, w, .inside hlt hfind hbefore hreq, hfull⟩

end

/-! ## Renders -/

/-- Templates in memory or in files are not found to be nested too deep. -/
theorem find_ne_nestedTooDeep (catalog : Catalog) (disk : Disk.Tree) (name p : String)
    (limit : Nat) : (catalog.toStore disk).find name ≠ .error (.nestedTooDeep p limit) := by
  intro h
  cases catalog with
  | memory store =>
    simp only [Catalog.toStore, MemoryStore.toStore, MemoryStore.find] at h
    split at h <;> cases h
  | folder store =>
    simp only [Catalog.toStore, FolderStore.toStore, FolderStore.find] at h
    split at h
    · rename_i text _
      rw [Template.ofText, Body.ofText] at h
      split at h <;> cases h
    · cases h
    · cases h

/-- Raising the limit does not change a render that did not hit it. If the limit is hit, and not
reported by the store itself, then the named template was requested while as many templates were
running as the limit says. -/
theorem render_limit {store : Store} {bodies : Bodies} (h : store.HasBodies bodies)
    (fields : Fields) (n : Nat) (view : String) :
    (∀ m, n ≤ m →
      (∀ outcome, render ⟨store, fields, n⟩ view = some outcome → ¬ TooDeep outcome) →
      render ⟨store, fields, m⟩ view = render ⟨store, fields, n⟩ view) ∧
    ∀ name limit s, (∀ p, store.find p ≠ .error (.nestedTooDeep name limit)) →
      render ⟨store, fields, n⟩ view = some (.error (.nestedTooDeep name limit) s) →
      limit = n ∧ ∃ first chain start t,
        Attempt ⟨store, fields, n⟩ view (first :: chain) start ∧
          Requests ⟨store, fields, n⟩ first start name t ∧ t.loading.length = n := by
  refine ⟨fun m hle hr => render_eq_of_le h hle hr, fun name limit s hname hrender => ?_⟩
  obtain ⟨first, chain, start, ha, hends⟩ := render_cases hrender
  cases hends with
  | fault hl =>
    have hroom : start.loading.length ≤ n := by simp [ha.idle.loading]
    obtain ⟨hlimit, t, hreq, hlen⟩ := exists_requests h hname ha.idle.sectionInside hroom hl
    exact ⟨hlimit, first, chain, start, t, ha, hreq, hlen⟩

/-- A page and a note that include each other, for a layout that includes nothing. -/
def nestedTemplates : List (String × Body) :=
  [("page", [.text "a", .includePartial "note"]), ("note", [.includePartial "page"]),
    ("layout", [.text "b"])]

theorem render_limit_nested :
    let store := (MemoryStore.ofBodies nestedTemplates).toStore
    store.HasBodies (.ofList nestedTemplates) ∧
      ((∀ outcome, render ⟨store, ∅, 1⟩ "layout" = some outcome → ¬ TooDeep outcome) ∧
        render ⟨store, ∅, 5⟩ "layout" = render ⟨store, ∅, 1⟩ "layout") ∧
      (∃ s, render ⟨store, ∅, 3⟩ "page" = some (.error (.nestedTooDeep "note" 3) s)) ∧
      ∃ first chain start t, Attempt ⟨store, ∅, 3⟩ "page" (first :: chain) start ∧
        Requests ⟨store, ∅, 3⟩ first start "note" t ∧ t.loading.length = 3 := by
  intro store
  have h : store.HasBodies (.ofList nestedTemplates) :=
    MemoryStore.ofBodies_hasBodies nestedTemplates
  have hname : ∀ p, store.find p ≠ .error (.nestedTooDeep "note" 3) := fun p =>
    find_ne_nestedTooDeep (.memory (MemoryStore.ofBodies nestedTemplates)) {} p "note" 3
  have hlayout : ∀ outcome, render ⟨store, ∅, 1⟩ "layout" = some outcome → ¬ TooDeep outcome := by
    intro outcome houtcome
    rw [render, climb_of_page rfl rfl] at houtcome
    exact Option.some.inj houtcome ▸ not_tooDeep_ok
  have hpage : ∃ s, render ⟨store, ∅, 3⟩ "page" = some (.error (.nestedTooDeep "note" 3) s) :=
    ⟨_, climb_of_load_error rfl⟩
  obtain ⟨s, hs⟩ := hpage
  exact ⟨h, ⟨hlayout, (render_limit h ∅ 1 "layout").1 5 (by decide) hlayout⟩, ⟨s, hs⟩,
    ((render_limit h ∅ 3 "page").2 "note" 3 s hname hs).2⟩

end ViewTemplates.Render
