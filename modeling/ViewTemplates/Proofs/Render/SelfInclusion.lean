import Mathlib.Logic.Relation
import ViewTemplates.Proofs.Render.Inclusion

/-!
# Templates that include themselves

Nothing but the limit on nested templates stops a template that includes itself, directly or through
others. Still such a template is never rendered, however high the limit is: a load that succeeds has
loaded each template that it includes, with fewer levels left (`Loadable.of_includes`), so a
template that includes itself would be loaded with ever fewer levels (`not_loadable_of_transGen`).

The templates that run at the same time include each other, from the outside in
(`nested_of_mem_loadMoments`). So if one of them ran twice, then it would include itself.

* `self_inclusion_fails`: no load of a template that includes itself succeeds, and while a page is
  rendered no template runs inside of itself.
-/

set_option autoImplicit false

namespace ViewTemplates.Render

open Markup

/-- The template `t` includes `p`. -/
def Includes (bodies : Bodies) (t p : String) : Prop :=
  ∃ body, bodies t = .ok body ∧ .includePartial p ∈ body

/-! ## Loads that succeed -/

/-- The template can be loaded with room for so many levels, from some state. -/
def Loadable (setting : Setting) (levels : Nat) (name : String) : Prop :=
  ∃ s output s', (loadWithin setting levels name).run s = .ok output s'

/-- A body that was run has loaded each of its partials. -/
theorem exists_load_of_mem {loader : String → Run String} {fields : Fields} {body : Body}
    {s s' : State} {p : String} (h : (runBody loader fields body).run s = .ok () s')
    (hp : .includePartial p ∈ body) : ∃ t output t', (loader p).run t = .ok output t' := by
  induction body generalizing s with
  | nil => cases hp
  | cons node body ih =>
    obtain ⟨_, t, hnode, hbody⟩ := Run.eq_ok_of_bind h
    rcases List.mem_cons.1 hp with rfl | hp
    · obtain ⟨output, t', hload, -⟩ := Run.eq_ok_of_bind hnode
      exact ⟨s, output, t', hload⟩
    · exact ih hbody hp

theorem exists_run_of_framed {name output : String} {run : Run Unit} {s s' : State}
    (h : (Run.framed name run).run s = .ok output s') :
    ∃ t, run.run (s.enter name) = .ok () t := by
  rw [Run.run_framed] at h
  split at h
  · exact ⟨_, ‹_›⟩
  · cases h

section
variable {setting : Setting} {bodies : Bodies} (h : setting.store.HasBodies bodies)
include h

theorem Loadable.of_includes {levels : Nat} {t p : String} (hl : Loadable setting levels t)
    (hi : Includes bodies t p) : ∃ n < levels, Loadable setting n p := by
  obtain ⟨s, output, s', hrun⟩ := hl
  obtain ⟨body, hb, hp⟩ := hi
  cases levels with
  | zero => cases hrun
  | succ levels =>
    rw [loadWithin, h t, hb] at hrun
    obtain ⟨u, hbody⟩ := exists_run_of_framed hrun
    exact ⟨levels, Nat.lt_succ_self _, exists_load_of_mem hbody hp⟩

theorem Loadable.of_transGen {levels : Nat} {t p : String} (hl : Loadable setting levels t)
    (hi : Relation.TransGen (Includes bodies) t p) : ∃ n < levels, Loadable setting n p := by
  induction hi with
  | single hi => exact hl.of_includes h hi
  | tail _ hi ih =>
    obtain ⟨n, hn, hq⟩ := ih
    obtain ⟨m, hm, hp⟩ := hq.of_includes h hi
    exact ⟨m, hm.trans hn, hp⟩

/-- A template that includes itself would have to be loaded with ever fewer levels. -/
theorem not_loadable_of_transGen {t : String} (hself : Relation.TransGen (Includes bodies) t t)
    (levels : Nat) : ¬ Loadable setting levels t := by
  induction levels using Nat.strongRecOn with
  | ind levels ih =>
    intro hl
    obtain ⟨n, hn, ht⟩ := hl.of_transGen h hself
    exact ih n hn ht

theorem Loadable.not_transGen {levels : Nat} {name t : String} (hl : Loadable setting levels name)
    (ht : Relation.ReflTransGen (Includes bodies) name t) :
    ¬ Relation.TransGen (Includes bodies) t t := by
  rcases Relation.reflTransGen_iff_eq_or_transGen.1 ht with rfl | ht
  · exact fun hself => not_loadable_of_transGen h hself levels hl
  · obtain ⟨n, -, hn⟩ := hl.of_transGen h ht
    exact fun hself => not_loadable_of_transGen h hself n hn

end

/-! ## Templates that run at the same time -/

/-- The names of running templates, the innermost first: each one is included by those around it,
directly or not, and the outermost one is `name`. -/
structure Nested (bodies : Bodies) (name : String) (names : List String) : Prop where
  pairwise : names.Pairwise fun inner outer => Relation.TransGen (Includes bodies) outer inner
  reached : ∀ t ∈ names, Relation.ReflTransGen (Includes bodies) name t

namespace Nested

variable {bodies : Bodies} {name p : String} {names : List String}

theorem nil : Nested bodies name [] := ⟨.nil, nofun⟩

theorem singleton : Nested bodies name [name] :=
  ⟨List.pairwise_singleton _ _, fun _ ht => List.mem_singleton.1 ht ▸ .refl⟩

theorem append (h : Nested bodies p names) (hi : Includes bodies name p) :
    Nested bodies name (names ++ [name]) := by
  refine ⟨List.pairwise_append.2 ⟨h.pairwise, List.pairwise_singleton _ _, ?_⟩, fun t ht => ?_⟩
  · intro t ht outer houter
    rw [List.mem_singleton.1 houter]
    exact .head' hi (h.reached t ht)
  · rcases List.mem_append.1 ht with ht | ht
    · exact .head hi (h.reached t ht)
    · exact List.mem_singleton.1 ht ▸ .refl

theorem nodup (h : Nested bodies name names)
    (hself : ∀ t ∈ names, ¬ Relation.TransGen (Includes bodies) t t) : names.Nodup := by
  refine h.pairwise.imp_of_mem fun {inner outer} hinner _ hi heq => ?_
  rw [← heq] at hi
  exact hself inner hinner hi

end Nested

section
variable {P : State → Prop} {loader : String → Run String}
  {inner : String → State → List Moment}

theorem loading_of_mem_nodeMoments {node : Node} {s : State} {m : Moment}
    (hm : m ∈ nodeMoments inner node s) :
    m.state.loading = s.loading ∨ ∃ p, node = .includePartial p ∧ m ∈ inner p s := by
  cases node with
  | comment | text | field | beginSection | showSection => cases hm
  | extend parent => exact .inl (State.mem_extendMoments hm ▸ rfl)
  | close =>
    rw [nodeMoments, State.closeMoments] at hm
    split at hm
    · cases hm
    · exact .inl (List.mem_singleton.1 hm ▸ rfl)
  | includePartial p => exact .inr ⟨p, rfl, hm⟩

/-- A moment of a body is one of the template itself, or one of a partial that it loads. -/
theorem loading_of_mem_bodyMoments (hk : KeptByCalls P) (hl : ∀ p, Keeps P (loader p))
    (fields : Fields) {body : Body} {s : State} (hs : P s) {m : Moment}
    (hm : m ∈ bodyMoments loader inner fields body s) :
    (∃ u, P u ∧ m.state.loading = u.loading) ∨
      ∃ p u, .includePartial p ∈ body ∧ P u ∧ m ∈ inner p u := by
  induction body generalizing s with
  | nil => cases hm
  | cons node body ih =>
    have hnode : P (finalState ((runNode loader fields node).run s)) := hk.runNode hl node s hs
    rw [bodyMoments] at hm
    rcases List.mem_append.1 hm with hm | hm
    · rcases loading_of_mem_nodeMoments hm with hm | ⟨p, rfl, hm⟩
      · exact .inl ⟨s, hs, hm⟩
      · exact .inr ⟨p, s, List.mem_cons_self, hs, hm⟩
    · cases hr : (runNode loader fields node).run s with
      | error e s' =>
        rw [hr] at hm hnode
        exact .inl ⟨s', hnode, List.mem_singleton.1 hm ▸ rfl⟩
      | ok _ s' =>
        rw [hr] at hm hnode
        rcases List.mem_cons.1 hm with rfl | hm
        · exact .inl ⟨s', hnode, rfl⟩
        · rcases ih hnode hm with hown | ⟨p, u, hmem, hu, hm⟩
          · exact .inl hown
          · exact .inr ⟨p, u, List.mem_cons_of_mem _ hmem, hu, hm⟩

end

/-- When a template ends, the templates around it run. -/
theorem loading_of_mem_endMoments {entry : Nat} {r : EStateM.Result Fault State Unit} {m : Moment}
    (hm : m ∈ endMoments entry r) : m.state.loading = (finalState r).leave.loading := by
  have hunwind : ∀ s : State, m ∈ s.unwindMoments entry → m.state.loading = s.loading := by
    intro s hs
    obtain ⟨n, -, rfl⟩ := List.mem_map.1 hs
    obtain ⟨scopes, closed, hc⟩ := s.closeScopes_effect n
    rw [Moment.state, hc]
  cases r with
  | error e s => exact hunwind s.leave hm
  | ok _ s =>
    rw [endMoments] at hm
    split at hm
    · exact List.mem_singleton.1 hm ▸ rfl
    · exact hunwind s.leave hm

section
variable {setting : Setting} {bodies : Bodies} (h : setting.store.HasBodies bodies)
include h

/-- At each moment of a load the templates that it runs include each other. -/
theorem nested_of_mem_loadMoments {levels : Nat} {name : String} {s : State}
    (hs : s.SectionInside) {m : Moment} (hm : m ∈ loadMoments setting levels name s) :
    ∃ names, m.state.loading = names ++ s.loading ∧ Nested bodies name names := by
  induction levels generalizing name s with
  | zero => cases hm
  | succ levels ih =>
    cases hb : bodies name with
    | error e =>
      rw [loadMoments, h name, hb] at hm
      cases hm
    | ok body =>
      have hf : setting.store.find name = .ok (.directives body) := by
        rw [h name, hb]
        rfl
      have hkept : KeptByCalls fun u => ∃ d, Within s name d u := keptByCalls_within hs
      have hl := fun p => keeps_within setting levels name p hs
      have henter : ∃ d, Within s name d (s.enter name) := ⟨{}, .enter s name⟩
      rw [loadMoments_of_find_ok hf] at hm
      rcases List.mem_cons.1 hm with rfl | hm
      · exact ⟨[name], rfl, .singleton⟩
      rcases List.mem_append.1 hm with hm | hm
      · rcases loading_of_mem_bodyMoments hkept hl setting.fields henter hm with
          ⟨u, ⟨d, hu⟩, hmu⟩ | ⟨p, u, hmem, ⟨d, hu⟩, hm⟩
        · exact ⟨[name], hmu.trans hu.loading, .singleton⟩
        · obtain ⟨names, hnames, hnested⟩ := ih (hu.sectionInside hs) hm
          refine ⟨names ++ [name], ?_, hnested.append ⟨body, hb, hmem⟩⟩
          rw [hnames, hu.loading, List.append_assoc, List.singleton_append]
      · have hrun : Keeps (fun u => ∃ d, Within s name d u)
            (runTemplate (loadWithin setting levels) setting.fields name (.directives body)) :=
          hkept.runTemplate hl name (.directives body)
        obtain ⟨d, hend⟩ := hrun _ henter
        refine ⟨[], ?_, .nil⟩
        rw [loading_of_mem_endMoments hm, hend.leave_loading, List.nil_append]

theorem nested_of_mem_attemptMoments {view name : String} {chain : List String} {s : State}
    (ha : Attempt setting view (name :: chain) s) {m : Moment}
    (hm : m ∈ attemptMoments setting name s) : Nested bodies name m.state.loading := by
  rw [attemptMoments] at hm
  rcases List.mem_cons.1 hm with rfl | hm
  · exact ha.idle.loading ▸ .nil
  rcases List.mem_append.1 hm with hm | hm
  · obtain ⟨names, hnames, hnested⟩ := nested_of_mem_loadMoments h ha.idle.sectionInside hm
    rw [ha.idle.loading, List.append_nil] at hnames
    exact hnames ▸ hnested
  · rw [List.mem_singleton.1 hm]
    exact ha.idle_load.loading ▸ .nil

/-! ## Renders -/

omit h in
/-- Each load of a render that gives a page succeeds. -/
theorem Attempt.loadable_of_page {view page name : String} {chain : List String} {s s' : State}
    (ha : Attempt setting view (name :: chain) s) (hr : render setting view = some (.ok page s')) :
    Loadable setting setting.maxDepth name := by
  cases hl : (load setting name).run s with
  | ok output t => exact ⟨s, output, t, (ha.run_load name).symm.trans hl⟩
  | error e t => cases hr.symm.trans ((Attempt.Ends.fault hl).render_eq ha)

/-- A template that includes itself, directly or through others, cannot be loaded, whatever the
state is, and however many levels are left. So while a page is rendered, no template runs inside of
itself. -/
theorem self_inclusion_fails :
    (∀ t, Relation.TransGen (Includes bodies) t t → ∀ s,
      (∃ e s', (load setting t).run s = .error e s') ∧
        ∀ levels, ∃ e s', (loadWithin setting levels t).run s = .error e s') ∧
    ∀ view page s', render setting view = some (.ok page s') →
      ∀ name chain s, Attempt setting view (name :: chain) s →
        ∀ m ∈ attemptMoments setting name s, m.state.loading.Nodup := by
  refine ⟨fun t hself s => ?_, fun view page s' hr name chain s ha m hm => ?_⟩
  · have hfails (levels : Nat) : ∃ e s', (loadWithin setting levels t).run s = .error e s' := by
      cases hl : (loadWithin setting levels t).run s with
      | error e s' => exact ⟨e, s', rfl⟩
      | ok output s' => exact absurd ⟨s, output, s', hl⟩ (not_loadable_of_transGen h hself levels)
    exact ⟨hfails (s.levelsLeft setting), hfails⟩
  · have hnested := nested_of_mem_attemptMoments h ha hm
    refine hnested.nodup fun t ht => ?_
    exact (ha.loadable_of_page hr).not_transGen h (hnested.reached t ht)

end

/-- A page with a note, and two templates that include each other, one of them in a section. -/
def loopTemplates : List (String × Body) :=
  [("page", [.text "a", .includePartial "note"]), ("note", [.text "b"]),
    ("loop", [.beginSection "s", .includePartial "back", .close]),
    ("back", [.extend "page", .includePartial "loop"])]

theorem self_inclusion_fails_loop :
    let setting : Setting := ⟨(MemoryStore.ofBodies loopTemplates).toStore, ∅, 40⟩
    setting.store.HasBodies (.ofList loopTemplates) ∧
      Relation.TransGen (Includes (.ofList loopTemplates)) "loop" "loop" ∧
      (∃ e s', (load setting "loop").run {} = .error e s') ∧
      (∃ s', render setting "page" = some (.ok "ab" s')) ∧
      ∀ m ∈ attemptMoments setting "page" {}, m.state.loading.Nodup := by
  intro setting
  have h : setting.store.HasBodies (.ofList loopTemplates) :=
    MemoryStore.ofBodies_hasBodies loopTemplates
  have hloop : Includes (.ofList loopTemplates) "loop" "back" := ⟨_, rfl, by simp⟩
  have hback : Includes (.ofList loopTemplates) "back" "loop" := ⟨_, rfl, by simp⟩
  have hself := Relation.TransGen.head hloop (.single hback)
  have hpage : ∃ s', render setting "page" = some (.ok "ab" s') := by
    rw [render, climb_of_page rfl rfl]
    exact ⟨_, rfl⟩
  obtain ⟨s', hs'⟩ := hpage
  obtain ⟨hfails, hnodup⟩ := self_inclusion_fails h
  exact ⟨h, hself, (hfails "loop" hself {}).1, ⟨s', hs'⟩,
    hnodup "page" _ s' hs' "page" [] {} .view⟩

end ViewTemplates.Render
