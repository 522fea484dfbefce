import Mathlib.Data.List.Chain
import Mathlib.Data.List.Nodup
import Mathlib.Data.List.Perm.Subperm
import ViewTemplates.Proofs.Render.Faults
import ViewTemplates.Proofs.Render.Frame
import ViewTemplates.Store.Memory

/-!
# The views that a render visits

A render loads one view after the other at the outermost level. A `Visit` is such a load, with the
state that it begins in. What was recorded during a visit tells which view the render goes on with:
the one that was asked for last, wherever that was, also in a partial or in a load that failed
(`Visit.request?`).

* `exists_itinerary`: a render from memory ends, and is an `Itinerary`. Its views differ from each
  other, each is the one that was asked for last during the visit before, and the last visit ends
  the render: with its fault, with its page if no view was asked for, or with the chain of all views
  if that view was visited before. There are at most as many visits as templates, and one more.

The history only grows during a load, and its latest request is the view to be extended
(`load_requestedSince`). The visits are those of the attempts (`Attempt.exists_visited`); all but
the last one find a template, which bounds their number (`Visited.length_le`).
-/

set_option autoImplicit false

namespace ViewTemplates.Render

/-! ## Requests -/

/-- The view that an event asks to extend. -/
def Event.parent? : Event → Option String
  | extended parent => some parent
  | _ => none

/-- The view that was asked for last. The entries begin with the latest. -/
def latestRequest (entries : List Entry) : Option String :=
  entries.findSome? (·.event.parent?)

theorem latestRequest_cons (entry : Entry) (entries : List Entry) :
    latestRequest (entry :: entries) = entry.event.parent?.or (latestRequest entries) := by
  rw [latestRequest, List.findSome?_cons]
  cases entry.event.parent? <;> rfl

/-- Events were recorded since the state `base`, and the view to be extended is the one that was
asked for last in them, or that of `base` if none was. -/
def RequestedSince (base s : State) : Prop :=
  ∃ entries, s.history = entries ++ base.history ∧
    s.parent = (latestRequest entries).or base.parent

namespace RequestedSince

variable {base s t : State}

theorem refl (s : State) : RequestedSince s s := ⟨[], rfl, rfl⟩

theorem congr (h : RequestedSince base s) (hh : t.history = s.history)
    (hp : t.parent = s.parent) : RequestedSince base t := by
  obtain ⟨entries, he, hr⟩ := h
  exact ⟨entries, hh.trans he, hp.trans hr⟩

theorem event (h : RequestedSince base s) {entry : Entry} (hh : t.history = entry :: s.history)
    (hp : t.parent = entry.event.parent?.or s.parent) : RequestedSince base t := by
  obtain ⟨entries, he, hr⟩ := h
  refine ⟨entry :: entries, by rw [hh, he, List.cons_append], ?_⟩
  rw [hp, hr, latestRequest_cons, Option.or_assoc]

end RequestedSince

theorem kept_requestedSince (base : State) : Kept (RequestedSince base) where
  write _ _ h := h.congr rfl rfl
  note _ _ _ _ h := h.event rfl rfl
  extend s s' parent he h := by
    obtain ⟨scopes, opened, closed, rfl⟩ := State.extend_effect he
    exact h.event rfl rfl
  beginSection s s' name he h := by
    obtain ⟨scopes, openSection, opened, rfl⟩ := State.beginSection_effect he
    exact h.event rfl rfl
  close s s' content he h := by
    obtain ⟨o, scopes, closed, -, -, -, rfl⟩ := State.close_effect he
    exact h.event rfl rfl
  framed name run hrun := by
    intro s h
    have hbody : RequestedSince base (finalState (run.run (s.enter name))) :=
      hrun _ (h.event rfl rfl)
    obtain ⟨scopes, openSection, closed, heq⟩ := framed_effect name run s
    rw [heq]
    exact hbody.congr rfl rfl

theorem load_requestedSince (setting : Setting) (name : String) (s : State) :
    RequestedSince s (finalState ((load setting name).run s)) :=
  Keeps.load (fun levels => (kept_requestedSince s).loadWithin levels name) s (.refl s)

/-! ## Visits -/

/-- A load at the outermost level of a render. -/
structure Visit where
  /-- The view that is loaded. -/
  view : String
  /-- The state that the load begins in. -/
  start : State

namespace Visit

variable (setting : Setting) (v : Visit)

/-- How the load ends. -/
def outcome : Outcome := (load setting v.view).run v.start

/-- What was recorded during the visit, the latest first. -/
def entries : List Entry :=
  let history := (finalState (v.outcome setting)).history
  history.take (history.length - v.start.history.length)

/-- The view that was asked for last during the visit. -/
def request? : Option String := latestRequest (v.entries setting)

/-- The history is only added to. -/
theorem history_eq :
    (finalState (v.outcome setting)).history = v.entries setting ++ v.start.history := by
  obtain ⟨entries, he, -⟩ := load_requestedSince setting v.view v.start
  have he : (finalState (v.outcome setting)).history = entries ++ v.start.history := he
  have hlen : (entries ++ v.start.history).length - v.start.history.length = entries.length := by
    rw [List.length_append, Nat.add_sub_cancel]
  rw [Visit.entries, he, hlen, List.take_left]

/-- The view to be extended after a visit is the one that was asked for last. -/
theorem parent_eq (h : v.start.parent = none) :
    (finalState (v.outcome setting)).parent = v.request? setting := by
  obtain ⟨entries, he, hp⟩ := load_requestedSince setting v.view v.start
  obtain rfl : entries = v.entries setting :=
    List.append_cancel_right (he.symm.trans (v.history_eq setting))
  rw [h, Option.or_none] at hp
  exact hp

/-- After the visit `v` the render goes on with `w`: that view was asked for last, and it begins
with what `v` has left, except for the request itself. -/
def GoesOn (v w : Visit) : Prop :=
  ∃ output s, v.outcome setting = .ok output s ∧ v.request? setting = some w.view ∧
    w.start = s.takeParent

/-- How the last visit ends a render that has visited `views`. -/
inductive Ends (views : List String) : Outcome → Prop
  /-- A fault ends the render at once. -/
  | fault {e : Fault} {s : State} : v.outcome setting = .error e s → Ends views (.error e s)
  /-- No view was asked for, so what the last visit gave is the page. -/
  | page {output : String} {s : State} : v.outcome setting = .ok output s →
      v.request? setting = none → Ends views (.ok output s)
  /-- The view that was asked for was visited before. It is not loaded again. -/
  | cycle {parent output : String} {s : State} : v.outcome setting = .ok output s →
      v.request? setting = some parent → parent ∈ views →
      Ends views (.error (.extendCycle (views ++ [parent])) s.takeParent)

end Visit

/-- The visits of a render that ends with the outcome, in order. -/
structure Itinerary (setting : Setting) (view : String) (visits : List Visit) (outcome : Outcome) :
    Prop where
  first : visits.head? = some ⟨view, {}⟩
  goesOn : visits.IsChain (Visit.GoesOn setting)
  nodup : (visits.map Visit.view).Nodup
  ends : ∀ v ∈ visits.getLast?, v.Ends setting (visits.map Visit.view) outcome
  recorded : ∀ v ∈ visits,
    (finalState (v.outcome setting)).history = v.entries setting ++ v.start.history

/-- The render comes to the first of these visits, after the others; the latest is the first. -/
inductive Visited (setting : Setting) (view : String) : List Visit → Prop
  | view : Visited setting view [⟨view, {}⟩]
  | parent {v : Visit} {parent output : String} {visits : List Visit} {s : State} :
      Visited setting view (v :: visits) → v.outcome setting = .ok output s →
      s.parent = some parent → parent ∉ (v :: visits).map Visit.view →
      Visited setting view (⟨parent, s.takeParent⟩ :: v :: visits)

section
variable {setting : Setting} {view : String} {v : Visit} {visits : List Visit}

/-- The visits of an attempt. -/
theorem Attempt.exists_visited {names : List String} {s : State}
    (h : Attempt setting view names s) :
    ∃ v visits, Visited setting view (v :: visits) ∧ v.start = s ∧
      (v :: visits).map Visit.view = names := by
  induction h with
  | view => exact ⟨_, _, .view, rfl, rfl⟩
  | @parent name parent output chain s s' _ hl hp hc ih =>
    obtain ⟨v, visits, hv, rfl, hnames⟩ := ih
    obtain ⟨rfl, -⟩ := List.cons.inj hnames
    exact ⟨_, _, .parent hv hl hp (hnames ▸ hc), rfl, congrArg (parent :: ·) hnames⟩

namespace Visited

theorem attempt (h : Visited setting view visits) :
    ∀ v ∈ visits.head?, Attempt setting view (visits.map Visit.view) v.start := by
  induction h with
  | view =>
    rintro v hv
    cases hv
    exact .view
  | @parent w parent output before s hw hl hp hc ih =>
    rintro v hv
    cases hv
    exact .parent (ih w rfl) hl hp hc

theorem parent_eq_none (h : Visited setting view (v :: visits)) : v.start.parent = none :=
  (h.attempt v rfl).parent_eq_none

theorem nodup (h : Visited setting view visits) : (visits.map Visit.view).Nodup := by
  induction h with
  | view => exact List.nodup_singleton _
  | parent _ _ _ hc ih => exact List.nodup_cons.2 ⟨hc, ih⟩

theorem getLast?_eq (h : Visited setting view visits) : visits.getLast? = some ⟨view, {}⟩ := by
  induction h with
  | view => rfl
  | parent _ _ _ _ ih => rw [List.getLast?_cons_cons, ih]

theorem goesOn (h : Visited setting view visits) :
    visits.IsChain fun w v => v.GoesOn setting w := by
  induction h with
  | view => exact .singleton _
  | @parent v parent output before s hv hl hp _ ih =>
    have hparent := v.parent_eq setting hv.parent_eq_none
    rw [hl] at hparent
    exact .cons_cons ⟨output, s, hl, hparent.symm.trans hp, rfl⟩ ih

/-- All visits but the latest one have found a template. -/
theorem exists_find (h : Visited setting view visits) :
    ∀ v ∈ visits.tail, ∃ template, setting.store.find v.view = .ok template := by
  induction h with
  | view => exact nofun
  | @parent v parent output before s _ hl _ _ ih =>
    exact List.forall_mem_cons.2 ⟨exists_find_of_load hl, ih⟩

end Visited

theorem Attempt.Ends.visit_ends {outcome : Outcome} (hv : Visited setting view (v :: visits))
    (h : Attempt.Ends setting v.view (visits.map Visit.view) v.start outcome) :
    v.Ends setting ((v :: visits).reverse.map Visit.view) outcome := by
  have hparent := v.parent_eq setting hv.parent_eq_none
  have hviews : (v :: visits).reverse.map Visit.view = ((v :: visits).map Visit.view).reverse :=
    List.map_reverse
  rw [hviews]
  cases h with
  | fault hl => exact .fault hl
  | page hl hp =>
    rw [show v.outcome setting = _ from hl] at hparent
    exact .page hl (hparent.symm.trans hp)
  | @cycle parent output s' hl hp hc =>
    rw [show v.outcome setting = _ from hl] at hparent
    rw [List.reverse_cons]
    exact .cycle hl (hparent.symm.trans hp) (List.mem_reverse.2 hc)

/-- The visits of a render are an itinerary. -/
theorem exists_visited {outcome : Outcome} (h : render setting view = some outcome) :
    ∃ visits, Visited setting view visits ∧ Itinerary setting view visits.reverse outcome := by
  obtain ⟨name, chain, s, ha, hends⟩ := render_cases h
  obtain ⟨v, visits, hv, rfl, hnames⟩ := ha.exists_visited
  obtain ⟨rfl, rfl⟩ := List.cons.inj hnames
  refine ⟨v :: visits, hv, ?_, ?_, ?_, ?_, fun w _ => w.history_eq setting⟩
  · rw [List.head?_reverse, hv.getLast?_eq]
  · exact List.isChain_reverse.2 hv.goesOn
  · rw [List.map_reverse]
    exact List.nodup_reverse.2 hv.nodup
  · rw [List.getLast?_reverse]
    rintro w hw
    cases hw
    exact hends.visit_ends hv

end

/-- There are at most as many visits as templates, and one more. -/
theorem Visited.length_le {store : MemoryStore} {fields : Fields} {maxDepth : Nat} {view : String}
    {visits : List Visit} (h : Visited ⟨store.toStore, fields, maxDepth⟩ view visits) :
    visits.length ≤ store.templates.size + 1 := by
  have hkeys : visits.tail.map Visit.view ⊆ store.templates.keys := by
    intro name hname
    obtain ⟨v, hv, rfl⟩ := List.mem_map.1 hname
    obtain ⟨template, hf⟩ := h.exists_find v hv
    have hget : store.templates[v.view]? = some template := MemoryStore.find_eq_ok.1 hf
    rw [Std.TreeMap.mem_keys, Std.TreeMap.mem_iff_isSome_getElem?, hget]
    rfl
  have hnodup : (visits.tail.map Visit.view).Nodup := by
    rw [List.map_tail]
    exact h.nodup.tail
  have hle := (List.Nodup.subperm hnodup hkeys).length_le
  rw [List.length_map, List.length_tail, Std.TreeMap.length_keys] at hle
  omega

/-- No program of the store says by itself that views extend each other in a cycle. -/
def ReportsNoCycle (store : MemoryStore) : Prop :=
  ∀ (name : String) (program : Program), store.templates[name]? = some (.program program) →
    ∀ chain, ¬ program.Fresh (.extendCycle chain)

/-- Then a load does not say so either. -/
theorem ReportsNoCycle.load_ne {store : MemoryStore} (h : ReportsNoCycle store) {fields : Fields}
    {maxDepth : Nat} {name : String} {s s' : State} {chain : List String} :
    (load ⟨store.toStore, fields, maxDepth⟩ name).run s ≠ .error (.extendCycle chain) s' := by
  intro hl
  cases loadWithin_failsOnly _ _ _ _ _ _ hl with
  | store hf =>
    simp only [MemoryStore.toStore, MemoryStore.find] at hf
    split at hf <;> cases hf
  | text ht =>
    unfold Markup.Body.ofText at ht
    split at ht <;> cases ht
  | program hf hfresh => exact h _ _ (MemoryStore.find_eq_ok.1 hf) chain hfresh

/-- The render that ends with the outcome was asked, by its last visit, for a view that it had
visited before. -/
def AskedAgain (setting : Setting) (visits : List Visit) (chain : List String) : Prop :=
  ∃ v ∈ visits.getLast?, ∃ parent ∈ v.request? setting,
    (∃ output s, v.outcome setting = .ok output s) ∧ parent ∈ visits.map Visit.view ∧
      chain = visits.map Visit.view ++ [parent]

theorem Itinerary.cycle_iff {store : MemoryStore} (h : ReportsNoCycle store) {fields : Fields}
    {maxDepth : Nat} {view : String} {visits : List Visit} {outcome : Outcome}
    (hi : Itinerary ⟨store.toStore, fields, maxDepth⟩ view visits outcome) (chain : List String) :
    (∃ s, outcome = .error (.extendCycle chain) s) ↔
      AskedAgain ⟨store.toStore, fields, maxDepth⟩ visits chain := by
  obtain ⟨rest, rfl⟩ := List.head?_eq_some_iff.1 hi.first
  have hlast := List.getLast?_eq_some_getLast (List.cons_ne_nil (⟨view, {}⟩ : Visit) rest)
  have hends := hi.ends _ hlast
  constructor
  · rintro ⟨s, rfl⟩
    cases hends with
    | fault hl => exact absurd hl h.load_ne
    | cycle hl hr hc => exact ⟨_, hlast, _, hr, ⟨_, _, hl⟩, hc, rfl⟩
  · rintro ⟨v, hv, parent, hr, ⟨output, s, hl⟩, hc, rfl⟩
    obtain rfl := Option.some.inj (hlast.symm.trans hv)
    cases hends with
    | fault hl' => cases hl.symm.trans hl'
    | page hl' hr' => cases hr.symm.trans hr'
    | cycle hl' hr' _ =>
      cases hr.symm.trans hr'
      exact ⟨_, rfl⟩

/-- Every render from memory comes to an end. It visits one view after the other, each at most once,
and ends in the way that the last visit says. It says that views extend each other in a cycle
exactly if the last visit asks for a view that was visited before. -/
theorem exists_itinerary (store : MemoryStore) (fields : Fields) (maxDepth : Nat) (view : String) :
    let setting : Setting := ⟨store.toStore, fields, maxDepth⟩
    ∃ outcome visits, render setting view = some outcome ∧ Itinerary setting view visits outcome ∧
      visits.length ≤ store.templates.size + 1 ∧
      (ReportsNoCycle store → ∀ chain,
        (∃ s, outcome = .error (.extendCycle chain) s) ↔ AskedAgain setting visits chain) := by
  intro setting
  have hr := @render_eq_renderBounded setting ⟨_, store.boundedBy_keys⟩ view
  obtain ⟨visits, hv, hi⟩ := exists_visited hr
  refine ⟨_, _, hr, hi, ?_, fun h chain => hi.cycle_iff h chain⟩
  rw [List.length_reverse]
  exact hv.length_le

/-- A page that asks for its layout in a load that fails, and a layout that asks for the page. -/
def cycleStore : MemoryStore :=
  ((({} : MemoryStore).add "page" (.script [⟨.load "head", true⟩])).add "head"
    (.script [⟨.node (.extend "layout"), false⟩, ⟨.close, false⟩])).add "layout"
    (.directives [.extend "page"])

theorem exists_itinerary_cycle :
    ReportsNoCycle cycleStore ∧
      ∃ s visits,
        render ⟨cycleStore.toStore, ∅, 2⟩ "page" =
          some (.error (.extendCycle ["page", "layout", "page"]) s) ∧
        AskedAgain ⟨cycleStore.toStore, ∅, 2⟩ visits ["page", "layout", "page"] ∧
        visits.length ≤ 4 := by
  have hreports : ReportsNoCycle cycleStore := by
    intro name program hget chain hfresh
    simp only [cycleStore, MemoryStore.add, Std.TreeMap.getElem?_insert] at hget
    split at hget
    · cases hget
    split at hget
    · cases hget
      obtain ⟨step, hs, hc⟩ := hfresh.exists_step
      simp only [List.mem_cons, List.not_mem_nil, or_false] at hs
      rcases hs with rfl | rfl <;> cases hc
    split at hget
    · cases hget
      obtain ⟨step, hs, hc⟩ := hfresh.exists_step
      cases List.mem_singleton.1 hs
      cases hc
    · simp at hget
  obtain ⟨outcome, visits, hr, -, hlen, hcycle⟩ := exists_itinerary cycleStore ∅ 2 "page"
  have hrender : ∃ s, render ⟨cycleStore.toStore, ∅, 2⟩ "page" =
      some (.error (.extendCycle ["page", "layout", "page"]) s) := by
    rw [render, climb_of_parent rfl rfl (by decide), climb_of_cycle rfl rfl (by decide)]
    exact ⟨_, rfl⟩
  obtain ⟨s, hs⟩ := hrender
  cases hr.symm.trans hs
  exact ⟨hreports, s, visits, hs, (hcycle hreports _).1 ⟨s, rfl⟩, hlen⟩

end ViewTemplates.Render
