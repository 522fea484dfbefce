import ViewTemplates.Proofs.Render.Balance
import ViewTemplates.Proofs.Render.Visits

/-!
# The content of sections

A section may be closed many times in a render, by any of its templates. `State.captures` are the
texts that the closes of a section captured so far, in order; they are read off the history.
`contentAfter` is the content that such texts make together: the first one, with its markers filled
by the next, and so on.

* `section_history`: at every moment of a render the content of each section is what the texts
  captured so far make. A close gives that content and writes it to the scope around the section,
  and everything that shows the section shows it. From one moment to the next it changes only by a
  close of that section (`ContentStep`), be it in a template that fails later; so a section that
  has content keeps some, and content without a marker stays for the rest of the render.

That only a close changes what is known of a section holds for the single calls
(`trail_ledger`), for the moments of a load by induction on the levels (`loadsLead_ledger`), and
from visit to visit (`Visited.contents`). The content then follows along the moments from the
beginning of the render.
-/

set_option autoImplicit false

namespace ViewTemplates.Render

/-! ## Captured texts -/

/-- The text that an event captured for a section, if the event ended that section. -/
def Event.captured? (name : String) : Event → Option String
  | closed ended captured _ => if ended = name then some captured else none
  | _ => none

/-- The texts that the closes of a section captured so far, in order. -/
def State.captures (s : State) (name : String) : List String :=
  (s.history.filterMap fun entry => entry.event.captured? name).reverse

theorem State.captures_congr {s t : State} (h : t.history = s.history) :
    t.captures = s.captures := by
  funext name
  rw [captures, captures, h]

theorem State.captures_event {s t : State} {entry : Entry} (h : t.history = entry :: s.history)
    (name : String) : t.captures name = s.captures name ++ (entry.event.captured? name).toList := by
  rw [captures, captures, h, List.filterMap_cons]
  cases entry.event.captured? name <;> simp

/-- The content of a section after closes that captured these texts. -/
def contentAfter : List String → Option String
  | [] => none
  | first :: later => some (later.foldl Section.merge first)

theorem isSome_contentAfter {captures : List String} :
    (contentAfter captures).isSome ↔ captures ≠ [] := by
  cases captures <;> simp [contentAfter]

theorem contentAfter_append {captures : List String} {stored : String}
    (h : contentAfter captures = some stored) (later : List String) :
    contentAfter (captures ++ later) = some (later.foldl Section.merge stored) := by
  cases captures with
  | nil => cases h
  | cons first rest =>
    obtain rfl := Option.some.inj h
    rw [List.cons_append, contentAfter, List.foldl_append]

theorem foldl_merge_of_not_infix {stored : String}
    (h : ¬ Section.marker.toList <:+: stored.toList) (later : List String) :
    later.foldl Section.merge stored = stored := by
  induction later with
  | nil => rfl
  | cons captured later ih => rw [List.foldl_cons, Section.merge_of_not_infix h, ih]

/-- The content of a section is what the texts captured for it make. -/
def State.Recorded (s : State) (name : String) : Prop :=
  s.sections[name]? = contentAfter (s.captures name)

theorem State.Recorded.after_close {s : State} {name : String} (h : s.Recorded name)
    (captured : String) :
    contentAfter (s.captures name ++ [captured]) = some (s.mergedContent name captured) := by
  unfold mergedContent
  cases hstored : s.sections[name]? with
  | some stored => exact contentAfter_append (h.symm.trans hstored) [captured]
  | none =>
    have hnil : s.captures name = [] := by
      by_contra hne
      have hsome := isSome_contentAfter.2 hne
      rw [← h, hstored] at hsome
      cases hsome
    rw [hnil]
    rfl

/-! ## Closes -/

/-- A close captured a text for the section `name` and gave it this content. -/
structure ClosedWith (name captured content : String) (s u : State) : Prop where
  captures : u.captures name = s.captures name ++ [captured]
  content : u.sections[name]? = some content
  others : ∀ other, other ≠ name →
    u.captures other = s.captures other ∧ u.sections[other]? = s.sections[other]?

theorem State.closedWith_of_close {s u : State} {content : String}
    (h : Run.close.run s = .ok content u) :
    ∃ o, s.openSection = some o ∧ content = s.mergedContent o.name s.closeScope.1 ∧
      ClosedWith o.name s.closeScope.1 content s u := by
  obtain ⟨o, scopes, closed, ho, -, hcontent, rfl⟩ := close_effect h
  refine ⟨o, ho, hcontent, ?_, by simp, fun other hne => ⟨?_, ?_⟩⟩
  · rw [captures_event rfl]
    simp [Event.captured?]
  · rw [captures_event rfl]
    simp [Event.captured?, hne.symm]
  · simp [Std.ExtTreeMap.getElem?_insert, hne.symm]

/-- How a section can differ between a moment and the next. -/
inductive ContentStep (name : String) : Moment → Moment → Prop
  /-- It is as it was. -/
  | kept {m n : Moment} : n.state.captures name = m.state.captures name →
      n.state.sections[name]? = m.state.sections[name]? → ContentStep name m n
  /-- It was the open section and is as its close left it. -/
  | closed {s u : State} {n : Moment} {o : OpenSection} {content : String} :
      Run.close.run s = .ok content u → s.openSection = some o → o.name = name →
      n.state.captures name = u.captures name →
      n.state.sections[name]? = u.sections[name]? → ContentStep name (.closing s) n

namespace ContentStep

variable {name : String} {m n : Moment}

theorem captures_isPrefix (h : ContentStep name m n) :
    m.state.captures name <+: n.state.captures name := by
  cases h with
  | kept hc _ => exact hc ▸ List.prefix_refl _
  | closed hclose ho hname hc _ =>
    obtain ⟨o, ho', -, hu⟩ := State.closedWith_of_close hclose
    obtain rfl := Option.some.inj (ho.symm.trans ho')
    rw [hc, ← hname, hu.captures]
    exact List.prefix_append _ _

theorem recorded (h : ContentStep name m n) (hm : m.state.Recorded name) :
    n.state.Recorded name := by
  unfold State.Recorded
  cases h with
  | kept hc hs => rw [hc, hs, hm]
  | closed hclose ho hname hc hs =>
    obtain ⟨o, ho', hcontent, hu⟩ := State.closedWith_of_close hclose
    obtain rfl := Option.some.inj (ho.symm.trans ho')
    subst hname
    rw [hc, hs, hu.content, hu.captures, hcontent]
    exact (State.Recorded.after_close hm _).symm

end ContentStep

/-! ## What is known of the sections -/

/-- What is known of the sections: their contents, and the texts captured for them. -/
def State.ledger (s : State) : Std.ExtTreeMap String String × (String → List String) :=
  (s.sections, s.captures)

/-- Each section goes on as it can. -/
def ContentsStep (m n : Moment) : Prop := ∀ name, ContentStep name m n

theorem ContentsStep.of_ledger {m n : Moment} (h : n.state.ledger = m.state.ledger) :
    ContentsStep m n := by
  obtain ⟨hsections, hcaptures⟩ := Prod.ext_iff.1 h
  exact fun name => .kept (congrFun hcaptures name) (congrArg (·[name]?) hsections)

namespace State

variable {s s' : State}

theorem ledger_congr (hs : s'.sections = s.sections) (hh : s'.history = s.history) :
    s'.ledger = s.ledger :=
  Prod.ext hs (captures_congr hh)

/-- An event that ends no section. -/
theorem ledger_event {entry : Entry} (hs : s'.sections = s.sections)
    (hh : s'.history = entry :: s.history) (hc : ∀ name, entry.event.captured? name = none) :
    s'.ledger = s.ledger := by
  refine Prod.ext hs (funext fun name => ?_)
  have hcaptures := captures_event hh name
  rwa [hc, Option.toList_none, List.append_nil] at hcaptures

theorem closeScopes_ledger (s : State) (n : Nat) : (s.closeScopes n).ledger = s.ledger := by
  obtain ⟨scopes, closed, hs⟩ := s.closeScopes_effect n
  rw [hs]
  exact ledger_congr rfl rfl

end State

theorem ledger_endMoments {entry : Nat} {r : EStateM.Result Fault State Unit} {m : Moment}
    (hm : m ∈ endMoments entry r) : m.state.ledger = (finalState r).ledger := by
  have hunwind (s : State) (hm : m ∈ s.leave.unwindMoments entry) : m.state.ledger = s.ledger := by
    obtain ⟨n, -, rfl⟩ := List.mem_map.1 hm
    exact (s.leave.closeScopes_ledger n).trans (State.ledger_congr rfl rfl)
  cases r with
  | error e s => exact hunwind s hm
  | ok _ s =>
    rw [endMoments] at hm
    split at hm
    · rw [List.mem_singleton.1 hm]
      exact State.ledger_congr rfl rfl
    · exact hunwind s hm

/-! ## Loads -/

/-- Of the single calls only a close changes what is known of the sections. -/
theorem trail_ledger : Trail (fun _ => True) State.ledger ContentsStep where
  write _ _ _ := trivial
  note _ _ _ _ _ := trivial
  extend _ _ _ _ _ := trivial
  beginSection _ _ _ _ _ := trivial
  close _ _ _ _ _ := trivial
  key_write _ _ := State.ledger_congr rfl rfl
  key_note _ _ _ _ := State.ledger_event rfl rfl fun _ => rfl
  same s t _ _ hk := .of_ledger hk
  began s s' t name hb _ _ hk := by
    obtain ⟨scopes, openSection, opened, rfl⟩ := State.beginSection_effect hb
    exact .of_ledger (hk.trans (State.ledger_event rfl rfl fun _ => rfl))
  extended s s' t parent he _ _ hk := by
    obtain ⟨scopes, opened, closed, rfl⟩ := State.extend_effect he
    refine .of_forall (Q := fun m => m.state.ledger = s.ledger)
      (fun m n hm hn => .of_ledger (hn.trans hm.symm)) rfl (fun n hn => ?_)
      (hk.trans (State.ledger_event rfl rfl fun _ => rfl))
    rw [State.mem_extendMoments hn]
    exact State.ledger_congr rfl rfl
  ended s u t content hc _ _ hk := by
    rw [State.closeMoments_of_ok hc]
    obtain ⟨hsections, hcaptures⟩ := Prod.ext_iff.1 hk
    refine ⟨.cons_cons (.of_ledger rfl) (.cons_cons (fun name => ?_) (.singleton _)),
      [.between s, .closing s], rfl⟩
    obtain ⟨o, ho, -, hu⟩ := State.closedWith_of_close hc
    have ht : t.captures name = u.captures name ∧ t.sections[name]? = u.sections[name]? :=
      ⟨congrFun hcaptures name, congrArg (·[name]?) hsections⟩
    by_cases hname : o.name = name
    · exact .closed hc ho hname ht.1 ht.2
    · obtain ⟨hcap, hsec⟩ := hu.others name (Ne.symm hname)
      exact .kept (ht.1.trans hcap) (ht.2.trans hsec)

theorem loadsLead_ledger (setting : Setting) (levels : Nat) :
    LoadsLead (fun _ => True) State.ledger ContentsStep (loadWithin setting levels)
      (loadMoments setting levels) := by
  induction levels with
  | zero => exact fun name s t _ _ hk => trail_ledger.stay trivial trivial hk
  | succ levels ih =>
    intro name s t _ _ hk
    rw [loadWithin] at hk
    cases hf : setting.store.find name with
    | error e =>
      rw [hf] at hk
      rw [loadMoments, hf]
      exact trail_ledger.stay trivial trivial hk
    | ok template =>
      have hbegin : Leads ContentsStep s [.between (s.enter name)] (s.enter name) :=
        trail_ledger.stay trivial trivial (State.ledger_event rfl rfl fun _ => rfl)
      have hbody := trail_ledger.templateLeads (fun _ _ _ => trivial) ih setting.fields name
        template (s := s.enter name) trivial
      rw [hf] at hk
      obtain ⟨scopes, openSection, closed, heq⟩ := framed_effect name
        (runTemplate (loadWithin setting levels) setting.fields name template) s
      rw [heq] at hk
      rw [loadMoments_of_find_ok hf]
      generalize (runTemplate (loadWithin setting levels) setting.fields name template).run
        (s.enter name) = r at hbody hk ⊢
      -- taking the scope of the template away leaves the sections as the template left them
      have hend : Leads ContentsStep (finalState r) (endMoments s.height r ++ [.between t]) t :=
        .of_forall (Q := fun m => m.state.ledger = (finalState r).ledger)
          (fun m n hm hn => .of_ledger (hn.trans hm.symm)) rfl (fun n hn => ledger_endMoments hn)
          (hk.trans (State.ledger_congr rfl rfl))
      simpa using hbegin.append (hbody.append hend)

/-! ## Renders -/

/-- The moments of some visits, one after the other. -/
def renderMoments (setting : Setting) (visits : List Visit) : List Moment :=
  visits.flatMap fun v => attemptMoments setting v.view v.start

section
variable {setting : Setting} {view : String} {v : Visit} {visits : List Visit}

theorem renderMoments_reverse_cons :
    renderMoments setting (v :: visits).reverse =
      renderMoments setting visits.reverse ++ attemptMoments setting v.view v.start := by
  simp [renderMoments]

theorem Attempt.contents {name : String} {chain : List String} {s : State}
    (h : Attempt setting view (name :: chain) s) :
    Leads ContentsStep s
      (loadMoments setting setting.maxDepth name s ++
        [.between (finalState ((load setting name).run s))])
      (finalState ((load setting name).run s)) :=
  loadsLead_ledger setting setting.maxDepth name s _ trivial trivial (by rw [h.run_load])

/-- The moments of a render lead to the state in which its latest visit ends. -/
theorem Visited.contents (h : Visited setting view (v :: visits)) :
    ∃ ms, renderMoments setting (v :: visits).reverse = .between {} :: ms ∧
      Leads ContentsStep {} ms (finalState (v.outcome setting)) := by
  generalize hvisits : v :: visits = all at h
  induction h generalizing v visits with
  | view =>
    cases hvisits
    exact ⟨_, List.append_nil _, Attempt.contents .view⟩
  | @parent w parent output before s hw hl hp hc ih =>
    cases hvisits
    obtain ⟨ms, hms, hlead⟩ := ih rfl
    have hjoin : Leads ContentsStep (finalState (w.outcome setting)) [.between s.takeParent]
        s.takeParent := by
      rw [hl]
      exact .step (.of_ledger (State.ledger_congr rfl rfl))
    have hlast := (Attempt.parent (hw.attempt w rfl) hl hp hc).contents
    refine ⟨_, ?_, hlead.append (hjoin.append hlast)⟩
    rw [renderMoments_reverse_cons, hms]
    rfl

theorem Visited.fine (h : Visited setting view visits) :
    ∀ m ∈ renderMoments setting visits.reverse, m.Fine setting := by
  induction h with
  | view => simpa [renderMoments] using Attempt.fine .view
  | @parent w parent output before s hw hl hp hc ih =>
    rw [renderMoments_reverse_cons]
    intro m hm
    rcases List.mem_append.1 hm with hm | hm
    · exact ih m hm
    · exact (Attempt.parent (hw.attempt w rfl) hl hp hc).fine m hm

end

/-- What holds of the sections at the moment `m` of a render, with these later moments. -/
structure SectionLaw (m : Moment) (later : List Moment) : Prop where
  /-- A section is known exactly if it was closed. -/
  known : ∀ name : String, m.state.sections[name]?.isSome ↔ m.state.captures name ≠ []
  /-- Its content is the first text captured for it, filled by the others in order. -/
  content : ∀ name : String, m.state.sections[name]? = contentAfter (m.state.captures name)
  /-- Showing it writes that content. -/
  shown : ∀ name, m.state.showSection name =
    m.state.write ((contentAfter (m.state.captures name)).getD "")
  /-- Asking for it gives that content. -/
  given : ∀ loader fields name, (runCall loader fields (.sectionContent name)).run m.state =
    .ok ((contentAfter (m.state.captures name)).elim .nothing .text) m.state
  /-- A close captures the innermost text, gives the content that it makes with the texts captured
  before, and writes that to the scope around the section. -/
  close : ∀ content u, Run.close.run m.state = .ok content u →
    ∃ o captured next below, m.state.openSection = some o ∧
      m.state.scopes = ⟨captured, next :: below⟩ ∧ u.scopes = ⟨next ++ content, below⟩ ∧
      contentAfter (m.state.captures o.name ++ [captured]) = some content ∧
      ClosedWith o.name captured content m.state u
  /-- Up to the next moment only a section that is closed changes. -/
  next : ∀ n ∈ later.head?, ∀ name, ContentStep name m n
  /-- Texts are only added. -/
  captures : ∀ n ∈ later, ∀ name : String, m.state.captures name <+: n.state.captures name
  /-- Without a close of the section its content stays. -/
  unchanged : ∀ n ∈ later, ∀ name : String, n.state.captures name = m.state.captures name →
    n.state.sections[name]? = m.state.sections[name]?
  /-- A known section stays known. -/
  lasting : ∀ n ∈ later, ∀ name : String,
    m.state.sections[name]?.isSome → n.state.sections[name]?.isSome
  /-- Content without a marker stays, whatever is captured. -/
  settled : ∀ n ∈ later, ∀ name content : String, m.state.sections[name]? = some content →
    ¬ Section.marker.toList <:+: content.toList → n.state.sections[name]? = some content

namespace Moment

variable {setting : Setting} {m : Moment}

theorem below_ne_nil_of_own (h : m.Fine setting) {o : OpenSection}
    (ho : m.state.openSection = some o) (hscope : o.scope + 1 = m.state.height) :
    m.state.scopes.below ≠ [] := by
  cases m with
  | closing s => exact h
  | between s =>
    intro hnil
    have hpos := (h.scope o ho).1
    rw [State.height, Scopes.height, hnil] at hscope
    simp only [List.length_nil] at hscope
    omega

/-- A close at a moment writes the content to the scope around the section. -/
theorem exists_of_close (hfine : m.Fine setting) (hrecorded : ∀ name, m.state.Recorded name)
    {content : String} {u : State} (hclose : Run.close.run m.state = .ok content u) :
    ∃ o captured next below, m.state.openSection = some o ∧
      m.state.scopes = ⟨captured, next :: below⟩ ∧ u.scopes = ⟨next ++ content, below⟩ ∧
      contentAfter (m.state.captures o.name ++ [captured]) = some content ∧
      ClosedWith o.name captured content m.state u := by
  obtain ⟨o, scopes, closed, ho, hscope, hcontent, -⟩ := State.close_effect hclose
  obtain ⟨next, below, hbelow⟩ := List.exists_cons_of_ne_nil (below_ne_nil_of_own hfine ho hscope)
  have hscopes : m.state.scopes = ⟨m.state.scopes.top, next :: below⟩ := by rw [← hbelow]
  have hcaptured : m.state.closeScope.1 = m.state.scopes.top := by
    rw [State.closeScope_of_below hscopes]
  obtain ⟨o', ho', -, hclosed⟩ := State.closedWith_of_close hclose
  obtain rfl := Option.some.inj (ho.symm.trans ho')
  rw [hcaptured] at hcontent hclosed
  refine ⟨o, _, next, below, ho, hscopes, ?_, ?_, hclosed⟩
  · cases (State.close_of_own ho hscope hscopes).symm.trans hclose
    rfl
  · rw [(hrecorded o.name).after_close, hcontent]

end Moment

theorem sectionLaw_of_isChain {setting : Setting} {m : Moment} {later : List Moment}
    (hfine : m.Fine setting) (hrecorded : ∀ name, m.state.Recorded name)
    (hchain : List.IsChain ContentsStep (m :: later)) : SectionLaw m later := by
  have hcaptures : ∀ n ∈ later, ∀ name, m.state.captures name <+: n.state.captures name :=
    hchain.cons_induction (fun n => ∀ name, m.state.captures name <+: n.state.captures name) _
      (fun _ _ hstep hn name => (hn name).trans (hstep name).captures_isPrefix)
      fun name => List.prefix_refl _
  have hlater : ∀ n ∈ later, ∀ name, n.state.Recorded name :=
    hchain.cons_induction (fun n => ∀ name, n.state.Recorded name) _
      (fun _ _ hstep hn name => (hstep name).recorded (hn name)) hrecorded
  -- known content is only filled further
  have hfilled (n : Moment) (hn : n ∈ later) (name content : String)
      (h : m.state.sections[name]? = some content) :
      ∃ more : List String, n.state.sections[name]? = some (more.foldl Section.merge content) := by
    obtain ⟨more, hmore⟩ := hcaptures n hn name
    refine ⟨more, ?_⟩
    rw [hlater n hn name, ← hmore]
    exact contentAfter_append ((hrecorded name).symm.trans h) more
  exact {
    known := fun name => by rw [hrecorded name, isSome_contentAfter]
    content := hrecorded
    shown := fun name => by rw [State.showSection, hrecorded name]
    given := fun loader fields name => hrecorded name ▸ rfl
    close := fun content u hclose => Moment.exists_of_close hfine hrecorded hclose
    next := fun n hn name => by
      obtain ⟨rest, rfl⟩ := List.head?_eq_some_iff.1 hn
      exact (List.isChain_cons_cons.1 hchain).1 name
    captures := hcaptures
    unchanged := fun n hn name heq => by rw [hlater n hn name, heq, hrecorded name]
    lasting := fun n hn name hsome => by
      obtain ⟨content, hcontent⟩ := Option.isSome_iff_exists.1 hsome
      obtain ⟨more, hmore⟩ := hfilled n hn name content hcontent
      rw [hmore, Option.isSome_some]
    settled := fun n hn name content h hmarker => by
      obtain ⟨more, hmore⟩ := hfilled n hn name content h
      rw [hmore, foldl_merge_of_not_infix hmarker] }

/-- At every moment of a render the content of each section is what the texts captured by its closes
so far make, and only further closes of the section change it. This is so whatever the render has
visited so far; one that ends has visited an itinerary. -/
theorem section_history (setting : Setting) (view : String) :
    (∀ visits, Visited setting view visits → ∀ before m later,
      renderMoments setting visits.reverse = before ++ m :: later → SectionLaw m later) ∧
    ∀ outcome, render setting view = some outcome →
      ∃ visits, Visited setting view visits ∧ Itinerary setting view visits.reverse outcome := by
  refine ⟨fun visits hvisited before m later heq => ?_, fun outcome => exists_visited⟩
  obtain ⟨v, visits, rfl⟩ : ∃ v vs, visits = v :: vs := by
    cases hvisited <;> exact ⟨_, _, rfl⟩
  obtain ⟨ms, hms, hlead⟩ := hvisited.contents
  have hchain : List.IsChain ContentsStep (before ++ m :: later) := heq ▸ hms ▸ hlead.chain
  have hm : m ∈ Moment.between {} :: ms := hms ▸ heq ▸ by simp
  have hrecorded : ∀ n ∈ Moment.between {} :: ms, ∀ name, n.state.Recorded name :=
    hlead.chain.induction (fun n => ∀ name, n.state.Recorded name) _
      (fun _ _ hstep hn name => (hstep name).recorded (hn name)) fun _ name => by
        simp [Moment.state, State.Recorded, State.captures, contentAfter]
  exact sectionLaw_of_isChain (hvisited.fine m (hms ▸ hm)) (hrecorded m hm)
    (List.isChain_append.1 hchain).2.1

/-- A page with a section, and a load that fails after it has closed the section again. -/
def pageWithFailure : Setting where
  store := ((({} : MemoryStore).add "page" (.script
    [⟨.node (.beginSection "title"), false⟩, ⟨.node (.text "<@parent>"), false⟩, ⟨.close, false⟩,
      ⟨.load "part", true⟩, ⟨.node (.showSection "title"), false⟩])).add "part"
    (.directives [.beginSection "title", .text "news", .close, .close])).toStore
  fields := ∅
  maxDepth := 2

theorem section_history_failure :
    ∃ page s visits before m later, render pageWithFailure "page" = some (.ok page s) ∧
      Itinerary pageWithFailure "page" visits (.ok page s) ∧
      renderMoments pageWithFailure visits = before ++ m :: later ∧
      m.state.captures "title" = ["<@parent>", "news"] ∧
      m.state.sections["title"]? = some "<news>" ∧
      ∀ n ∈ later, n.state.sections["title"]? = some "<news>" := by
  obtain ⟨hlaw, hends⟩ := section_history pageWithFailure "page"
  have hrender : ∃ page s, render pageWithFailure "page" = some (.ok page s) := by
    rw [render, climb_of_page rfl rfl]
    exact ⟨_, _, rfl⟩
  obtain ⟨page, s, hs⟩ := hrender
  obtain ⟨visits, hv, hi⟩ := hends _ hs
  obtain ⟨rest, hrest⟩ := List.head?_eq_some_iff.1 hi.first
  have hsplit : renderMoments pageWithFailure visits.reverse =
      (.between {} :: loadMoments pageWithFailure 2 "page" {}) ++
        .between (finalState ((load pageWithFailure "page").run {})) ::
          renderMoments pageWithFailure rest := by
    simp [hrest, renderMoments, attemptMoments, pageWithFailure]
  have hlast := hlaw visits hv _ _ _ hsplit
  have hcaptures : (finalState ((load pageWithFailure "page").run {})).captures "title" =
      ["<@parent>", "news"] := by
    decide +kernel
  have hcontent : (finalState ((load pageWithFailure "page").run {})).sections["title"]? =
      some "<news>" :=
    (hlast.content "title").trans ((congrArg contentAfter hcaptures).trans (by decide))
  exact ⟨page, s, _, _, _, _, hs, hi, hsplit, hcaptures, hcontent, fun n hn =>
    hlast.settled n hn "title" "<news>" hcontent (by decide)⟩

end ViewTemplates.Render
