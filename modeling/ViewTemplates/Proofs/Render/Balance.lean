import ViewTemplates.Proofs.Render.Passage
import ViewTemplates.Store.Memory

/-!
# Balanced scopes

`Balanced setting s` ties the scopes of the state `s` to the templates that run and to the section
that is open, and both to the counters. A state of a running template is balanced if the state that
the template began in is (`Within.balanced`), so all moments of a load are (`loadMoments_leads`, by
induction on the levels that are left); they are also all `Above` the scopes that were there before.

* `scopes_balanced`: every state between two steps of a render is balanced, its open section is
  captured one scope above the templates that ran when it began, no scope is closed that is not
  there, and after each load at the outermost level all scopes are closed.
* `load_neutral`: a load from any state of a render leaves the frame as it was, and goes only
  through states above it.
-/

set_option autoImplicit false

namespace ViewTemplates.Render

/-! ## Counting scopes -/

/-- A template begins to run. -/
def Event.isLoad : Event → Bool
  | loaded _ => true
  | _ => false

/-- A section begins. -/
def Event.isBegin : Event → Bool
  | opened _ => true
  | _ => false

/-- A view is said to extend another. -/
def Event.isExtension : Event → Bool
  | extended _ => true
  | _ => false

/-- How many events of a kind there were. -/
def State.count (s : State) (p : Event → Bool) : Nat :=
  s.history.countP fun entry => p entry.event

/-- A scope was opened for each template, each section and each extended view, and no other. -/
def State.OpeningsCounted (s : State) : Prop :=
  s.opened = s.count Event.isLoad + s.count Event.isBegin + s.count Event.isExtension

/-- How many scopes are opened at an event. -/
def Event.scopes : Event → Nat
  | loaded _ | opened _ | extended _ => 1
  | _ => 0

namespace State.OpeningsCounted

variable {s t : State}

theorem congr (h : s.OpeningsCounted) (ho : t.opened = s.opened) (hh : t.history = s.history) :
    t.OpeningsCounted := by
  unfold OpeningsCounted count at *
  rw [ho, hh, h]

theorem event (h : s.OpeningsCounted) {entry : Entry} (hh : t.history = entry :: s.history)
    (ho : t.opened = s.opened + entry.event.scopes) : t.OpeningsCounted := by
  unfold OpeningsCounted count at *
  rw [ho, hh, h]
  obtain ⟨e, -, -⟩ := entry
  cases e <;> simp [Event.scopes, Event.isLoad, Event.isBegin, Event.isExtension] <;> omega

theorem closeScope (h : s.OpeningsCounted) : s.closeScope.2.OpeningsCounted := by
  refine h.congr ?_ ?_ <;> (unfold State.closeScope; split <;> rfl)

theorem closeScopes (h : s.OpeningsCounted) (n : Nat) : (s.closeScopes n).OpeningsCounted := by
  induction n generalizing s with
  | zero => exact h
  | succ n ih => exact ih h.closeScope

end State.OpeningsCounted

/-- The states of the template `name` that was begun in the state `base`. -/
def Running (base : State) (name : String) (s : State) : Prop :=
  (∃ d, Within base name d s) ∧ s.OpeningsCounted

theorem Running.enter {base : State} (h : base.OpeningsCounted) (name : String) :
    Running base name (base.enter name) :=
  ⟨⟨{}, .enter base name⟩, h.event rfl rfl⟩

theorem keptByCalls_running {base : State} {name : String} (hb : base.SectionInside) :
    KeptByCalls (Running base name) where
  write s text := fun ⟨hw, hc⟩ => ⟨(keptByCalls_within hb).write s text hw, hc⟩
  note s template index result := fun ⟨hw, hc⟩ =>
    ⟨(keptByCalls_within hb).note s template index result hw, hc.event rfl rfl⟩
  extend s s' parent he := fun ⟨hw, hc⟩ => by
    refine ⟨(keptByCalls_within hb).extend s s' parent he hw, ?_⟩
    obtain ⟨d, hw⟩ := hw
    cases hd : d.capture with
    | some c => cases (hw.extend_of_some hb hd parent).symm.trans he
    | none =>
      have hown : s.ownSection? = none := by rw [hw.ownSection? hb, hd, Option.map_none]
      cases (State.extend_of_not_own (hw.scopes_of_none hd) hown parent).symm.trans he
      exact hc.event rfl rfl
  beginSection s s' n he := fun ⟨hw, hc⟩ => by
    refine ⟨(keptByCalls_within hb).beginSection s s' n he hw, ?_⟩
    cases ho : s.openSection with
    | some o => cases (State.beginSection_of_some ho n).symm.trans he
    | none =>
      cases (State.beginSection_of_none ho n).symm.trans he
      exact hc.event rfl rfl
  close s s' content he := fun ⟨hw, hc⟩ => by
    refine ⟨(keptByCalls_within hb).close s s' content he hw, ?_⟩
    obtain ⟨d, hw⟩ := hw
    cases hd : d.capture with
    | none => cases (hw.close_of_none hb hd).symm.trans he
    | some c =>
      have hown : (⟨c.name, base.height + 1⟩ : OpenSection).scope + 1 = s.height :=
        (hw.height_of_some hd).symm
      have hclose := State.close_of_own (hw.openSection_of_some hd) hown (hw.scopes_of_some hd)
      cases hclose.symm.trans he
      exact hc.event rfl rfl

theorem openingsCounted_framed {base : State} {name : String} {run : Run Unit}
    (h : (finalState (run.run (base.enter name))).OpeningsCounted) :
    (finalState ((Run.framed name run).run base)).OpeningsCounted := by
  rw [Run.run_framed]
  generalize run.run (base.enter name) = r at h
  cases r with
  | error e s => exact (h.congr rfl rfl : s.leave.OpeningsCounted).closeScopes _
  | ok _ s =>
    have hleave : s.leave.OpeningsCounted := State.OpeningsCounted.congr h rfl rfl
    dsimp only
    split
    · exact hleave.closeScope
    · exact (hleave.closeScopes _).congr rfl rfl

theorem loadWithin_openingsCounted (setting : Setting) (levels : Nat) (name : String) {s : State}
    (hs : s.SectionInside) (hc : s.OpeningsCounted) :
    (finalState ((loadWithin setting levels name).run s)).OpeningsCounted := by
  induction levels generalizing name s with
  | zero => exact hc
  | succ levels ih =>
    rw [loadWithin]
    cases hf : setting.store.find name with
    | error e => exact hc
    | ok template =>
      have hl : ∀ p, Keeps (Running s name) (loadWithin setting levels p) := by
        rintro p u ⟨⟨d, hu⟩, hcu⟩
        have hframe := loadWithin_sameFrame setting levels p (hu.sectionInside hs)
        exact ⟨⟨d, hu.of_sameFrame hframe⟩, ih p (hu.sectionInside hs) hcu⟩
      exact openingsCounted_framed
        ((keptByCalls_running hs).runTemplate hl name template _ (.enter hc name)).2

/-! ## Balanced states -/

/-- The scopes fit the running templates, the open section and the counters. -/
structure Balanced (setting : Setting) (s : State) : Prop where
  counts : s.opened = s.closed + (s.height - 1)
  height : s.height = 1 + s.loading.length + if s.openSection.isSome then 1 else 0
  scope : ∀ o ∈ s.openSection, 1 ≤ o.scope ∧ o.scope < s.height
  depth : s.loading.length ≤ setting.maxDepth
  openings : s.OpeningsCounted

theorem Balanced.sectionInside {setting : Setting} {s : State} (h : Balanced setting s) :
    s.SectionInside := fun o ho => (h.scope o ho).2

theorem State.Idle.balanced {setting : Setting} {s : State} (h : s.Idle)
    (hc : s.OpeningsCounted) : Balanced setting s where
  counts := by simp [State.height, Scopes.height, h.scopes, h.counts]
  height := by simp [State.height, Scopes.height, h.scopes, h.openSection, h.loading]
  scope := by simp [h.openSection]
  depth := by simp [h.loading]
  openings := hc

section
variable {setting : Setting} {base s : State} {name : String} {d : Draft}

theorem Within.balanced (h : Within base name d s) (hb : Balanced setting base)
    (hroom : base.loading.length < setting.maxDepth) (hc : s.OpeningsCounted) :
    Balanced setting s := by
  have hbase : 1 ≤ base.height := Nat.succ_pos _
  have hpos : 1 ≤ s.height := Nat.succ_pos _
  have hl : s.loading.length = base.loading.length + 1 := congrArg List.length h.loading
  obtain ⟨n, hcl, hop⟩ := h.counts
  have hcounts := hb.counts
  have hheight := hb.height
  refine ⟨by omega, ?_, fun o ho => ⟨?_, h.sectionInside hb.sectionInside o ho⟩, by omega, hc⟩
  · cases hd : d.capture with
    | none =>
      rw [h.height_of_none hd, h.openSection_of_none hd]
      omega
    | some c =>
      have hnone := h.capture (by simp [hd])
      rw [h.height_of_some hd, h.openSection_of_some hd]
      simp only [hnone, Option.isSome_none, Bool.false_eq_true, ↓reduceIte] at hheight
      simp only [Option.isSome_some, ↓reduceIte]
      omega
  · cases hd : d.capture with
    | none => exact (hb.scope o (h.openSection_of_none hd ▸ ho)).1
    | some c =>
      rw [h.openSection_of_some hd, Option.mem_some] at ho
      rw [← ho]
      exact Nat.succ_pos _

/-- A moment above the state `base`: the scopes that were there are there still, below others, a
section that was open is open still, and the templates that ran run still. -/
structure Above (base : State) (m : Moment) : Prop where
  texts : ∃ ts, ts ≠ [] ∧ m.state.scopes.texts = ts ++ base.scopes.texts
  openSection : ∀ o ∈ base.openSection, m.state.openSection = some o
  loading : base.loading <:+ m.state.loading

theorem Above.trans {m : Moment} (h : Above base (.between s)) (hm : Above s m) :
    Above base m := by
  obtain ⟨ts, hne, hts⟩ := h.texts
  obtain ⟨us, -, hus⟩ := hm.texts
  refine ⟨⟨us ++ ts, by simp [hne], ?_⟩, fun o ho => hm.openSection o (h.openSection o ho),
    h.loading.trans hm.loading⟩
  rw [hus, show s.scopes.texts = _ from hts, List.append_assoc]

/-- A scope that is closed above `base` is not the lowest one. -/
theorem Above.below_ne_nil {m : Moment} (h : Above base m) : m.state.scopes.below ≠ [] := by
  obtain ⟨ts, hne, hts⟩ := h.texts
  intro hnil
  have hlen := congrArg List.length hts
  have hpos := List.length_pos_of_ne_nil hne
  simp only [Scopes.texts, hnil, List.length_append, List.length_cons, List.length_nil] at hlen
  omega

theorem Draft.texts_ne_nil (d : Draft) : d.texts ≠ [] := by
  unfold texts
  split <;> simp

theorem Within.above (h : Within base name d s) {m : Moment} (hs : m.state.scopes = s.scopes)
    (ho : m.state.openSection = s.openSection) (hl : base.loading <:+ m.state.loading) :
    Above base m := by
  refine ⟨⟨d.texts, d.texts_ne_nil, hs ▸ h.texts⟩, fun o hbo => ?_, hl⟩
  cases hd : d.capture with
  | none => rw [ho, h.openSection_of_none hd, hbo]
  | some c => cases (h.capture (by simp [hd])).symm.trans hbo

/-! ## The moments of a load -/

theorem State.closeScopes_eq {ts rest : List String} (h : s.scopes.texts = ts ++ rest)
    (hr : rest ≠ []) :
    ∃ scopes closed, s.closeScopes ts.length = { s with scopes, closed } ∧ scopes.texts = rest := by
  obtain ⟨top, below, rfl⟩ := List.exists_cons_of_ne_nil hr
  exact ⟨⟨top, below⟩, _, closeScopes_of_texts h, rfl⟩

/-- When a template ends, only scopes above those that were there before are closed. -/
theorem Within.mem_unwindMoments (h : Within base name d s) {m : Moment}
    (hm : m ∈ s.leave.unwindMoments base.height) :
    ∃ u, m = .closing u ∧ u.openSection = s.openSection ∧ Above base m := by
  obtain ⟨n, hn, rfl⟩ := List.mem_map.1 hm
  have hlt : n < d.texts.length := by
    have hheight : s.leave.height = d.texts.length + base.height := h.height
    rwa [List.mem_range, hheight, Nat.add_sub_cancel] at hn
  have hsplit : s.leave.scopes.texts = d.texts.take n ++ (d.texts.drop n ++ base.scopes.texts) := by
    rw [← List.append_assoc, List.take_append_drop]
    exact h.texts
  obtain ⟨scopes, closed, heq, htexts⟩ := State.closeScopes_eq hsplit (by simp [Scopes.texts])
  rw [List.length_take_of_le hlt.le] at heq
  refine ⟨_, rfl, by rw [heq]; rfl, ⟨d.texts.drop n, by simpa using hlt, ?_⟩, fun o ho => ?_, ?_⟩
  · rw [Moment.state, heq]
    exact htexts
  · rw [Moment.state, heq]
    exact (h.above (m := .between s) rfl rfl h.loading_suffix).openSection o ho
  · rw [Moment.state, heq]
    exact h.leave_loading ▸ List.suffix_refl _

theorem Within.mem_endMoments {r : EStateM.Result Fault State Unit}
    (h : Within base name d (finalState r)) {m : Moment} (hm : m ∈ endMoments base.height r) :
    ∃ u, m = .closing u ∧ u.openSection = (finalState r).openSection ∧ Above base m := by
  cases r with
  | error e s => exact h.mem_unwindMoments hm
  | ok _ s =>
    rw [endMoments] at hm
    split at hm
    · obtain rfl := List.mem_singleton.1 hm
      have hl : s.leave.loading = base.loading := Within.leave_loading h
      exact ⟨_, rfl, rfl, h.above rfl rfl (show _ <:+ s.leave.loading from hl ▸ List.suffix_refl _)⟩
    · exact h.mem_unwindMoments hm

/-- What holds of a single moment of a render. -/
def Moment.Fine (setting : Setting) : Moment → Prop
  | between s => Balanced setting s
  | closing s => s.scopes.below ≠ []

/-- The moments when a template ends lead to every state with the open section that was there before
the template. -/
theorem Within.endLeads {r : EStateM.Result Fault State Unit} {t : State}
    (h : Within base name d (finalState r)) (ht : Balanced setting t)
    (ho : t.openSection = base.openSection) :
    Leads (Passage (Moment.Fine setting)) (finalState r) (endMoments base.height r ++ [.between t])
      t := by
  -- a section that the template still captures is dropped with its scope
  have hclosed : t.openSection = (finalState r).openSection ∨ t.openSection = none := by
    cases hd : d.capture with
    | none => exact .inl (ho.trans (h.openSection_of_none hd).symm)
    | some c => exact .inr (ho.trans (h.capture (by simp [hd])))
  refine .of_same (fun m hm => ?_) ht hclosed
  obtain ⟨u, rfl, hu, ha⟩ := h.mem_endMoments hm
  exact ⟨ha.below_ne_nil, hu⟩

/-- What a running template keeps, and what that means for the moments of its calls. -/
theorem followed_running (name : String) (hb : Balanced setting base)
    (hroom : base.loading.length < setting.maxDepth) :
    Followed (Running base name) (fun m => m.Fine setting ∧ Above base m) where
  toKeptByCalls := keptByCalls_running hb.sectionInside
  between := fun _ ⟨⟨_, hw⟩, hc⟩ =>
    ⟨hw.balanced hb hroom hc, hw.above rfl rfl hw.loading_suffix⟩
  closing := fun s _ ⟨⟨_, hw⟩, _⟩ => by
    have habove := hw.above (m := .between s) rfl rfl hw.loading_suffix
    exact ⟨habove.below_ne_nil, ⟨habove.texts, habove.openSection, habove.loading⟩⟩
  height := fun s ⟨⟨_, hw⟩, hc⟩ ho => by
    simpa [ho] using (hw.balanced hb hroom hc).height

end

theorem keeps_loadWithin (setting : Setting) (levels : Nat) {base : State} (name : String)
    (hb : base.SectionInside) (p : String) :
    Keeps (Running base name) (loadWithin setting levels p) := fun s ⟨⟨d, hw⟩, hc⟩ => by
  have hs := hw.sectionInside hb
  exact ⟨⟨d, hw.of_sameFrame (loadWithin_sameFrame setting levels p hs)⟩,
    loadWithin_openingsCounted setting levels p hs hc⟩

section
variable (setting : Setting) (levels : Nat) (name : String) (s : State)

/-- The moments of a load are fine and above the state that it begins in. -/
def MomentsFine : Prop :=
  ∀ m ∈ loadMoments setting levels name s, m.Fine setting ∧ Above s m

/-- The moments of a load lead to every state with the open section of the state that it ends in. -/
def MomentsLead : Prop :=
  ∀ t, Balanced setting t →
    t.openSection = (finalState ((loadWithin setting levels name).run s)).openSection →
    Leads (Passage (Moment.Fine setting)) s (loadMoments setting levels name s ++ [.between t]) t

variable {setting levels s}

/-- Loads that do so from balanced states do so inside a running template. -/
theorem innerLeads_loadWithin (name : String) (hb : Balanced setting s)
    (hroom : s.loading.length < setting.maxDepth)
    (ih : ∀ p u, Balanced setting u → u.loading.length = s.loading.length + 1 →
      MomentsFine setting levels p u ∧ MomentsLead setting levels p u) :
    InnerLeads (Running s name) (fun m => m.Fine setting ∧ Above s m) (loadWithin setting levels)
      (loadMoments setting levels) := by
  have hfol := followed_running name hb hroom
  intro p u t hu ht ho
  obtain ⟨hfine, habove⟩ := hfol.between u hu
  obtain ⟨hall, hlead⟩ := ih p u hfine (congrArg List.length hu.1.choose_spec.loading)
  refine (hlead t (hfol.between t ht).1 ho).imp fun m n hn hmn => ⟨⟨hmn.target, ?_⟩, hmn.step⟩
  rcases List.mem_append.1 hn with hn | hn
  · exact habove.trans (hall n hn).2
  · rw [List.mem_singleton.1 hn]
    exact (hfol.between t ht).2

end

theorem loadMoments_leads {setting : Setting} (levels : Nat) (name : String) {s : State}
    (hb : Balanced setting s) (hroom : s.loading.length + levels ≤ setting.maxDepth) :
    MomentsFine setting levels name s ∧ MomentsLead setting levels name s := by
  induction levels generalizing name s with
  | zero =>
    refine ⟨fun m hm => ?_, fun t ht ho => .step ⟨ht, .same ho⟩⟩
    cases hm
  | succ levels ih =>
    cases hf : setting.store.find name with
    | error e =>
      rw [MomentsFine, MomentsLead, loadMoments, loadWithin, hf]
      refine ⟨fun m hm => ?_, fun t ht ho => .step ⟨ht, .same ho⟩⟩
      cases hm
    | ok template =>
      have hlt : s.loading.length < setting.maxDepth := by omega
      have hs := hb.sectionInside
      have hfol := followed_running name hb hlt
      have hinner := innerLeads_loadWithin name hb hlt fun p u hu hl => ih p hu (by omega)
      have henter := Running.enter hb.openings name
      have hkeeps := keeps_loadWithin setting levels name hs
      have hlead := hfol.templateLeads hkeeps hinner setting.fields name template henter
      have hrun : Running s name (finalState ((runTemplate (loadWithin setting levels)
          setting.fields name template).run (s.enter name))) :=
        hfol.runTemplate hkeeps name template _ henter
      have hframe := (loadWithin_sameFrame setting (levels + 1) name hs).openSection
      rw [MomentsFine, MomentsLead, loadMoments_of_find_ok hf, hframe]
      generalize (runTemplate (loadWithin setting levels) setting.fields name template).run
        (s.enter name) = r at hlead hrun ⊢
      obtain ⟨⟨d, hw⟩, -⟩ := hrun
      refine ⟨fun m hm => ?_, fun t ht ho => ?_⟩
      · rcases List.mem_cons.1 hm with rfl | hm
        · exact hfol.between _ henter
        rcases List.mem_append.1 hm with hm | hm
        · exact forall_of_isChain hlead.chain (fun _ _ h => h.target) m hm
        · obtain ⟨u, rfl, -, ha⟩ := hw.mem_endMoments hm
          exact ⟨ha.below_ne_nil, ha⟩
      · have hbegin : Leads (Passage (Moment.Fine setting)) s [.between (s.enter name)]
            (s.enter name) := .step ⟨(hfol.between _ henter).1, .same rfl⟩
        have hbody := hlead.imp (S := Passage (Moment.Fine setting))
          fun m n _ h => ⟨h.target.1, h.step⟩
        have hend := hw.endLeads ht ho
        simpa using hbegin.append (hbody.append hend)

/-! ## Whole renders -/

section
variable {setting : Setting} {view name : String} {chain : List String} {s : State}

theorem Attempt.openingsCounted (h : Attempt setting view chain s) : s.OpeningsCounted := by
  induction h with
  | view => rfl
  | @parent name _ _ _ s s' ha hl _ _ ih =>
    have hcounted := loadWithin_openingsCounted setting setting.maxDepth name
      ha.idle.sectionInside ih
    rw [← ha.run_load, hl] at hcounted
    exact hcounted.congr rfl rfl

theorem Attempt.balanced (h : Attempt setting view chain s) : Balanced setting s :=
  h.idle.balanced h.openingsCounted

/-- After each load at the outermost level all scopes are closed, whether it failed or not. -/
theorem Attempt.idle_load (h : Attempt setting view (name :: chain) s) :
    (finalState ((load setting name).run s)).Idle :=
  (load_sameFrame setting name h.idle.sectionInside).idle h.idle

theorem Attempt.balanced_load (h : Attempt setting view (name :: chain) s) :
    Balanced setting (finalState ((load setting name).run s)) := by
  refine h.idle_load.balanced ?_
  rw [h.run_load]
  exact loadWithin_openingsCounted setting setting.maxDepth name h.idle.sectionInside
    h.openingsCounted

theorem Attempt.leads (h : Attempt setting view (name :: chain) s) :
    Leads (Passage (Moment.Fine setting)) s
      (loadMoments setting setting.maxDepth name s ++
        [.between (finalState ((load setting name).run s))])
      (finalState ((load setting name).run s)) := by
  have hroom : s.loading.length + setting.maxDepth ≤ setting.maxDepth := by simp [h.idle.loading]
  refine (loadMoments_leads setting.maxDepth name h.balanced hroom).2 _ h.balanced_load ?_
  rw [h.run_load]

theorem Attempt.fine (h : Attempt setting view (name :: chain) s) :
    ∀ m ∈ attemptMoments setting name s, m.Fine setting :=
  List.forall_mem_cons.2 ⟨h.balanced, forall_of_isChain h.leads.chain fun _ _ h => h.target⟩

theorem idle_render {outcome : Outcome} (h : render setting view = some outcome) :
    (finalState outcome).Idle := by
  obtain ⟨name, chain, s, ha, hends⟩ := render_cases h
  have hidle := ha.idle_load
  cases hends with
  | fault hl =>
    rw [hl] at hidle
    exact hidle
  | page hl _ =>
    rw [hl] at hidle
    exact hidle
  | cycle hl _ _ =>
    rw [hl] at hidle
    obtain ⟨hs, ho, hn, hc⟩ := hidle
    exact ⟨hs, ho, hn, hc⟩

/-- The open section `o` of the moment `m` began in a step from a state `u`, when as many templates
ran as its scope says, and is the same since. -/
def BeganBefore (before : List Moment) (m : Moment) (o : OpenSection) : Prop :=
  ∃ earlier u since, before ++ [m] = earlier ++ .between u :: since ∧ since ≠ [] ∧
    u.openSection = none ∧ (∀ n ∈ since, n.state.openSection = some o) ∧
    o.scope = 1 + u.loading.length

/-- What holds of the scopes while a render of `view` loads the template `name` at the outermost
level, from the state `s` on. -/
structure ScopesBalanced (setting : Setting) (view name : String) (s : State) : Prop where
  /-- Between two steps the scopes fit the running templates, the open section and the counters. -/
  balanced : ∀ t, .between t ∈ attemptMoments setting name s → Balanced setting t
  /-- A section is captured one scope above the templates that ran when it began. -/
  began : ∀ before m after o, attemptMoments setting name s = before ++ m :: after →
    m.state.openSection = some o → BeganBefore before m o
  /-- A scope is closed only if there is one to go on with. -/
  closing : ∀ t, .closing t ∈ attemptMoments setting name s → t.scopes.below ≠ []
  /-- All scopes are closed after the load, whether it failed or not. -/
  loaded : (finalState ((load setting name).run s)).Idle
  /-- All scopes are closed after the render. -/
  rendered : ∀ outcome, render setting view = some outcome → (finalState outcome).Idle

/-- The scopes are balanced throughout a render. -/
theorem scopes_balanced (h : Attempt setting view (name :: chain) s) :
    ScopesBalanced setting view name s where
  balanced t ht := h.fine _ ht
  began before m after o heq ho := by
    have hchain : List.IsChain SectionStep (attemptMoments setting name s) :=
      h.leads.chain.imp fun _ _ hr => hr.step
    rw [heq, List.isChain_split] at hchain
    refine exists_opening hchain.1 (fun n hn => ?_) ho
    have hfirst : (before ++ [m]).head? = (attemptMoments setting name s).head? := by
      cases before <;> simp [heq]
    rw [hfirst, attemptMoments, List.head?_cons, Option.mem_some] at hn
    rw [← hn]
    exact h.idle.openSection
  closing t ht := h.fine _ ht
  loaded := h.idle_load
  rendered _ h := idle_render h

end

/-- A page with a section, for a layout that shows it. A note inside of the section tries to end
it. -/
def pageWithNote : Setting where
  store := ((({} : MemoryStore).add "page" (.directives
    [.beginSection "body", .includePartial "note", .close, .extend "layout"])).add "note"
    (.script [⟨.node .close, true⟩, ⟨.node (.text "hello"), false⟩])).add "layout"
    (.directives [.text "-- ", .showSection "body"]) |>.toStore
  fields := ∅
  maxDepth := 2

theorem scopes_balanced_layout :
    ∃ s, Attempt pageWithNote "page" ["layout", "page"] s ∧
      ScopesBalanced pageWithNote "page" "layout" s := by
  have h : Attempt pageWithNote "page" ["layout", "page"] _ := .parent .view rfl rfl (by decide)
  exact ⟨_, h, scopes_balanced h⟩

section
variable {setting : Setting}

theorem Reachable.balanced {t : State} (h : Reachable setting t) : Balanced setting t := by
  obtain ⟨_, _, _, _, ha, ht⟩ := h
  exact ha.fine _ ht

/-- A load from any state of a render, whether it fails or not, comes back to the scopes and their
texts, the open section and the running templates as they were, and has closed as many scopes as it
has opened. In between it only adds to them: no scope that was there is written to or closed, and no
section that was open ends. -/
theorem load_neutral {t : State} (h : Reachable setting t) (name : String) :
    SameFrame t (finalState ((load setting name).run t)) ∧
      ∀ m ∈ loadMoments setting (t.levelsLeft setting) name t, Above t m := by
  have hb := h.balanced
  have hroom : t.loading.length + t.levelsLeft setting ≤ setting.maxDepth :=
    (Nat.add_sub_of_le hb.depth).le
  refine ⟨load_sameFrame setting name hb.sectionInside, fun m hm => ?_⟩
  exact ((loadMoments_leads _ name hb hroom).1 m hm).2

end

theorem load_neutral_note :
    ∃ t, Reachable pageWithNote t ∧ t.openSection = some ⟨"body", 2⟩ ∧
      SameFrame t (finalState ((load pageWithNote "note").run t)) := by
  have h : Reachable pageWithNote _ :=
    ⟨"page", "page", [], {}, .view, .tail _ (.tail _ (.head _))⟩
  exact ⟨_, h, rfl, (load_neutral h "note").1⟩

end ViewTemplates.Render
