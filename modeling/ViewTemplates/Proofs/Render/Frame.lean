import ViewTemplates.Proofs.Render.Draft
import ViewTemplates.Render.Chain

/-!
# What a load leaves as it was

A template runs above the scopes of the templates around it, and whatever calls it makes, it comes
back to them as they were: `loadWithin_sameFrame`. The induction is on the levels that are left; the
calls of a template keep that it is within the state it began in (`keptByCalls_within`), and the
loads among them do so by the induction hypothesis.

A render is a sequence of loads at the outermost level. `Attempt setting view chain s` says that it
comes to load the first name of `chain`, in the state `s`, after the other names, and
`Attempt.Ends` how an attempt can end it. A render has an outcome exactly if one of its attempts
ends it so (`render_eq_some_iff`); without an outcome it comes to attempts after any number of
others (`render_eq_none_iff`). Every attempt begins in a state without running templates
(`Attempt.idle`).
-/

set_option autoImplicit false

namespace ViewTemplates.Render

/-! ## Loads -/

theorem keptByCalls_within {base : State} {name : String} (hb : base.SectionInside) :
    KeptByCalls fun s => ∃ d, Within base name d s where
  write _ text := fun ⟨d, h⟩ => ⟨d.write text, h.write text⟩
  note _ _ _ _ := fun ⟨d, h⟩ => ⟨d, h.record _⟩
  extend s s' parent he := fun ⟨d, h⟩ => by
    cases hc : d.capture with
    | none =>
      obtain ⟨t, ht, hw, -⟩ := h.extend hb hc parent
      cases ht.symm.trans he
      exact ⟨_, hw⟩
    | some c => cases (h.extend_of_some hb hc parent).symm.trans he
  beginSection s s' n he := fun ⟨d, h⟩ => by
    cases ho : s.openSection with
    | none =>
      obtain ⟨t, ht, hw, -⟩ := h.beginSection ho n
      cases ht.symm.trans he
      exact ⟨_, hw⟩
    | some o => cases (State.beginSection_of_some ho n).symm.trans he
  close s s' content he := fun ⟨d, h⟩ => by
    cases hc : d.capture with
    | none => cases (h.close_of_none hb hc).symm.trans he
    | some c =>
      obtain ⟨t, ht, hw, -⟩ := h.close hc
      cases ht.symm.trans he
      exact ⟨_, hw⟩

/-- A load leaves the frame as it was, whether it fails or not. -/
theorem loadWithin_sameFrame (setting : Setting) (levels : Nat) (name : String) {s : State}
    (hs : s.SectionInside) :
    SameFrame s (finalState ((loadWithin setting levels name).run s)) := by
  induction levels generalizing name s with
  | zero => exact .refl s
  | succ levels ih =>
    rw [loadWithin]
    cases hf : setting.store.find name with
    | error e => exact .refl s
    | ok template =>
      have hl : ∀ p, Keeps (fun u => ∃ d, Within s name d u) (loadWithin setting levels p) := by
        rintro p u ⟨d, hu⟩
        exact ⟨d, hu.of_sameFrame (ih p (hu.sectionInside hs))⟩
      exact sameFrame_framed hs
        ((keptByCalls_within hs).runTemplate hl name template _ ⟨{}, .enter s name⟩)

/-- A load leaves a running template within the state that it began in. -/
theorem keeps_within (setting : Setting) (levels : Nat) {base : State} (name p : String)
    (hb : base.SectionInside) :
    Keeps (fun s => ∃ d, Within base name d s) (loadWithin setting levels p) := by
  rintro s ⟨d, hw⟩
  exact ⟨d, hw.of_sameFrame (loadWithin_sameFrame setting levels p (hw.sectionInside hb))⟩

theorem load_keeps_within (setting : Setting) {base : State} (name p : String)
    (hb : base.SectionInside) :
    Keeps (fun s => ∃ d, Within base name d s) (load setting p) :=
  .load fun levels => keeps_within setting levels name p hb

theorem load_sameFrame (setting : Setting) (name : String) {s : State} (hs : s.SectionInside) :
    SameFrame s (finalState ((load setting name).run s)) :=
  loadWithin_sameFrame setting (s.levelsLeft setting) name hs

/-! ## The loads of a render -/

/-- The render of `view` comes to load the first name of the chain in the state `s`; the other names
were loaded before, the latest first. -/
inductive Attempt (setting : Setting) (view : String) : List String → State → Prop
  | view : Attempt setting view [view] {}
  | parent {name parent output : String} {chain : List String} {s s' : State} :
      Attempt setting view (name :: chain) s → (load setting name).run s = .ok output s' →
      s'.parent = some parent → parent ∉ name :: chain →
      Attempt setting view (parent :: name :: chain) s'.takeParent

/-- No template runs, and nothing was written outside of templates. -/
structure State.Idle (s : State) : Prop where
  scopes : s.scopes = {}
  openSection : s.openSection = none
  loading : s.loading = []
  counts : s.opened = s.closed

theorem State.Idle.sectionInside {s : State} (h : s.Idle) : s.SectionInside := by
  simp [SectionInside, h.openSection]

theorem SameFrame.idle {s t : State} (h : SameFrame s t) (hs : s.Idle) : t.Idle where
  scopes := h.scopes.trans hs.scopes
  openSection := h.openSection.trans hs.openSection
  loading := h.loading.trans hs.loading
  counts := by
    obtain ⟨n, ho, hc⟩ := h.counts
    rw [ho, hc, hs.counts]

section
variable {setting : Setting} {view : String}

/-- Every attempt begins outside of templates. -/
theorem Attempt.idle {chain : List String} {s : State} (h : Attempt setting view chain s) :
    s.Idle := by
  induction h with
  | view => exact ⟨rfl, rfl, rfl, rfl⟩
  | @parent name _ _ _ s s' _ hl _ _ ih =>
    have hframe := load_sameFrame setting name ih.sectionInside
    rw [hl] at hframe
    obtain ⟨hs, ho, hn, hc⟩ := hframe.idle ih
    exact ⟨hs, ho, hn, hc⟩

theorem Attempt.parent_eq_none {chain : List String} {s : State}
    (h : Attempt setting view chain s) : s.parent = none := by
  cases h <;> rfl

/-- All levels are left for the load of an attempt. -/
theorem Attempt.run_load {chain : List String} {s : State} (h : Attempt setting view chain s)
    (name : String) :
    (load setting name).run s = (loadWithin setting setting.maxDepth name).run s :=
  run_load_of_loading (Nat.sub_zero _) name h.idle.loading

/-- How an attempt ends the render: its load fails, there is no view to go on with, or that view was
loaded before. -/
inductive Attempt.Ends (setting : Setting) (name : String) (chain : List String) (s : State) :
    Outcome → Prop
  | fault {e : Fault} {s' : State} : (load setting name).run s = .error e s' →
      Ends setting name chain s (.error e s')
  | page {output : String} {s' : State} : (load setting name).run s = .ok output s' →
      s'.parent = none → Ends setting name chain s (.ok output s')
  | cycle {parent output : String} {s' : State} : (load setting name).run s = .ok output s' →
      s'.parent = some parent → parent ∈ name :: chain →
      Ends setting name chain s (.error (.extendCycle (parent :: name :: chain).reverse)
        s'.takeParent)

theorem climbStep_eq_inl_iff {name : String} {chain : List String} {s : State}
    {outcome : Outcome} :
    climbStep setting ⟨chain, name, s⟩ = .inl outcome ↔
      Attempt.Ends setting name chain s outcome := by
  constructor
  · intro h
    cases hl : (load setting name).run s with
    | error e s' =>
      cases (climbStep_of_load_error hl).symm.trans h
      exact .fault hl
    | ok output s' =>
      cases hp : s'.parent with
      | none =>
        cases (climbStep_of_page hl hp).symm.trans h
        exact .page hl hp
      | some parent =>
        by_cases hc : parent ∈ name :: chain
        · cases (climbStep_of_cycle hl hp hc).symm.trans h
          exact .cycle hl hp hc
        · cases (climbStep_of_parent hl hp hc).symm.trans h
  · intro h
    cases h with
    | fault hl => exact climbStep_of_load_error hl
    | page hl hp => exact climbStep_of_page hl hp
    | cycle hl hp hc => exact climbStep_of_cycle hl hp hc

theorem Attempt.next {x next : Climb} (h : Attempt setting view (x.name :: x.before) x.state)
    (hx : climbStep setting x = .inr next) :
    Attempt setting view (next.name :: next.before) next.state := by
  obtain ⟨parent, output, s', hl, hp, hc, rfl⟩ := climbStep_eq_inr hx
  exact .parent h hl hp hc

/-- A render that ends does so with one of its attempts. -/
theorem render_cases {outcome : Outcome} (h : render setting view = some outcome) :
    ∃ name chain s, Attempt setting view (name :: chain) s ∧
      Attempt.Ends setting name chain s outcome :=
  of_iterate? (P := fun x => Attempt setting view (x.name :: x.before) x.state →
      ∃ name chain s, Attempt setting view (name :: chain) s ∧
        Attempt.Ends setting name chain s outcome) h
    (fun _ hx ha => ⟨_, _, _, ha, climbStep_eq_inl_iff.1 hx⟩)
    (fun _ _ hx _ ih ha => ih (ha.next hx)) .view

/-- The render goes on from every attempt. -/
theorem Attempt.render_eq_climb {names : List String} {s : State}
    (h : Attempt setting view names s) {name : String} {chain : List String}
    (hnames : names = name :: chain) : render setting view = climb setting chain name s := by
  induction h generalizing name chain with
  | view =>
    cases hnames
    rfl
  | parent h hl hp hnot ih =>
    cases hnames
    rw [ih rfl, climb_of_parent hl hp hnot]

/-- The way an attempt ends is the way the render ends. -/
theorem Attempt.Ends.render_eq {name : String} {chain : List String} {s : State}
    {outcome : Outcome} (h : Attempt setting view (name :: chain) s)
    (hends : Attempt.Ends setting name chain s outcome) : render setting view = some outcome := by
  rw [h.render_eq_climb rfl]
  exact iterate?_of_inl (climbStep_eq_inl_iff.2 hends)

/-- A render has an outcome exactly if one of its attempts ends it so. -/
theorem render_eq_some_iff {outcome : Outcome} :
    render setting view = some outcome ↔
      ∃ name chain s, Attempt setting view (name :: chain) s ∧
        Attempt.Ends setting name chain s outcome :=
  ⟨render_cases, fun ⟨_, _, _, ha, hends⟩ => hends.render_eq ha⟩

/-- A render without an outcome goes on after every attempt. -/
theorem Attempt.exists_parent {name : String} {chain : List String} {s : State}
    (h : Attempt setting view (name :: chain) s) (hr : render setting view = none) :
    ∃ parent s', Attempt setting view (parent :: name :: chain) s' := by
  cases hx : climbStep setting ⟨chain, name, s⟩ with
  | inl outcome => cases hr.symm.trans ((climbStep_eq_inl_iff.1 hx).render_eq h)
  | inr next =>
    obtain ⟨parent, output, s', hl, hp, hc, -⟩ := climbStep_eq_inr hx
    exact ⟨parent, _, .parent h hl hp hc⟩

/-- A render comes to one attempt after a given number of others. -/
theorem Attempt.unique {chain chain' : List String} {s s' : State}
    (h : Attempt setting view chain s) (h' : Attempt setting view chain' s')
    (hlen : chain.length = chain'.length) : chain = chain' ∧ s = s' := by
  induction h generalizing chain' s' with
  | view =>
    cases h' with
    | view => exact ⟨rfl, rfl⟩
    | parent => cases hlen
  | parent _ hl hp _ ih =>
    cases h' with
    | view => cases hlen
    | parent h' hl' hp' _ =>
      obtain ⟨hchain, rfl⟩ := ih h' (Nat.succ.inj hlen)
      cases hchain
      cases hl.symm.trans hl'
      cases hp.symm.trans hp'
      exact ⟨rfl, rfl⟩

/-- There is no attempt after one that ends the render. -/
theorem Attempt.Ends.length_le {name : String} {chain names : List String} {s t : State}
    {outcome : Outcome} (h : Attempt setting view (name :: chain) s)
    (hends : Attempt.Ends setting name chain s outcome) (h' : Attempt setting view names t) :
    names.length ≤ (name :: chain).length := by
  induction h' with
  | view => simp
  | parent h' hl hp hc ih =>
    refine Nat.lt_of_le_of_ne ih fun hlen => ?_
    obtain ⟨hchain, rfl⟩ := h'.unique h hlen
    cases hchain
    cases hends with
    | fault hl' => cases hl.symm.trans hl'
    | page hl' hp' =>
      cases hl.symm.trans hl'
      cases hp.symm.trans hp'
    | cycle hl' hp' hc' =>
      cases hl.symm.trans hl'
      cases hp.symm.trans hp'
      exact hc hc'

/-- A render has no outcome exactly if it comes to attempts after any number of others. -/
theorem render_eq_none_iff :
    render setting view = none ↔
      ∀ n, ∃ name chain s, Attempt setting view (name :: chain) s ∧ chain.length = n := by
  constructor
  · intro hr n
    induction n with
    | zero => exact ⟨view, [], {}, .view, rfl⟩
    | succ n ih =>
      obtain ⟨name, chain, s, ha, rfl⟩ := ih
      obtain ⟨parent, s', ha'⟩ := ha.exists_parent hr
      exact ⟨parent, name :: chain, s', ha', rfl⟩
  · intro hall
    cases hr : render setting view with
    | none => rfl
    | some outcome =>
      obtain ⟨name, chain, s, ha, hends⟩ := render_cases hr
      obtain ⟨name', chain', s', ha', hlen⟩ := hall (chain.length + 1)
      have hle := hends.length_le ha ha'
      rw [List.length_cons, List.length_cons, hlen] at hle
      exact absurd hle (Nat.not_succ_le_self _)

/-- A render has no outcome if its attempts go on as those of a render without an outcome do. -/
theorem render_eq_none_of_attempts {setting' : Setting} (hr : render setting view = none)
    (h : ∀ names s, Attempt setting view names s → ∃ t, Attempt setting' view names t) :
    render setting' view = none := by
  refine render_eq_none_iff.2 fun n => ?_
  obtain ⟨name, chain, s, ha, hlen⟩ := render_eq_none_iff.1 hr n
  obtain ⟨t, ht⟩ := h _ s ha
  exact ⟨name, chain, t, ht, hlen⟩

end

end ViewTemplates.Render
