import ViewTemplates.Render.Keeps

/-!
# What a running template has written

Of the stack of scopes only the innermost one or two belong to the running template: its output and,
inside it, the section that it captures. A `Draft` is that part alone.

`Within base name d s` says that the template `name` was begun in the state `base` and has written
`d` in the state `s`: the scopes below, the section that was open and the names of the running
templates are those of `base`. Each call does to the draft what it does to the scopes, and fails in
cases that can be told from the draft and from `base` (`Within.extend`, `Within.beginSection`,
`Within.close` and the lemmas on their faults). When the template ends, `base` is back except for
the sections, the parent and the counters (`SameFrame`, `sameFrame_framed`).
-/

set_option autoImplicit false

namespace ViewTemplates.Render

/-- The texts of the scopes, the innermost first. -/
def Scopes.texts (scopes : Scopes) : List String := scopes.top :: scopes.below

theorem Scopes.texts_inj {a b : Scopes} (h : a.texts = b.texts) : a = b := by
  cases a
  cases b
  simpa [texts] using h

/-- What all templates of a render share: the sections and the view to be extended. -/
structure Shared where
  sections : Std.ExtTreeMap String String := ∅
  parent : Option String := none

/-- The shared part of a state. -/
def State.shared (s : State) : Shared := ⟨s.sections, s.parent⟩

/-- A section that the running template captures, with what was written to it. -/
structure Capture where
  name : String
  text : String

/-- What the running template has written: its output and the section that it captures. -/
structure Draft where
  output : String := ""
  capture : Option Capture := none

namespace Draft

/-- Writes to the section that is captured, or to the output. -/
def write (d : Draft) (text : String) : Draft :=
  match d.capture with
  | none => { d with output := d.output ++ text }
  | some c => { d with capture := some { c with text := c.text ++ text } }

/-- The texts of its scopes, the innermost first. -/
def texts (d : Draft) : List String :=
  match d.capture with
  | none => [d.output]
  | some c => [c.text, d.output]

/-- The open section while a template runs that was begun in the state `base`. -/
def openSection (d : Draft) (base : State) : Option OpenSection :=
  match d.capture with
  | none => base.openSection
  | some c => some ⟨c.name, base.height + 1⟩

end Draft

namespace State

/-! ## Calls on the parts of a state -/

/-- The open section is captured by a scope that is there. -/
def SectionInside (s : State) : Prop := ∀ o ∈ s.openSection, o.scope < s.height

theorem ownSection?_eq_none {s : State} :
    s.ownSection? = none ↔ ∀ o ∈ s.openSection, o.scope + 1 ≠ s.height := by
  simp [ownSection?, Option.filter_eq_none_iff]

theorem extend_of_not_own {s : State} {text next : String} {below : List String}
    (hs : s.scopes = ⟨text, next :: below⟩) (h : s.ownSection? = none) (parent : String) :
    (Run.extend parent).run s = .ok () { s with
      scopes := ⟨"", next :: below⟩, parent := some parent, opened := s.opened + 1,
      closed := s.closed + 1,
      history := ⟨.extended parent, s.opened + 1, s.closed + 1⟩ :: s.history } := by
  simp [Run.run_extend, h, restartScope, hs, closeScope, Scopes.pop?, openScope, Scopes.push,
    record]

theorem beginSection_of_none {s : State} (h : s.openSection = none) (name : String) :
    (Run.beginSection name).run s = .ok () { s with
      scopes := s.scopes.push, openSection := some ⟨name, s.height⟩, opened := s.opened + 1,
      history := ⟨.opened name, s.opened + 1, s.closed⟩ :: s.history } := by
  simp [Run.run_beginSection, h, openScope, record]

theorem beginSection_of_some {s : State} {o : OpenSection} (h : s.openSection = some o)
    (name : String) :
    (Run.beginSection name).run s = .error (.misplaced (.alreadyOpen o.name name)) s := by
  simp [Run.run_beginSection, h]

theorem close_of_own {s : State} {o : OpenSection} {captured next : String} {below : List String}
    (h : s.openSection = some o) (ho : o.scope + 1 = s.height)
    (hs : s.scopes = ⟨captured, next :: below⟩) :
    Run.close.run s = .ok (s.mergedContent o.name captured) { s with
      scopes := ⟨next ++ s.mergedContent o.name captured, below⟩, openSection := none,
      sections := s.sections.insert o.name (s.mergedContent o.name captured),
      closed := s.closed + 1,
      history := ⟨.closed o.name captured (s.mergedContent o.name captured), s.opened,
        s.closed + 1⟩ :: s.history } := by
  simp [Run.run_close, h, ho, closeScope, hs, Scopes.pop?, mergedContent, write, Scopes.write,
    record]

theorem close_of_none {s : State} (h : s.openSection = none) :
    Run.close.run s = .error (.misplaced .notOpen) s := by
  simp [Run.run_close, h]

theorem close_of_foreign {s : State} {o : OpenSection} (h : s.openSection = some o)
    (ho : o.scope + 1 ≠ s.height) :
    Run.close.run s = .error (.misplaced (.foreignClose o.name)) s := by
  simp [Run.run_close, h, ho]

theorem closeScope_of_below {s : State} {text next : String} {below : List String}
    (hs : s.scopes = ⟨text, next :: below⟩) :
    s.closeScope = (text, { s with scopes := ⟨next, below⟩, closed := s.closed + 1 }) := by
  simp [closeScope, hs, Scopes.pop?]

/-- Closing the scopes with the texts `ts` brings back those below. -/
theorem closeScopes_of_texts {s : State} {ts : List String} {scopes : Scopes}
    (h : s.scopes.texts = ts ++ scopes.texts) :
    s.closeScopes ts.length = { s with scopes, closed := s.closed + ts.length } := by
  induction ts generalizing s with
  | nil =>
    obtain rfl := Scopes.texts_inj h
    rfl
  | cons t ts ih =>
    obtain ⟨next, below, hb⟩ : ∃ next below, ts ++ scopes.texts = next :: below := by
      cases ts <;> exact ⟨_, _, rfl⟩
    have hs : s.scopes = ⟨t, next :: below⟩ := Scopes.texts_inj (h.trans (congrArg (t :: ·) hb))
    rw [List.length_cons, closeScopes, closeScope_of_below hs]
    rw [ih (s := { s with scopes := ⟨next, below⟩, closed := s.closed + 1 }) hb.symm]
    simp only [Nat.add_assoc, Nat.add_comm 1]

end State

/-! ## The states of a running template -/

/-- The template `name`, begun in the state `base`, has written `d` in the state `s`. -/
structure Within (base : State) (name : String) (d : Draft) (s : State) : Prop where
  texts : s.scopes.texts = d.texts ++ base.scopes.texts
  openSection : s.openSection = d.openSection base
  capture : d.capture ≠ none → base.openSection = none
  loading : s.loading = name :: base.loading
  counts : ∃ n, s.closed = base.closed + n ∧ s.opened + base.height = base.opened + n + s.height

/-- The states agree except for the sections, the view to be extended and the history, and the same
number of scopes was opened and closed in between. -/
structure SameFrame (s t : State) : Prop where
  scopes : t.scopes = s.scopes
  openSection : t.openSection = s.openSection
  loading : t.loading = s.loading
  counts : ∃ n, t.opened = s.opened + n ∧ t.closed = s.closed + n

theorem SameFrame.refl (s : State) : SameFrame s s := ⟨rfl, rfl, rfl, 0, rfl, rfl⟩

theorem State.height_eq (s : State) : s.height = s.scopes.texts.length := rfl

namespace Within

variable {base s t : State} {name : String} {d : Draft}

theorem enter (base : State) (name : String) : Within base name {} (base.enter name) where
  texts := rfl
  openSection := rfl
  capture h := absurd rfl h
  loading := rfl
  counts := ⟨0, rfl, Nat.add_right_comm ..⟩

theorem of_sameFrame (h : Within base name d s) (ht : SameFrame s t) : Within base name d t where
  texts := ht.scopes ▸ h.texts
  openSection := ht.openSection.trans h.openSection
  capture := h.capture
  loading := ht.loading.trans h.loading
  counts := by
    obtain ⟨n, hc, ho⟩ := h.counts
    obtain ⟨m, hto, htc⟩ := ht.counts
    have hh : t.height = s.height := congrArg Scopes.height ht.scopes
    exact ⟨n + m, by omega, by omega⟩

theorem record (h : Within base name d s) (event : Event) : Within base name d (s.record event) :=
  h.of_sameFrame ⟨rfl, rfl, rfl, 0, rfl, rfl⟩

theorem loading_suffix (h : Within base name d s) : base.loading <:+ s.loading :=
  h.loading ▸ List.suffix_cons ..

theorem leave_loading (h : Within base name d s) : s.leave.loading = base.loading :=
  congrArg List.tail h.loading

/-! ### Scopes -/

theorem height (h : Within base name d s) : s.height = d.texts.length + base.height := by
  rw [State.height_eq, h.texts, List.length_append]
  rfl

/-- The scopes of a template that captures no section. -/
theorem scopes_of_none (h : Within base name d s) (hc : d.capture = none) :
    s.scopes = ⟨d.output, base.scopes.texts⟩ :=
  Scopes.texts_inj (h.texts.trans (by rw [Draft.texts, hc]; rfl))

/-- The scopes of a template that captures a section. -/
theorem scopes_of_some {c : Capture} (h : Within base name d s) (hc : d.capture = some c) :
    s.scopes = ⟨c.text, d.output :: base.scopes.texts⟩ :=
  Scopes.texts_inj (h.texts.trans (by rw [Draft.texts, hc]; rfl))

theorem write (h : Within base name d s) (text : String) :
    Within base name (d.write text) (s.write text) := by
  cases hc : d.capture with
  | none =>
    have hs := h.scopes_of_none hc
    obtain ⟨-, ho, -, hl, n, hcl, hop⟩ := h
    simp only [Draft.openSection, hc] at ho
    simp only [Draft.write, hc]
    refine ⟨?_, ho, absurd rfl, hl, n, hcl, hop⟩
    simp [State.write, Scopes.write, hs, Draft.texts, Scopes.texts]
  | some c =>
    have hs := h.scopes_of_some hc
    obtain ⟨-, ho, hcap, hl, n, hcl, hop⟩ := h
    simp only [Draft.openSection, hc] at ho
    simp only [Draft.write, hc]
    refine ⟨?_, ho, fun _ => hcap (by simp [hc]), hl, n, hcl, hop⟩
    simp [State.write, Scopes.write, hs, Draft.texts, Scopes.texts]

/-! ### The open section -/

theorem openSection_of_none (h : Within base name d s) (hc : d.capture = none) :
    s.openSection = base.openSection := by
  rw [h.openSection, Draft.openSection, hc]

theorem openSection_of_some {c : Capture} (h : Within base name d s) (hc : d.capture = some c) :
    s.openSection = some ⟨c.name, base.height + 1⟩ := by
  rw [h.openSection, Draft.openSection, hc]

theorem height_of_none (h : Within base name d s) (hc : d.capture = none) :
    s.height = base.height + 1 := by
  rw [h.height, Draft.texts, hc, List.length_singleton, Nat.add_comm]

theorem height_of_some {c : Capture} (h : Within base name d s) (hc : d.capture = some c) :
    s.height = base.height + 2 := by
  rw [h.height, Draft.texts, hc, Nat.add_comm]
  rfl

/-- The name of the section that is open while the template runs. -/
theorem openSection_name (h : Within base name d s) :
    s.openSection.map (·.name) = (d.capture.map (·.name)).or (base.openSection.map (·.name)) := by
  cases hc : d.capture with
  | none => simp [h.openSection_of_none hc]
  | some c => simp [h.openSection_of_some hc]

section
variable (h : Within base name d s) (hb : base.SectionInside)
include h hb

/-- The innermost scope captures a section exactly if the template captures one. -/
theorem ownSection? : s.ownSection? = d.capture.map fun c => ⟨c.name, base.height + 1⟩ := by
  cases hc : d.capture with
  | none =>
    rw [Option.map_none, State.ownSection?_eq_none, h.openSection_of_none hc, h.height_of_none hc]
    intro o ho
    have := hb o ho
    omega
  | some c => simp [State.ownSection?, h.openSection_of_some hc, h.height_of_some hc]

/-- A section is found open at the end exactly if the template captures one. -/
theorem unclosed? : s.unclosed? base.height = d.capture.map fun c => ⟨c.name, base.height + 1⟩ := by
  cases hc : d.capture with
  | none =>
    rw [State.unclosed?, h.openSection_of_none hc, Option.map_none, Option.filter_eq_none_iff]
    intro o ho
    have := hb o ho
    simp only [decide_eq_true_eq]
    omega
  | some c => simp [State.unclosed?, h.openSection_of_some hc]

theorem sectionInside : s.SectionInside := by
  intro o ho
  cases hc : d.capture with
  | none =>
    rw [h.openSection_of_none hc] at ho
    have := hb o ho
    rw [h.height_of_none hc]
    omega
  | some c =>
    rw [h.openSection_of_some hc, Option.mem_some] at ho
    rw [h.height_of_some hc, ← ho]
    exact Nat.lt_succ_self _

end

/-! ### Calls -/

theorem extend (h : Within base name d s) (hb : base.SectionInside) (hc : d.capture = none)
    (parent : String) :
    ∃ s', (Run.extend parent).run s = .ok () s' ∧ Within base name { d with output := "" } s' ∧
      s'.shared = { s.shared with parent := some parent } := by
  have hs := h.scopes_of_none hc
  have hown : s.ownSection? = none := by rw [h.ownSection? hb, hc, Option.map_none]
  refine ⟨_, State.extend_of_not_own hs hown parent, ?_, rfl⟩
  have hh := h.height_of_none hc
  have ho := h.openSection_of_none hc
  obtain ⟨-, -, -, hl, n, hcl, hop⟩ := h
  refine ⟨by simp [Draft.texts, hc, Scopes.texts], by simpa [Draft.openSection, hc] using ho,
    absurd hc, hl, n + 1, congrArg (· + 1) hcl, ?_⟩
  simp only [State.height_eq, Scopes.texts, List.length_cons] at hh hop ⊢
  omega

theorem extend_of_some {c : Capture} (h : Within base name d s) (hb : base.SectionInside)
    (hc : d.capture = some c) (parent : String) :
    (Run.extend parent).run s = .error (.misplaced (.extendInside parent c.name)) s := by
  simp [Run.run_extend, h.ownSection? hb, hc]

theorem beginSection (h : Within base name d s) (hs : s.openSection = none) (n : String) :
    ∃ s', (Run.beginSection n).run s = .ok () s' ∧
      Within base name { d with capture := some ⟨n, ""⟩ } s' ∧ s'.shared = s.shared := by
  have hc : d.capture = none := by
    cases hc : d.capture with
    | none => rfl
    | some c => simp [h.openSection_of_some hc] at hs
  refine ⟨_, State.beginSection_of_none hs n, ?_, rfl⟩
  have hh := h.height_of_none hc
  have ho := h.openSection_of_none hc
  have htexts := h.texts
  obtain ⟨-, -, -, hl, k, hcl, hop⟩ := h
  refine ⟨?_, by simp [Draft.openSection, hh], fun _ => ho.symm.trans hs, hl, k, hcl, ?_⟩
  · simpa [Draft.texts, hc, Scopes.texts, Scopes.push] using htexts
  · simp only [State.height_eq, Scopes.texts, Scopes.push, List.length_cons] at hop ⊢
    omega

theorem close {c : Capture} (h : Within base name d s) (hc : d.capture = some c) :
    ∃ s', Run.close.run s = .ok (s.mergedContent c.name c.text) s' ∧
      Within base name ⟨d.output ++ s.mergedContent c.name c.text, none⟩ s' ∧
      s'.shared = { s.shared with
        sections := s.sections.insert c.name (s.mergedContent c.name c.text) } := by
  have hh := h.height_of_some hc
  have hown : (⟨c.name, base.height + 1⟩ : OpenSection).scope + 1 = s.height := hh.symm
  refine ⟨_, State.close_of_own (h.openSection_of_some hc) hown (h.scopes_of_some hc), ?_, rfl⟩
  obtain ⟨-, -, hcap, hl, k, hcl, hop⟩ := h
  refine ⟨rfl, (hcap (by simp [hc])).symm, absurd rfl, hl, k + 1, congrArg (· + 1) hcl, ?_⟩
  simp only [State.height_eq, Scopes.texts, List.length_cons] at hh hop ⊢
  omega

theorem close_of_none (h : Within base name d s) (hb : base.SectionInside)
    (hc : d.capture = none) :
    Run.close.run s = .error (.misplaced (match base.openSection with
      | some o => .foreignClose o.name
      | none => .notOpen)) s := by
  have ho := h.openSection_of_none hc
  cases hbo : base.openSection with
  | none => exact State.close_of_none (ho.trans hbo)
  | some o =>
    have := hb o hbo
    have hh := h.height_of_none hc
    exact State.close_of_foreign (ho.trans hbo) (by omega)

/-! ### The end of a template -/

/-- A template that captures no section gives its output when its scope is closed. -/
theorem closeScope (h : Within base name d s) (hc : d.capture = none) :
    ∃ s', s.leave.closeScope = (d.output, s') ∧ SameFrame base s' ∧ s'.shared = s.shared := by
  have hs : s.leave.scopes = ⟨d.output, base.scopes.top :: base.scopes.below⟩ := h.scopes_of_none hc
  have hh := h.height_of_none hc
  have ho := h.openSection_of_none hc
  have hleave := h.leave_loading
  obtain ⟨-, -, -, -, k, hcl, hop⟩ := h
  refine ⟨_, State.closeScope_of_below hs, ?_, rfl⟩
  refine ⟨rfl, ho, hleave, k + 1, ?_, congrArg (· + 1) hcl⟩
  simp only [State.leave]
  omega

/-- Unwinding drops what the template has written and leaves the frame as it was. -/
theorem unwind (h : Within base name d s) (hb : base.SectionInside) :
    SameFrame base (s.leave.unwind base.height) := by
  have hn : s.leave.height - base.height = d.texts.length := by
    rw [show s.leave.height = s.height from rfl, h.height, Nat.add_sub_cancel]
  have hh := h.height
  rw [State.unwind, hn, State.closeScopes_of_texts (s := s.leave) h.texts]
  have ho : s.openSection.filter (fun o => o.scope < base.height) = base.openSection := by
    cases hc : d.capture with
    | none =>
      rw [h.openSection_of_none hc]
      cases hbo : base.openSection with
      | none => rfl
      | some o => exact Option.filter_some_pos (by simpa using hb o hbo)
    | some c =>
      rw [h.openSection_of_some hc, h.capture (by simp [hc])]
      exact Option.filter_some_neg (by simp)
  have hleave := h.leave_loading
  obtain ⟨-, -, -, -, k, hcl, hop⟩ := h
  refine ⟨rfl, ho, hleave, k + d.texts.length, ?_, ?_⟩
  · simp only [State.leave]
    omega
  · simp only [State.leave]
    omega

end Within

/-- A template run in a scope of its own leaves the frame as it was. -/
theorem sameFrame_framed {base : State} {name : String} {run : Run Unit}
    (hb : base.SectionInside)
    (h : ∃ d, Within base name d (finalState (run.run (base.enter name)))) :
    SameFrame base (finalState ((Run.framed name run).run base)) := by
  obtain ⟨d, h⟩ := h
  rw [Run.run_framed]
  generalize run.run (base.enter name) = r at h
  cases r with
  | error e s => exact h.unwind hb
  | ok _ s =>
    have hun : s.unclosed? base.height = _ := Within.unclosed? h hb
    simp only [hun]
    cases hc : d.capture with
    | none =>
      obtain ⟨s', hs', hsame, -⟩ := Within.closeScope h hc
      have hs' : s.leave.closeScope = (d.output, s') := hs'
      simpa only [Option.map_none, hs', finalState_ok] using hsame
    | some c => exact h.unwind hb

end ViewTemplates.Render
