import ViewTemplates.Render.Effects
import ViewTemplates.Proofs.Render.Trail

/-!
# From moment to moment

From a moment to the next the open section stays as it is, ends, or begins, and a section that
begins is captured one scope above the running templates (`SectionStep`). `Passage Q` adds that the
later moment satisfies `Q`.

`Followed P Q` lists what this needs of a property `P` of the states of a running template.
The moments of a template then lead to the state in which it ends (`Followed.templateLeads`). That
the loads among its calls do so is a premise, which `Proofs.Render.Balance` gives by induction on
the levels. Going back along such a chain from a moment with an open section, one comes to the step
in which it began (`exists_opening`).
-/

set_option autoImplicit false

namespace ViewTemplates.Render

open Markup

/-- How the open section can differ between a moment and the next. -/
inductive SectionStep : Moment → Moment → Prop
  | same {m n : Moment} : n.state.openSection = m.state.openSection → SectionStep m n
  | ended {m n : Moment} : n.state.openSection = none → SectionStep m n
  | began {s : State} {n : Moment} {name : String} : s.openSection = none →
      n.state.openSection = some ⟨name, 1 + s.loading.length⟩ → SectionStep (.between s) n

/-- The open section goes on as it can, to a moment that satisfies `Q`. -/
structure Passage (Q : Moment → Prop) (m n : Moment) : Prop where
  target : Q n
  step : SectionStep m n

/-- Moments with the open section of `m`, and then one where it is the same or has ended. -/
theorem isChain_of_same {Q : Moment → Prop} {m : Moment} {ms : List Moment} {t : State}
    (hms : ∀ n ∈ ms, Q n ∧ n.state.openSection = m.state.openSection) (ht : Q (.between t))
    (ho : t.openSection = m.state.openSection ∨ t.openSection = none) :
    List.IsChain (Passage Q) (m :: (ms ++ [.between t])) := by
  induction ms generalizing m with
  | nil => exact .cons_cons ⟨ht, ho.elim (.same ·) (.ended ·)⟩ (.singleton _)
  | cons n ms ih =>
    obtain ⟨⟨hQ, hn⟩, hms⟩ := List.forall_mem_cons.1 hms
    refine .cons_cons ⟨hQ, .same hn⟩ (ih (fun k hk => ?_) (hn ▸ ho))
    exact ⟨(hms k hk).1, (hms k hk).2.trans hn.symm⟩

theorem Leads.of_same {Q : Moment → Prop} {s t : State} {ms : List Moment}
    (hms : ∀ n ∈ ms, Q n ∧ n.state.openSection = s.openSection) (ht : Q (.between t))
    (ho : t.openSection = s.openSection ∨ t.openSection = none) :
    Leads (Passage Q) s (ms ++ [.between t]) t :=
  ⟨isChain_of_same hms ht ho, .between s :: ms, rfl⟩

/-! ## Templates -/

/-- A property of the states of a running template that its calls keep, and from which `Q` follows
for the moments of these calls. -/
structure Followed (P : State → Prop) (Q : Moment → Prop) : Prop extends KeptByCalls P where
  between : ∀ s, P s → Q (.between s)
  closing : ∀ s parent, P s → Q (.closing { s with parent })
  height : ∀ s, P s → s.openSection = none → s.height = 1 + s.loading.length

section
variable {P : State → Prop} {Q : Moment → Prop} {loader : String → Run String}
  {inner : String → State → List Moment}

/-- The moments of the loads lead to the states that they end in. -/
def InnerLeads (P : State → Prop) (Q : Moment → Prop) (loader : String → Run String)
    (inner : String → State → List Moment) : Prop :=
  ∀ name s t, P s → P t →
    t.openSection = (finalState ((loader name).run s)).openSection →
    Leads (Passage Q) s (inner name s ++ [.between t]) t

namespace Followed

variable (h : Followed P Q)
include h

/-- The open section is all that the relation reads of a state. -/
theorem trail : Trail P State.openSection (Passage Q) where
  toKeptByCalls := h.toKeptByCalls
  key_write _ _ := rfl
  key_note _ _ _ _ := rfl
  same s t _ ht ho := ⟨h.between t ht, .same ho⟩
  began s s' t name hb hs ht ho := by
    cases hso : s.openSection with
    | some o => cases (State.beginSection_of_some hso name).symm.trans hb
    | none =>
      cases (State.beginSection_of_none hso name).symm.trans hb
      exact ⟨h.between t ht, .began hso (ho.trans (by rw [← h.height s hs hso]))⟩
  extended s s' t parent he hs ht ho := by
    obtain ⟨scopes, opened, closed, rfl⟩ := State.extend_effect he
    refine .of_same (fun n hn => ?_) (h.between t ht) (.inl ho)
    rw [State.mem_extendMoments hn]
    exact ⟨h.closing s parent hs, rfl⟩
  ended s s' t content hc hs ht ho := by
    rw [State.closeMoments_of_ok hc]
    obtain ⟨o, scopes, closed, -, -, -, rfl⟩ := State.close_effect hc
    refine .of_same (fun n hn => ?_) (h.between t ht) (.inr ho)
    rw [List.mem_singleton.1 hn]
    exact ⟨h.closing s s.parent hs, rfl⟩

theorem templateLeads (hl : ∀ name, Keeps P (loader name)) (hi : InnerLeads P Q loader inner)
    {s : State} (fields : Fields) (name : String) (template : Template) (hs : P s) :
    Leads (Passage Q) s (templateMoments loader inner fields name template s)
      (finalState ((runTemplate loader fields name template).run s)) :=
  h.trail.templateLeads hl hi fields name template hs

end Followed

end

/-! ## Where a section began -/

/-- In a chain of moments that begins without an open section, a section that is open began in a
step of it, one scope above the templates that ran then, and is the same since. -/
theorem exists_opening {m : Moment} {before : List Moment} {o : OpenSection}
    (hchain : List.IsChain SectionStep (before ++ [m]))
    (hfirst : ∀ n ∈ (before ++ [m]).head?, n.state.openSection = none)
    (ho : m.state.openSection = some o) :
    ∃ earlier s since, before ++ [m] = earlier ++ .between s :: since ∧ since ≠ [] ∧
      s.openSection = none ∧ (∀ n ∈ since, n.state.openSection = some o) ∧
      o.scope = 1 + s.loading.length := by
  induction before using List.reverseRecOn generalizing m with
  | nil => simp [ho] at hfirst
  | append_singleton before n ih =>
    rw [List.append_assoc] at hchain hfirst
    obtain ⟨hbefore, hstep, -⟩ := List.isChain_append_cons_cons.1 hchain
    have hfirst' : ∀ k ∈ (before ++ [n]).head?, k.state.openSection = none := by
      cases before <;> simpa using hfirst
    cases hstep with
    | same hsame =>
      obtain ⟨earlier, s, since, heq, -, hs, hall, hscope⟩ := ih hbefore hfirst' (hsame ▸ ho)
      refine ⟨earlier, s, since ++ [m], by simp [heq], by simp, hs, fun k hk => ?_, hscope⟩
      rcases List.mem_append.1 hk with hk | hk
      · exact hall k hk
      · rwa [List.mem_singleton.1 hk]
    | ended hend => simp [ho] at hend
    | @began s _ name hs hm =>
      obtain rfl : o = ⟨name, 1 + s.loading.length⟩ := Option.some.inj (ho.symm.trans hm)
      exact ⟨before, s, [m], by simp, by simp, hs, by simpa using ho, rfl⟩

end ViewTemplates.Render
