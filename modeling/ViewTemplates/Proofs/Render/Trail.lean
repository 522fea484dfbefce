import ViewTemplates.Render.Effects
import ViewTemplates.Proofs.Render.Moments

/-!
# The trail of a template

A relation between a moment and the next, given for the single calls of a template, holds along all
moments of the template. `Trail P key R` lists what this needs. `P` is a property of the
states of a running template that its calls keep; `key` is the part of a state that `R` reads. What
a step does after the last moment of its call, such as writing the output of a load or noting a
result, leaves the key as it is; so the moments of a call lead to *every* state with the key of the
state that the call ends in. That the loads among the calls do the same is a premise (`LoadsLead`).

The moments of a template then lead to the state in which it ends (`Trail.templateLeads`), by
induction on its body or program.
-/

set_option autoImplicit false

namespace ViewTemplates.Render

open Markup

/-! ## The moments of single calls -/

namespace State

variable {s s' : State} {e : Fault}

theorem closeMoments_of_ok {content : String} (h : Run.close.run s = .ok content s') :
    s.closeMoments = [.closing s] := by
  obtain ⟨o, scopes, closed, ho, hscope, -, -⟩ := close_effect h
  exact if_neg fun hown => ownSection?_eq_none.1 hown o ho hscope

theorem closeMoments_of_error (h : Run.close.run s = .error e s') : s.closeMoments = [] := by
  refine if_pos (ownSection?_eq_none.2 fun o ho hscope => ?_)
  rw [Run.run_close, ho] at h
  simp only [hscope, ↓reduceIte] at h
  cases h

theorem extendMoments_of_error {parent : String} (h : (Run.extend parent).run s = .error e s') :
    s.extendMoments parent = [] := by
  refine if_neg fun ⟨hown, _⟩ => ?_
  rw [Run.run_extend, hown] at h
  cases h

theorem mem_extendMoments {parent : String} {n : Moment} (h : n ∈ s.extendMoments parent) :
    n = .closing { s with parent := some parent } := by
  unfold extendMoments at h
  split at h
  · exact List.mem_singleton.1 h
  · cases h

end State

/-- Moments of one key lead to each other, if `R` relates them. -/
theorem Leads.of_forall {R : Moment → Moment → Prop} {Q : Moment → Prop} {s t : State}
    {ms : List Moment} (hR : ∀ m n, Q m → Q n → R m n) (hs : Q (.between s))
    (hms : ∀ n ∈ ms, Q n) (ht : Q (.between t)) : Leads R s (ms ++ [.between t]) t := by
  have hall : ∀ n ∈ Moment.between s :: (ms ++ [.between t]), Q n := by
    simp only [List.mem_cons, List.mem_append, List.not_mem_nil, or_false]
    rintro n (rfl | hn | rfl)
    exacts [hs, hms n hn, ht]
  refine ⟨List.isChain_iff_forall_rel_of_append_cons_cons.2 fun m n before after heq => ?_,
    .between s :: ms, rfl⟩
  rw [heq] at hall
  exact hR m n (hall m (by simp)) (hall n (by simp))

/-! ## Templates -/

section
variable {κ : Type} {P : State → Prop} {key : State → κ}
  {R : Moment → Moment → Prop} {loader : String → Run String}
  {inner : String → State → List Moment}

/-- The calls of a template keep the property, and their moments are related. -/
structure Trail (P : State → Prop) (key : State → κ) (R : Moment → Moment → Prop) : Prop
    extends KeptByCalls P where
  key_write : ∀ s text, key (s.write text) = key s
  key_note : ∀ s template index result, key (s.record (.called template index result)) = key s
  same : ∀ s t, P s → P t → key t = key s → R (.between s) (.between t)
  began : ∀ s s' t name, (Run.beginSection name).run s = .ok () s' → P s → P t →
    key t = key s' → R (.between s) (.between t)
  extended : ∀ s s' t parent, (Run.extend parent).run s = .ok () s' → P s → P t →
    key t = key s' → Leads R s (s.extendMoments parent ++ [.between t]) t
  ended : ∀ s s' t content, Run.close.run s = .ok content s' → P s → P t →
    key t = key s' → Leads R s (s.closeMoments ++ [.between t]) t

/-- The moments of a load lead to every state with the key of the state that it ends in. -/
def LoadsLead (P : State → Prop) (key : State → κ) (R : Moment → Moment → Prop)
    (loader : String → Run String) (inner : String → State → List Moment) : Prop :=
  ∀ name s t, P s → P t → key t = key (finalState ((loader name).run s)) →
    Leads R s (inner name s ++ [.between t]) t

namespace Trail

variable (h : Trail P key R) (hl : ∀ name, Keeps P (loader name))
  (hi : LoadsLead P key R loader inner) {s t : State}
include h

theorem stay (hs : P s) (ht : P t) (hk : key t = key s) : Leads R s [.between t] t :=
  .step (h.same s t hs ht hk)

theorem closeLeads (hs : P s) (ht : P t) (hk : key t = key (finalState (Run.close.run s))) :
    Leads R s (s.closeMoments ++ [.between t]) t := by
  cases hc : Run.close.run s with
  | error e s' =>
    rw [hc, Run.atomic_close hc] at hk
    rw [State.closeMoments_of_error hc]
    exact h.stay hs ht hk
  | ok content s' =>
    rw [hc] at hk
    exact h.ended s s' t content hc hs ht hk

theorem extendLeads {parent : String} (hs : P s) (ht : P t)
    (hk : key t = key (finalState ((Run.extend parent).run s))) :
    Leads R s (s.extendMoments parent ++ [.between t]) t := by
  cases he : (Run.extend parent).run s with
  | error e s' =>
    rw [he, Run.atomic_extend parent he] at hk
    rw [State.extendMoments_of_error he]
    exact h.stay hs ht hk
  | ok _ s' =>
    rw [he] at hk
    exact h.extended s s' t parent he hs ht hk

theorem beginLeads {name : String} (hs : P s) (ht : P t)
    (hk : key t = key (finalState ((Run.beginSection name).run s))) :
    Leads R s [.between t] t := by
  cases hb : (Run.beginSection name).run s with
  | error e s' =>
    rw [hb, Run.atomic_beginSection name hb] at hk
    exact h.stay hs ht hk
  | ok _ s' =>
    rw [hb] at hk
    exact .step (h.began s s' t name hb hs ht hk)

include hi

theorem nodeLeads (fields : Fields) {node : Node} (hs : P s) (ht : P t)
    (hk : key t = key (finalState ((runNode loader fields node).run s))) :
    Leads R s (nodeMoments inner node s ++ [.between t]) t := by
  cases node with
  | comment => exact h.stay hs ht hk
  | text | field | showSection => exact h.stay hs ht (hk.trans (h.key_write s _))
  | extend parent => exact h.extendLeads hs ht hk
  | beginSection name => exact h.beginLeads hs ht hk
  | close =>
    refine h.closeLeads hs ht (hk.trans ?_)
    rw [runNode_close, EStateM.run_bind]
    cases Run.close.run s <;> rfl
  | includePartial name =>
    refine hi name s t hs ht (hk.trans ?_)
    rw [runNode, EStateM.run_bind]
    cases (loader name).run s with
    | error e s' => rfl
    | ok output s' => exact h.key_write s' output

include hl

theorem bodyLeads (fields : Fields) (body : Body) (hs : P s) :
    Leads R s (bodyMoments loader inner fields body s)
      (finalState ((runBody loader fields body).run s)) := by
  induction body generalizing s with
  | nil => exact .nil s
  | cons node body ih =>
    have hs' : P (finalState ((runNode loader fields node).run s)) :=
      h.runNode hl node s hs
    have hlead := h.nodeLeads hi fields hs hs' rfl
    rw [bodyMoments, runBody, EStateM.run_bind]
    cases hr : (runNode loader fields node).run s with
    | error e s' =>
      rw [hr] at hlead
      exact hlead
    | ok _ s' =>
      rw [hr] at hs' hlead
      simpa using hlead.append (ih hs')

/-- The moments of a call lead to every state `t` in which its result is noted. -/
theorem callLeads (fields : Fields) (call : Call) (hs : P s) (ht : P t)
    (hk : key t = key (finalState ((runCall loader fields call).run s))) :
    Leads R s (callMoments loader inner fields call s ++ [.between t]) t := by
  cases call with
  | node node =>
    refine h.nodeLeads hi fields hs ht (hk.trans ?_)
    rw [runCall, EStateM.run_bind]
    cases (runNode loader fields node).run s <;> rfl
  | close =>
    refine h.closeLeads hs ht (hk.trans ?_)
    rw [runCall, EStateM.run_bind]
    cases Run.close.run s <;> rfl
  | load name =>
    refine hi name s t hs ht (hk.trans ?_)
    rw [runCall, EStateM.run_bind]
    cases (loader name).run s <;> rfl
  | sectionContent | field | fields | currentTemplate | scopeCounts | fail => exact h.stay hs ht hk
  | execute name text =>
    cases hb : Body.ofText name text with
    | error e =>
      rw [runCall, hb] at hk
      rw [callMoments, hb]
      exact h.stay hs ht hk
    | ok body =>
      have hlead := h.bodyLeads hl hi fields body hs
      have hs' : P (finalState ((runBody loader fields body).run s)) := h.runBody hl body s hs
      have hk' : key t = key (finalState ((runBody loader fields body).run s)) := by
        rw [hk, runCall, hb]
        simp only [EStateM.run_bind]
        cases (runBody loader fields body).run s <;> rfl
      rw [callMoments, hb]
      exact hlead.append (h.stay hs' ht hk')

theorem programLeads (fields : Fields) {template : String} {index : Nat} (program : Program)
    (hs : P s) :
    Leads R s (programMoments loader inner fields template index program s)
      (finalState ((runProgram loader fields template index program).run s)) := by
  induction program generalizing s index with
  | done | fail => exact .nil s
  | call call next ih =>
    have hs' : P (noted loader fields template index call s) :=
      h.tryCall hl template index call s hs
    have hlead := h.callLeads hl hi fields call hs hs' (h.key_note _ _ _ _)
    rw [programMoments, run_runProgram_call]
    simpa using hlead.append (ih _ hs')

theorem templateLeads (fields : Fields) (name : String) (template : Template) (hs : P s) :
    Leads R s (templateMoments loader inner fields name template s)
      (finalState ((runTemplate loader fields name template).run s)) := by
  cases template with
  | directives body => exact h.bodyLeads hl hi fields body hs
  | program program => exact h.programLeads hl hi fields program hs

end Trail

end

end ViewTemplates.Render
