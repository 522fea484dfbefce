import ViewTemplates.Proofs.Render.Balance
import ViewTemplates.Proofs.Render.Discard
import ViewTemplates.Proofs.Render.Locality

/-!
# Partials stand for their nodes

A partial runs in a scope of its own, one level deeper than the template that includes it. If its
body does not extend a view, then nothing of that shows in the end: the nodes of the body, run in
its place, leave the same scopes and texts, the same sections, the same open section and the same
view to be extended.

* `Inlined s d t`: without a scope of its own, a body begun in the state `s` has written the draft
  `d` in the state `t`. Each node that can be evaluated in a template of its own can be run so
  (`runNode_inlined`).
* `Draft.include`: the same without a stack, as an operation on drafts (`evalBody_include`).
* `partial_transparent`: a partial that succeeds can be replaced by its nodes, in every state of a
  render and in the source of a page.

Evaluations that succeed do not change with more room or with templates that give more
(`evalBody_of_le`, `load_of_deeper`).
-/

set_option autoImplicit false

namespace ViewTemplates.Render

open Markup
open Stackless (evalNode evalBody endDraft)

/-! ## Evaluations with more room -/

section
variable {spec spec' : Option String → String → Shared → Except Fault (String × Shared)}
  {fields : Fields} {foreign : Option String}

theorem evalNode_of_le {node : Node} {x y : Draft × Shared}
    (hle : ∀ p, node = .includePartial p →
      ∀ foreign k z, spec foreign p k = .ok z → spec' foreign p k = .ok z)
    (h : evalNode spec fields foreign node x = .ok y) :
    evalNode spec' fields foreign node x = .ok y := by
  obtain ⟨d, k⟩ := x
  cases node with
  | includePartial p =>
    obtain ⟨z, hz, hy⟩ := eq_ok_of_bind h
    rw [evalNode, hle p rfl _ _ _ hz]
    exact hy
  | comment | text | field | extend | beginSection | close | showSection => exact h

/-- A body that can be evaluated gives the same where the loads of its partials that succeed give
the same. -/
theorem evalBody_of_le {body : Body} {x y : Draft × Shared}
    (hle : ∀ p, .includePartial p ∈ body →
      ∀ foreign k z, spec foreign p k = .ok z → spec' foreign p k = .ok z)
    (h : evalBody spec fields foreign body x = .ok y) :
    evalBody spec' fields foreign body x = .ok y := by
  induction body generalizing x with
  | nil => exact h
  | cons node body ih =>
    obtain ⟨z, hz, hy⟩ := eq_ok_of_bind h
    rw [evalBody, evalNode_of_le (fun p hp => hle p (by simp [hp])) hz]
    exact ih (fun p hp => hle p (by simp [hp])) hy

end

section
variable {bodies : Bodies} {fields : Fields} {maxDepth depth : Nat} {foreign : Option String}
  {name : String} {k : Shared}

theorem load_of_evalBody {output : String} {k' : Shared} {body : Body} (hd : depth < maxDepth)
    (hb : bodies name = .ok body)
    (h : evalBody (Stackless.load bodies fields maxDepth (depth + 1)) fields foreign body ({}, k) =
      .ok (⟨output, none⟩, k')) :
    Stackless.load bodies fields maxDepth depth foreign name k = .ok (output, k') := by
  rw [Stackless.load, dif_pos hd, hb]
  show (evalBody _ _ _ _ _ >>= endDraft name) = _
  rw [h]
  rfl

/-- What can be loaded one level deeper can be loaded here. -/
theorem load_of_deeper {x : String × Shared}
    (h : Stackless.load bodies fields maxDepth (depth + 1) foreign name k = .ok x) :
    Stackless.load bodies fields maxDepth depth foreign name k = .ok x := by
  induction hn : maxDepth - depth using Nat.strongRecOn generalizing depth foreign name k x with
  | ind n ih =>
    obtain ⟨hd, body, hb, hbody⟩ := exists_evalBody_of_load h
    refine load_of_evalBody (by omega) hb (evalBody_of_le (fun p _ foreign k x hx => ?_) hbody)
    exact ih _ (by omega) hx rfl

end

/-! ## Without a stack -/

/-- A draft with another one written in its place, whose section it then captures. -/
def Draft.include (d e : Draft) : Draft :=
  match e.capture with
  | none => d.write e.output
  | some c => ⟨d.output ++ e.output, some c⟩

namespace Draft

theorem write_empty (d : Draft) : d.write "" = d := by
  obtain ⟨output, capture⟩ := d
  cases capture <;> simp [write]

theorem write_write (d : Draft) (a b : String) : (d.write a).write b = d.write (a ++ b) := by
  obtain ⟨output, capture⟩ := d
  cases capture <;> simp [write, String.append_assoc]

theorem include_of_none {d e : Draft} (h : e.capture = none) : d.include e = d.write e.output := by
  rw [Draft.include, h]

theorem include_of_some {d e : Draft} {c : Capture} (h : e.capture = some c) :
    d.include e = ⟨d.output ++ e.output, some c⟩ := by
  rw [Draft.include, h]

theorem include_write (d e : Draft) (text : String) :
    d.include (e.write text) = (d.include e).write text := by
  obtain ⟨output, capture⟩ := e
  cases capture with
  | none => exact (d.write_write output text).symm
  | some c => rfl

/-- The section that is open in the included draft is open in the whole. -/
theorem openName_include (d e : Draft) (foreign : Option String) :
    (d.include e).openName foreign = e.openName (d.openName foreign) := by
  obtain ⟨output, capture⟩ := e
  cases capture with
  | none =>
    show (d.write output).openName foreign = d.openName foreign
    rw [openName, capture_write, openName]
    cases d.capture <;> rfl
  | some c => rfl

end Draft

section
variable {spec : Option String → String → Shared → Except Fault (String × Shared)}
  {fields : Fields} {foreign : Option String} {d e e' : Draft} {k k' : Shared}

/-- The draft that is included captures a section only where no section is open around it. -/
def Draft.Fits (d : Draft) (foreign : Option String) (e : Draft) : Prop :=
  e.capture ≠ none → d.openName foreign = none

theorem Draft.capture_eq_none_of_openName {d : Draft} {foreign : Option String}
    (h : d.openName foreign = none) : d.capture = none := by
  cases hc : d.capture with
  | none => rfl
  | some c => simp [Draft.openName, hc] at h

/-- A node that a partial evaluates gives the same in the template that includes it. -/
theorem evalNode_include {node : Node} (hx : node.parent? = none) (hfits : d.Fits foreign e)
    (h : evalNode spec fields (d.openName foreign) node (e, k) = .ok (e', k')) :
    evalNode spec fields foreign node (d.include e, k) = .ok (d.include e', k') ∧
      d.Fits foreign e' := by
  have hwrite : ∀ text, d.Fits foreign (e.write text) := by
    intro text hne
    apply hfits
    intro hnone
    simp [Draft.capture_write, hnone] at hne
  cases node with
  | extend parent => cases hx
  | comment =>
    cases h
    exact ⟨rfl, hfits⟩
  | text | field | showSection =>
    cases h
    exact ⟨by rw [Draft.include_write]; rfl, hwrite _⟩
  | beginSection name =>
    rw [evalNode] at h
    rw [evalNode, Draft.openName_include]
    cases ho : e.openName (d.openName foreign) with
    | some current =>
      rw [ho] at h
      cases h
    | none =>
      rw [ho] at h
      cases h
      have he := Draft.capture_eq_none_of_openName ho
      have hd : d.openName foreign = none := by simpa [Draft.openName, he] using ho
      have hc := Draft.capture_eq_none_of_openName hd
      refine ⟨?_, fun _ => hd⟩
      rw [Draft.include_of_none he]
      simp [Draft.write, hc, Draft.include]
  | close =>
    simp only [evalNode] at h
    cases he : e.capture with
    | none =>
      rw [he] at h
      cases ho : d.openName foreign <;> simp [ho] at h
    | some c =>
      rw [he] at h
      cases h
      have hc := Draft.capture_eq_none_of_openName (hfits (by simp [he]))
      refine ⟨?_, fun hne => absurd rfl hne⟩
      rw [Draft.include_of_some he, Draft.include_of_none rfl]
      simp only [evalNode, Draft.write, hc, String.append_assoc]
  | includePartial p =>
    obtain ⟨⟨output, k₁⟩, hload, hout⟩ := eq_ok_of_bind h
    cases hout
    rw [evalNode, Draft.openName_include, hload, Draft.include_write]
    exact ⟨rfl, hwrite output⟩

/-- A body that a partial evaluates gives the same in the template that includes it. -/
theorem evalBody_include {body : Body} (hx : ∀ node ∈ body, node.parent? = none)
    (hfits : d.Fits foreign e)
    (h : evalBody spec fields (d.openName foreign) body (e, k) = .ok (e', k')) :
    evalBody spec fields foreign body (d.include e, k) = .ok (d.include e', k') := by
  induction body generalizing e k with
  | nil =>
    cases h
    rfl
  | cons node body ih =>
    obtain ⟨⟨e₁, k₁⟩, hnode, hbody⟩ := eq_ok_of_bind h
    obtain ⟨hhead, htail⟩ := List.forall_mem_cons.1 hx
    obtain ⟨hstep, hfits₁⟩ := evalNode_include hhead hfits hnode
    rw [evalBody, hstep]
    exact ih htail hfits₁ hbody

end

/-! ## In a state -/

/-- The scopes with the draft written to them. -/
def Draft.onto (d : Draft) (scopes : Scopes) : Scopes :=
  match d.capture with
  | none => scopes.write d.output
  | some c => ⟨c.text, (scopes.write d.output).texts⟩

/-- Without a scope of its own, a body begun in the state `s` has written `d` in the state `t`. -/
structure Inlined (s : State) (d : Draft) (t : State) : Prop where
  scopes : t.scopes = d.onto s.scopes
  openSection : t.openSection = match d.capture with
    | none => s.openSection
    | some c => some ⟨c.name, s.height⟩
  capture : d.capture ≠ none → s.openSection = none
  loading : t.loading = s.loading

theorem Draft.onto_write (d : Draft) (scopes : Scopes) (text : String) :
    (d.write text).onto scopes = (d.onto scopes).write text := by
  obtain ⟨output, capture⟩ := d
  cases capture with
  | none => exact (scopes.write_write output text).symm
  | some c => rfl

namespace Inlined

variable {s t u : State} {d : Draft}

theorem refl (s : State) : Inlined s {} s where
  scopes := by simp [Draft.onto, Scopes.write]
  openSection := rfl
  capture h := absurd rfl h
  loading := rfl

theorem of_sameFrame (h : Inlined s d t) (hu : SameFrame t u) : Inlined s d u where
  scopes := hu.scopes.trans h.scopes
  openSection := hu.openSection.trans h.openSection
  capture := h.capture
  loading := hu.loading.trans h.loading

theorem scopes_of_none (h : Inlined s d t) (hc : d.capture = none) :
    t.scopes = s.scopes.write d.output := by
  rw [h.scopes, Draft.onto, hc]

theorem scopes_of_some {c : Capture} (h : Inlined s d t) (hc : d.capture = some c) :
    t.scopes = ⟨c.text, (s.scopes.top ++ d.output) :: s.scopes.below⟩ := by
  rw [h.scopes, Draft.onto, hc]
  rfl

theorem openSection_of_none (h : Inlined s d t) (hc : d.capture = none) :
    t.openSection = s.openSection := by
  rw [h.openSection, hc]

theorem openSection_of_some {c : Capture} (h : Inlined s d t) (hc : d.capture = some c) :
    t.openSection = some ⟨c.name, s.height⟩ := by
  rw [h.openSection, hc]

theorem height_of_none (h : Inlined s d t) (hc : d.capture = none) : t.height = s.height := by
  rw [State.height, h.scopes_of_none hc]
  rfl

theorem height_of_some {c : Capture} (h : Inlined s d t) (hc : d.capture = some c) :
    t.height = s.height + 1 := by
  rw [State.height, h.scopes_of_some hc]
  rfl

theorem openName (h : Inlined s d t) : t.openName = d.openName s.openName := by
  cases hc : d.capture with
  | none => rw [State.openName, h.openSection_of_none hc, Draft.openName, hc]; rfl
  | some c => rw [State.openName, h.openSection_of_some hc, Draft.openName, hc]; rfl

theorem sectionInside (h : Inlined s d t) (hs : s.SectionInside) : t.SectionInside := by
  intro o ho
  cases hc : d.capture with
  | none =>
    rw [h.openSection_of_none hc] at ho
    rw [h.height_of_none hc]
    exact hs o ho
  | some c =>
    rw [h.openSection_of_some hc, Option.mem_some] at ho
    rw [h.height_of_some hc, ← ho]
    exact Nat.lt_succ_self _

theorem write (h : Inlined s d t) (text : String) : Inlined s (d.write text) (t.write text) where
  scopes := by
    rw [Draft.onto_write, ← h.scopes]
    rfl
  openSection := by
    rw [Draft.capture_write]
    cases hc : d.capture with
    | none => exact h.openSection_of_none hc
    | some c =>
      show t.openSection = some ⟨c.name, s.height⟩
      exact h.openSection_of_some hc
  capture hne := h.capture fun hnone => hne (by rw [Draft.capture_write, hnone]; rfl)
  loading := h.loading

theorem beginSection (h : Inlined s d t) (ho : t.openSection = none) (name : String) :
    ∃ t', (Run.beginSection name).run t = .ok () t' ∧
      Inlined s { d with capture := some ⟨name, ""⟩ } t' ∧ t'.shared = t.shared := by
  have hc : d.capture = none := by
    cases hc : d.capture with
    | none => rfl
    | some c => simp [h.openSection_of_some hc] at ho
  refine ⟨_, State.beginSection_of_none ho name, ⟨?_, ?_, ?_, h.loading⟩, rfl⟩
  · rw [h.scopes_of_none hc]
    rfl
  · rw [h.height_of_none hc]
  · intro _
    exact (h.openSection_of_none hc).symm.trans ho

theorem close {c : Capture} (h : Inlined s d t) (hc : d.capture = some c) :
    ∃ t', Run.close.run t = .ok (t.mergedContent c.name c.text) t' ∧
      Inlined s ⟨d.output ++ t.mergedContent c.name c.text, none⟩ t' ∧
      t'.shared = { t.shared with
        sections := t.sections.insert c.name (t.mergedContent c.name c.text) } := by
  have hscope : (⟨c.name, s.height⟩ : OpenSection).scope + 1 = t.height :=
    (h.height_of_some hc).symm
  refine ⟨_, State.close_of_own (h.openSection_of_some hc) hscope (h.scopes_of_some hc),
    ⟨?_, ?_, fun hne => absurd rfl hne, h.loading⟩, rfl⟩
  · simp [Draft.onto, Scopes.write, String.append_assoc]
  · exact (h.capture (by simp [hc])).symm

end Inlined

section
variable {loader : String → Run String} {fields : Fields} {s t : State} {d d' : Draft} {k : Shared}
  {spec : Option String → String → Shared → Except Fault (String × Shared)}
  (hs : s.SectionInside)
  (hl : ∀ p t output k, t.SectionInside → t.loading = s.loading →
    spec t.openName p t.shared = .ok (output, k) →
    ∃ t', (loader p).run t = .ok output t' ∧ SameFrame t t' ∧ t'.shared = k)
include hs hl

/-- A node that can be evaluated in a template of its own can be run in the place of the template,
unless it extends a view. -/
theorem runNode_inlined {node : Node} (hx : node.parent? = none) (h : Inlined s d t)
    (hev : evalNode spec fields s.openName node (d, t.shared) = .ok (d', k)) :
    ∃ t', (runNode loader fields node).run t = .ok () t' ∧ Inlined s d' t' ∧ t'.shared = k := by
  cases node with
  | extend parent => cases hx
  | comment =>
    cases hev
    exact ⟨t, rfl, h, rfl⟩
  | text | field | showSection =>
    cases hev
    exact ⟨_, rfl, h.write _, rfl⟩
  | beginSection name =>
    rw [evalNode, ← h.openName] at hev
    cases ho : t.openSection with
    | some o =>
      simp only [State.openName, ho, Option.map_some] at hev
      cases hev
    | none =>
      simp only [State.openName, ho, Option.map_none] at hev
      cases hev
      exact h.beginSection ho name
  | close =>
    simp only [evalNode] at hev
    cases hc : d.capture with
    | none =>
      rw [hc] at hev
      cases ho : s.openName <;> simp [ho] at hev
    | some c =>
      rw [hc] at hev
      cases hev
      obtain ⟨t', hclose, hin, hk⟩ := h.close hc
      refine ⟨t', ?_, hin, hk⟩
      rw [runNode_close, EStateM.run_bind, hclose]
      rfl
  | includePartial p =>
    obtain ⟨⟨output, k₁⟩, hload, hout⟩ := eq_ok_of_bind hev
    cases hout
    rw [← h.openName] at hload
    obtain ⟨t', hrun, hframe, hk⟩ := hl p t output k (h.sectionInside hs) h.loading hload
    refine ⟨t'.write output, ?_, (h.of_sameFrame hframe).write output, hk⟩
    rw [runNode, EStateM.run_bind, hrun]
    rfl

theorem runBody_inlined {body : Body} (hx : ∀ node ∈ body, node.parent? = none)
    (h : Inlined s d t)
    (hev : evalBody spec fields s.openName body (d, t.shared) = .ok (d', k)) :
    ∃ t', (runBody loader fields body).run t = .ok () t' ∧ Inlined s d' t' ∧ t'.shared = k := by
  induction body generalizing d t with
  | nil =>
    cases hev
    exact ⟨t, rfl, h, rfl⟩
  | cons node body ih =>
    obtain ⟨⟨d₁, k₁⟩, hnode, hbody⟩ := eq_ok_of_bind hev
    obtain ⟨hhead, htail⟩ := List.forall_mem_cons.1 hx
    obtain ⟨t₁, hrun₁, hin₁, rfl⟩ := runNode_inlined hs hl hhead h hnode
    obtain ⟨t', hrun, hin, hk⟩ := ih htail hin₁ hbody
    refine ⟨t', ?_, hin, hk⟩
    rw [runBody, EStateM.run_bind, hrun₁]
    exact hrun

end

/-- The states agree except for the counters of scopes and the history. -/
structure SameButCounts (s t : State) : Prop where
  scopes : t.scopes = s.scopes
  sections : t.sections = s.sections
  openSection : t.openSection = s.openSection
  parent : t.parent = s.parent
  loading : t.loading = s.loading

section
variable {setting : Setting} {bodies : Bodies} {s s₁ : State} {p : String} {body : Body}

/-- After a partial that succeeds, the nodes of its body can be run in its place. -/
theorem runBody_of_includePartial (h : setting.store.HasBodies bodies) (hs : s.SectionInside)
    (hb : bodies p = .ok body) (hx : ∀ node ∈ body, node.parent? = none)
    (hrun : (runNode (load setting) setting.fields (.includePartial p)).run s = .ok () s₁) :
    ∃ s₂, (runBody (load setting) setting.fields body).run s = .ok () s₂ ∧
      SameButCounts s₁ s₂ := by
  obtain ⟨output, s', hl, hw⟩ := Run.eq_ok_of_bind hrun
  cases hw
  have hr := load_refines h p hs
  rw [hl] at hr
  obtain ⟨⟨text, k⟩, hload, rfl, hframe, hk⟩ := hr.of_ok
  obtain ⟨-, found, hfound, hev⟩ := exists_evalBody_of_load hload
  cases hb.symm.trans hfound
  -- the loads of the body are made one level less deep than in the partial
  have hloads : ∀ q t text k, t.SectionInside → t.loading = s.loading →
      Stackless.load bodies setting.fields setting.maxDepth (s.loading.length + 1) t.openName q
        t.shared = .ok (text, k) →
      ∃ t', (load setting q).run t = .ok text t' ∧ SameFrame t t' ∧ t'.shared = k := by
    intro q t text k ht htl hq
    have hr := load_refines h q ht
    rw [htl, load_of_deeper hq] at hr
    obtain ⟨_, t', hrun, rfl, hframe, hk⟩ := hr.of_spec_ok
    exact ⟨t', hrun, hframe, hk⟩
  obtain ⟨s₂, hrun₂, hin, hk₂⟩ := runBody_inlined hs hloads hx (.refl s) hev
  refine ⟨s₂, hrun₂, ?_, ?_, ?_, ?_, ?_⟩
  · rw [hin.scopes_of_none rfl, ← hframe.scopes]
    rfl
  · exact congrArg Shared.sections (hk₂.trans hk.symm)
  · exact (hin.openSection_of_none rfl).trans hframe.openSection.symm
  · exact congrArg Shared.parent (hk₂.trans hk.symm)
  · exact hin.loading.trans hframe.loading.symm

end

/-! ## In a source -/

/-- A stretch of the template `t` was moved into the partial `p`. Another template may include `p`
only if it was there before. -/
structure Extracted (bodies bodies' : Bodies) (t p : String) : Prop where
  same : ∀ name, name ≠ t → name ≠ p → bodies' name = bodies name
  known : ∀ name body, bodies name = .ok body → body.Mentions p → bodies' p = bodies p
  moved : ∃ before stretch after, bodies t = .ok (before ++ (stretch ++ after)) ∧
    bodies' t = .ok (before ++ .includePartial p :: after) ∧ bodies' p = .ok stretch ∧
    Body.parents stretch = []

namespace Extracted

variable {bodies bodies' : Bodies} {t p : String} (h : Extracted bodies bodies' t p)
include h

/-- What the template `t` gives with the partial, it gives with the stretch in its place. -/
theorem evalBody_ok {fields : Fields} {maxDepth depth : Nat} {foreign : Option String}
    {body : Body} {x y : Draft × Shared} (hb : bodies t = .ok body)
    (hloads : ∀ q, .includePartial q ∈ body → ∀ foreign k z,
      Stackless.load bodies' fields maxDepth (depth + 1) foreign q k = .ok z →
      Stackless.load bodies fields maxDepth (depth + 1) foreign q k = .ok z)
    {body' : Body} (hb' : bodies' t = .ok body')
    (hev : evalBody (Stackless.load bodies' fields maxDepth (depth + 1)) fields foreign body' x =
      .ok y) :
    evalBody (Stackless.load bodies fields maxDepth (depth + 1)) fields foreign body x = .ok y := by
  obtain ⟨before, stretch, after, ht, ht', hp, hx⟩ := h.moved
  cases hb.symm.trans ht
  cases hb'.symm.trans ht'
  rw [Stackless.evalBody_append] at hev
  obtain ⟨⟨d, k⟩, hbefore, hev⟩ := eq_ok_of_bind hev
  obtain ⟨z, hpartial, hafter⟩ := eq_ok_of_bind hev
  obtain ⟨⟨output, k'⟩, hload, hout⟩ := eq_ok_of_bind hpartial
  cases hout
  obtain ⟨-, found, hfound, hstretch⟩ := exists_evalBody_of_load hload
  cases hp.symm.trans hfound
  have hdeeper := evalBody_of_le (fun q hq foreign k z hz =>
    hloads q (by simp [hq]) foreign k z (load_of_deeper hz)) hstretch
  have hinlined := evalBody_include (Body.parents_eq_nil_iff.1 hx) (fun hne => absurd rfl hne)
    hdeeper
  rw [Draft.include_of_none rfl, Draft.include_of_none rfl, Draft.write_empty] at hinlined
  rw [Stackless.evalBody_append, evalBody_of_le (fun q hq => hloads q (by simp [hq])) hbefore]
  show evalBody _ _ _ (stretch ++ after) (d, k) = _
  rw [Stackless.evalBody_append, hinlined]
  exact evalBody_of_le (fun q hq => hloads q (by simp [hq])) hafter

theorem load_ok {fields : Fields} {maxDepth depth : Nat} {foreign : Option String} {name : String}
    {k : Shared} {x : String × Shared} (hname : name = p → bodies' p = bodies p)
    (hl : Stackless.load bodies' fields maxDepth depth foreign name k = .ok x) :
    Stackless.load bodies fields maxDepth depth foreign name k = .ok x := by
  induction hn : maxDepth - depth using Nat.strongRecOn generalizing depth foreign name k x with
  | ind n ih =>
    obtain ⟨output, k'⟩ := x
    obtain ⟨hd, body', hb', hev⟩ := exists_evalBody_of_load hl
    have hloads : ∀ body, bodies name = .ok body → ∀ q, .includePartial q ∈ body →
        ∀ foreign k z, Stackless.load bodies' fields maxDepth (depth + 1) foreign q k = .ok z →
          Stackless.load bodies fields maxDepth (depth + 1) foreign q k = .ok z := by
      intro body hb q hq foreign k z hz
      refine ih _ (by omega) (fun hqp => ?_) hz rfl
      exact h.known name body hb (.inl (hqp ▸ hq))
    by_cases ht : name = t
    · subst ht
      obtain ⟨before, stretch, after, hb, -⟩ := h.moved
      exact load_of_evalBody hd hb (h.evalBody_ok hb (hloads _ hb) hb' hev)
    · have hb : bodies name = .ok body' := by
        by_cases hp : name = p
        · rw [← hb', hp, hname hp]
        · rw [← hb', h.same name ht hp]
      exact load_of_evalBody hd hb (evalBody_of_le (hloads _ hb) hev)

/-- A render with the partial comes to the partial as a view only if it was there before. -/
theorem known_of_attempt {setting : Setting} (hs : setting.store.HasBodies bodies') {view : String}
    (hv : view = p → bodies' p = bodies p) {names : List String} {s : State}
    (ha : Attempt setting view names s) :
    ∀ name ∈ names, name = p → bodies' p = bodies p := by
  induction ha with
  | view => simpa using hv
  | @parent name parent output chain s s' ha hl hp hnot ih =>
    refine List.forall_mem_cons.2 ⟨?_, ih⟩
    have hload := h.load_ok (ih name (by simp)) (ha.load_eq_ok hs hl)
    obtain ⟨body, flat, hb, hexpands, hparent⟩ := parent_load hload
    have hlast : flat.parents.getLast? = some parent := by
      rw [← Option.or_none (o := flat.parents.getLast?), ← show s.shared.parent = none from
        ha.parent_eq_none, ← hparent]
      exact hp
    have hclosed : ∀ n ∈ {n | n = p → bodies' p = bodies p}, ∀ body, bodies n = .ok body →
        ∀ m, body.Mentions m → m ∈ {n | n = p → bodies' p = bodies p} :=
      fun n _ body hb m hm hmp => h.known n body hb (hmp ▸ hm)
    exact hexpands.parents_mem hclosed (hclosed name (ih name (by simp)) body hb) parent
      (List.mem_of_getLast? hlast)

theorem follows {setting setting' : Setting} (hs' : setting'.store.HasBodies bodies')
    (hfields : setting.fields = setting'.fields) (hmax : setting.maxDepth = setting'.maxDepth)
    {view : String} (hv : view = p → bodies' p = bodies p) :
    Follows setting bodies setting' view := by
  intro name chain s output s' ha hl
  rw [hfields, hmax]
  exact h.load_ok (h.known_of_attempt hs' hv ha name (by simp)) (ha.load_eq_ok hs' hl)

end Extracted

/-! ## Renders -/

section
variable {store : Store} {bodies : Bodies}

/-- A partial that extends no view by itself stands for its nodes. In every state of a render where
it succeeds, its nodes can be run in its place and leave the same state but for the counters. So if
a stretch of a template is moved into a partial and a view then has a page, the view has the same
page with the stretch where it was. The converse fails for a stretch that leaves a section open. -/
theorem partial_transparent (h : store.HasBodies bodies) (fields : Fields) (maxDepth : Nat) :
    let setting : Setting := ⟨store, fields, maxDepth⟩
    (∀ s p body s₁, Reachable setting s → bodies p = .ok body → Body.parents body = [] →
      (runNode (load setting) fields (.includePartial p)).run s = .ok () s₁ →
      ∃ s₂, (runBody (load setting) fields body).run s = .ok () s₂ ∧ SameButCounts s₁ s₂) ∧
    ∀ (store' : Store) (bodies' : Bodies) (t p view page : String),
      store'.HasBodies bodies' → Extracted bodies bodies' t p →
      (view = p → bodies' p = bodies p) →
      result ⟨store', fields, maxDepth⟩ view = some (.ok page) →
      result setting view = some (.ok page) := by
  intro setting
  refine ⟨?_, ?_⟩
  · intro s p body s₁ hs hb hx hrun
    exact runBody_of_includePartial h hs.balanced.sectionInside hb (Body.parents_eq_nil_iff.1 hx)
      hrun
  · intro store' bodies' t p view page h' hmoved hv hpage
    have hfollows : Follows setting bodies ⟨store', fields, maxDepth⟩ view :=
      hmoved.follows h' rfl rfl hv
    exact hfollows.page h hpage

end

/-- A page with a section in which a note stands before some text. -/
def notedTemplates : List (String × Body) :=
  [("page", [.beginSection "body", .includePartial "note", .text "!", .close, .extend "layout"]),
    ("note", [.text "hello"]), ("layout", [.text "-- ", .showSection "body"])]

/-- The same with the note and the text in a partial. -/
def extractedTemplates : List (String × Body) :=
  [("page", [.beginSection "body", .includePartial "cry", .close, .extend "layout"]),
    ("cry", [.includePartial "note", .text "!"]),
    ("note", [.text "hello"]), ("layout", [.text "-- ", .showSection "body"])]

theorem extracted_cry :
    Extracted (.ofList notedTemplates) (.ofList extractedTemplates) "page" "cry" := by
  refine ⟨fun name ht hp => ?_, fun name body hb hm => ?_, [.beginSection "body"],
    [.includePartial "note", .text "!"], [.close, .extend "layout"], rfl, rfl, rfl, rfl⟩
  · have ht : (name == "page") = false := beq_false_of_ne ht
    have hp : (name == "cry") = false := beq_false_of_ne hp
    simp [Bodies.ofList, notedTemplates, extractedTemplates, List.lookup_cons, ht, hp]
  · have hmem := Bodies.mem_of_ofList_eq_ok hb
    simp only [notedTemplates, List.mem_cons, Prod.mk.injEq, List.not_mem_nil, or_false] at hmem
    rcases hmem with ⟨-, rfl⟩ | ⟨-, rfl⟩ | ⟨-, rfl⟩ <;> simp [Body.Mentions] at hm

theorem partial_transparent_noted :
    let store := (MemoryStore.ofBodies notedTemplates).toStore
    let store' := (MemoryStore.ofBodies extractedTemplates).toStore
    let setting : Setting := ⟨store, ∅, 3⟩
    ∃ s s₁ s₂, Reachable setting s ∧ s.openSection = some ⟨"body", 2⟩ ∧
      (runNode (load setting) ∅ (.includePartial "note")).run s = .ok () s₁ ∧
      (runBody (load setting) ∅ [.text "hello"]).run s = .ok () s₂ ∧
      SameButCounts s₁ s₂ ∧
      Extracted (.ofList notedTemplates) (.ofList extractedTemplates) "page" "cry" ∧
      result ⟨store', ∅, 3⟩ "page" = some (.ok "-- hello!") ∧
      result setting "page" = some (.ok "-- hello!") := by
  intro store store' setting
  obtain ⟨hstate, hpage⟩ := partial_transparent (MemoryStore.ofBodies_hasBodies notedTemplates) ∅ 3
  have hreach : Reachable setting _ := ⟨"page", "page", [], {}, .view, .tail _ (.tail _ (.head _))⟩
  obtain ⟨s₂, hrun, hsame⟩ := hstate _ "note" [.text "hello"] _ hreach rfl rfl rfl
  have hrender : result ⟨store', ∅, 3⟩ "page" = some (.ok "-- hello!") := by
    rw [result, render, climb_of_parent rfl rfl (by decide), climb_of_page rfl rfl]
    rfl
  have hview : "page" = "cry" → Bodies.ofList extractedTemplates "cry" =
      Bodies.ofList notedTemplates "cry" := fun h => absurd h (by decide)
  exact ⟨_, _, s₂, hreach, rfl, rfl, hrun, hsame, extracted_cry, hrender,
    hpage store' _ "page" "cry" "page" _ (MemoryStore.ofBodies_hasBodies _) extracted_cry hview
      hrender⟩

end ViewTemplates.Render
