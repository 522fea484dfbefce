import ViewTemplates.Proofs.Render.Locality

/-!
# What an extending view writes is dropped

The output of a view that extends another is dropped, wherever in the view it is written and
wherever the view says that it extends the other. Only what is written in sections can come up
again. `Body.skeleton` leaves out the nodes that do nothing but write outside of the sections of a
body; what is left decides what the view does.

* `render_result_eq`: sources that differ only in what a view writes outside of its sections give
  the same result, if the view extends another and is no partial.

The output of a draft has no part in what a node does besides writing (`unwritten_evalNode`), so a
body and its skeleton end alike but for the output (`unwritten_skeleton`). The view is only loaded
at the outermost level, where its output is not used because there is a view to go on with
(`DifferInView.climbStep_eq`).
-/

set_option autoImplicit false

namespace ViewTemplates

open Markup

/-! ## Skeletons -/

namespace Markup

/-- The node writes, and does nothing else. -/
def Node.onlyWrites : Node → Bool
  | comment | text _ | field _ | showSection _ => true
  | _ => false

/-- How many sections begin with the node. -/
def Node.begins : Node → Nat
  | beginSection _ => 1
  | _ => 0

/-- How many sections end with the node. -/
def Node.ends : Node → Nat
  | close => 1
  | _ => 0

/-- The nodes without those that only write outside of sections, after so many sections have begun
and ended. -/
def Body.skeletonFrom (begun ended : Nat) : Body → Body
  | [] => []
  | node :: body =>
    let rest := skeletonFrom (begun + node.begins) (ended + node.ends) body
    if begun = ended ∧ node.onlyWrites then rest else node :: rest

/-- The nodes of a body without those that only write outside of its sections. -/
def Body.skeleton (body : Body) : Body := skeletonFrom 0 0 body

theorem Body.mem_skeletonFrom {node : Node} (h : node.onlyWrites = false) {body : Body}
    {begun ended : Nat} : node ∈ skeletonFrom begun ended body ↔ node ∈ body := by
  induction body generalizing begun ended with
  | nil => rfl
  | cons n body ih =>
    rw [skeletonFrom]
    split
    · rename_i hn
      have hne : node ≠ n := by
        rintro rfl
        exact absurd hn.2 (by simp [h])
      rw [ih, List.mem_cons, or_iff_right hne]
    · rw [List.mem_cons, List.mem_cons, ih]

theorem Body.mem_skeleton {node : Node} (h : node.onlyWrites = false) {body : Body} :
    node ∈ body.skeleton ↔ node ∈ body :=
  mem_skeletonFrom h

end Markup

namespace Render

open Stackless (evalNode evalBody endDraft)

/-! ## Evaluations without their output -/

/-- What an evaluation gives besides the output of the draft. -/
def unwritten (x : Except Fault (Draft × Shared)) : Except Fault (Option Capture × Shared) :=
  x.map fun (d, k) => (d.capture, k)

theorem cases_of_map_eq {ε α β γ : Type} {f : α → γ} {g : β → γ} {x : Except ε α} {y : Except ε β}
    (h : x.map f = y.map g) :
    (∃ a b, x = .ok a ∧ y = .ok b ∧ f a = g b) ∨ ∃ e, x = .error e ∧ y = .error e := by
  cases x with
  | ok a =>
    cases y with
    | ok b => exact .inl ⟨a, b, rfl, rfl, Except.ok.inj h⟩
    | error => cases h
  | error e =>
    cases y with
    | ok => cases h
    | error e' => exact .inr ⟨e, rfl, congrArg _ (Except.error.inj h).symm⟩

theorem Draft.capture_write (d : Draft) (text : String) :
    (d.write text).capture = d.capture.map fun c => { c with text := c.text ++ text } := by
  cases hc : d.capture <;> simp [write, hc]

/-- How many sections a draft captures. -/
def Draft.captureCount (d : Draft) : Nat := if d.capture.isSome then 1 else 0

theorem Draft.captureCount_write (d : Draft) (text : String) :
    (d.write text).captureCount = d.captureCount := by
  rw [captureCount, captureCount, d.isSome_capture_write]

theorem Draft.capture_eq_none {d : Draft} (h : d.captureCount = 0) : d.capture = none := by
  cases hc : d.capture with
  | none => rfl
  | some c => simp [captureCount, hc] at h

section
variable (spec : Option String → String → Shared → Except Fault (String × Shared))
  (fields : Fields)

/-- What a node does, besides writing to the output, does not depend on the output. -/
theorem unwritten_evalNode (foreign : Option String) {d d' : Draft} {k : Shared} (node : Node)
    (h : d.capture = d'.capture) :
    unwritten (evalNode spec fields foreign node (d, k)) =
      unwritten (evalNode spec fields foreign node (d', k)) := by
  have hopen : d.openName foreign = d'.openName foreign := by rw [Draft.openName, Draft.openName, h]
  cases node with
  | comment => exact congrArg (fun c => Except.ok (c, k)) h
  | text text | field name | showSection name =>
    simp only [evalNode, unwritten, Except.map, Draft.capture_write, h]
  | extend parent => simp only [evalNode, h]
  | beginSection name =>
    simp only [evalNode, hopen]
    cases d'.openName foreign <;> rfl
  | close =>
    simp only [evalNode, h]
    cases d'.capture with
    | some c => rfl
    | none => cases foreign <;> rfl
  | includePartial name =>
    simp only [evalNode, hopen]
    cases spec (d'.openName foreign) name k with
    | error e => rfl
    | ok x => exact congrArg (fun c => Except.ok (c, x.2)) (by simp only [Draft.capture_write, h])

/-- A node that succeeds begins a section if the draft captures none, or ends the one that it
captures, or leaves it. -/
theorem captureCount_evalNode {d d' : Draft} {k k' : Shared} {node : Node}
    (h : evalNode spec fields none node (d, k) = .ok (d', k')) :
    d.captureCount + node.begins = d'.captureCount + node.ends := by
  cases node with
  | comment =>
    cases h
    rfl
  | text | field | showSection =>
    cases h
    exact congrArg (· + 0) (d.captureCount_write _).symm
  | extend parent =>
    rw [evalNode] at h
    split at h <;> cases h
    rfl
  | beginSection name =>
    rw [evalNode] at h
    cases hc : d.capture with
    | some c =>
      simp only [Draft.openName, hc, Option.map_some, Option.some_or] at h
      cases h
    | none =>
      simp only [Draft.openName, hc, Option.map_none, Option.none_or] at h
      cases h
      simp [Draft.captureCount, hc, Node.begins, Node.ends]
  | close =>
    simp only [evalNode] at h
    split at h
    · rename_i c hc
      cases h
      simp [Draft.captureCount, hc, Node.begins, Node.ends]
    · cases h
  | includePartial name =>
    obtain ⟨x, -, hx⟩ := eq_ok_of_bind h
    cases hx
    exact congrArg (· + 0) (d.captureCount_write _).symm

/-- A node that only writes does not fail, and outside of a section it leaves nothing but its
output. -/
theorem evalNode_of_onlyWrites (foreign : Option String) {d : Draft} {k : Shared} {node : Node}
    (h : node.onlyWrites) (hc : d.capture = none) :
    ∃ d', evalNode spec fields foreign node (d, k) = .ok (d', k) ∧ d'.capture = none := by
  cases node with
  | comment => exact ⟨d, rfl, hc⟩
  | text | field | showSection => exact ⟨_, rfl, by rw [Draft.capture_write, hc, Option.map_none]⟩
  | extend | beginSection | close | includePartial => cases h

/-- The nodes that only write outside of sections change nothing but the output. `begun` and `ended`
count the sections before the body, so the draft captures the difference. -/
theorem unwritten_skeletonFrom {body : Body} {begun ended : Nat} {d d' : Draft} {k : Shared}
    (h : d.capture = d'.capture) (hcount : begun = ended + d.captureCount) :
    unwritten (evalBody spec fields none body (d, k)) =
      unwritten (evalBody spec fields none (body.skeletonFrom begun ended) (d', k)) := by
  induction body generalizing begun ended d d' k with
  | nil => exact congrArg (fun c => Except.ok (c, k)) h
  | cons node body ih =>
    rw [Body.skeletonFrom]
    split
    · rename_i hn
      have hnone : d.capture = none := Draft.capture_eq_none (by omega)
      obtain ⟨e, he, hcapture⟩ := evalNode_of_onlyWrites spec fields none (k := k) hn.2 hnone
      have hstep := captureCount_evalNode spec fields he
      rw [evalBody, he]
      exact ih (hcapture.trans (hnone.symm.trans h)) (by omega)
    · rw [evalBody, evalBody]
      obtain ⟨⟨e, m⟩, ⟨e', m'⟩, he, he', heq⟩ | ⟨fault, he, he'⟩ :=
        cases_of_map_eq (unwritten_evalNode spec fields none node (k := k) h)
      · obtain ⟨hcapture, rfl⟩ := Prod.mk.inj heq
        have hstep := captureCount_evalNode spec fields he
        rw [he, he']
        exact ih hcapture (by omega)
      · rw [he, he']
        rfl

/-- A body gives what its skeleton gives, but for the output. -/
theorem unwritten_skeleton (body : Body) (k : Shared) :
    unwritten (evalBody spec fields none body ({}, k)) =
      unwritten (evalBody spec fields none body.skeleton ({}, k)) :=
  unwritten_skeletonFrom spec fields rfl rfl

theorem unwritten_endDraft (name : String) {x y : Except Fault (Draft × Shared)}
    (h : unwritten x = unwritten y) :
    (x >>= endDraft name).map Prod.snd = (y >>= endDraft name).map Prod.snd := by
  obtain ⟨⟨d, k⟩, ⟨d', k'⟩, rfl, rfl, heq⟩ | ⟨fault, rfl, rfl⟩ := cases_of_map_eq h
  · obtain ⟨hcapture, rfl⟩ := Prod.mk.inj heq
    have hend : ∀ e : Draft, (Except.ok (e, k) >>= endDraft name) = endDraft name (e, k) :=
      fun _ => rfl
    rw [hend, hend, endDraft, endDraft, show d.capture = d'.capture from hcapture]
    cases d'.capture <;> rfl
  · rfl

end

/-! ## Sources that differ in one view -/

/-- What a template asks to extend by itself, it asks to extend with its partials in their
places. -/
theorem Expands.mem_parents {bodies : Bodies} {body flat : Body} {p : String}
    (h : Expands bodies body flat) (hp : .extend p ∈ body) : p ∈ Body.parents flat := by
  induction h with
  | nil => cases hp
  | @plain node body flat _ _ ih =>
    rcases List.mem_cons.1 hp with rfl | hp
    · exact Body.mem_parents.2 List.mem_cons_self
    · exact Body.mem_parents.2 (List.mem_cons_of_mem _ (Body.mem_parents.1 (ih hp)))
  | @includePartial name inner innerFlat body flat _ _ _ _ ih =>
    have hp : Node.extend p ∈ body := (List.mem_cons.1 hp).resolve_left nofun
    rw [Body.parents, List.filterMap_append]
    exact List.mem_append_right _ (ih hp)

/-- The sources differ only in the view `t`, which is `body` in one and `body'` in the other. It
extends another view, and no template includes it. -/
structure DifferInView (bodies bodies' : Bodies) (t : String) (body body' : Body) : Prop where
  same : ∀ name, name ≠ t → bodies' name = bodies name
  view : bodies t = .ok body
  view' : bodies' t = .ok body'
  parent : ∃ p, .extend p ∈ body
  notIncluded : ∀ name inner, bodies name = .ok inner → .includePartial t ∉ inner
  notIncluded' : .includePartial t ∉ body'

namespace DifferInView

variable {bodies bodies' : Bodies} {t : String} {body body' : Body}
  (h : DifferInView bodies bodies' t body body') (fields : Fields) (maxDepth : Nat)
include h

/-- The templates other than `t` do not come to load `t`, so they give the same. -/
theorem load_eq (depth : Nat) (foreign : Option String) {name : String} (hname : name ≠ t)
    (k : Shared) :
    Stackless.load bodies fields maxDepth depth foreign name k =
      Stackless.load bodies' fields maxDepth depth foreign name k :=
  load_congr (fun n (hn : n ∈ {n | n ≠ t}) => (h.same n hn).symm)
    (fun n _ inner hb _ hp hpt => h.notIncluded n inner hb (hpt ▸ hp)) fields maxDepth depth foreign
    hname k

/-- After `t` there is a view to go on with. -/
theorem exists_parent {k k' : Shared} {output : String}
    (hl : Stackless.load bodies fields maxDepth 0 none t k = .ok (output, k')) :
    ∃ p, k'.parent = some p := by
  obtain ⟨p, hp⟩ := h.parent
  obtain ⟨found, flat, hfound, hexpands, hparent⟩ := parent_load hl
  cases h.view.symm.trans hfound
  have hne : Body.parents flat ≠ [] := List.ne_nil_of_mem (hexpands.mem_parents hp)
  rw [hparent, List.getLast?_eq_some_getLast hne]
  exact ⟨_, rfl⟩

section
variable (hunwritten : ∀ k,
  unwritten (evalBody (Stackless.load bodies fields maxDepth 1) fields none body ({}, k)) =
    unwritten (evalBody (Stackless.load bodies fields maxDepth 1) fields none body' ({}, k)))
include hunwritten

/-- At the outermost level `t` leaves the same sections and the same view to be extended. -/
theorem map_load_eq (k : Shared) :
    (Stackless.load bodies fields maxDepth 0 none t k).map Prod.snd =
      (Stackless.load bodies' fields maxDepth 0 none t k).map Prod.snd := by
  rw [Stackless.load, Stackless.load]
  by_cases hd : 0 < maxDepth
  · rw [dif_pos hd, dif_pos hd, h.view, h.view']
    refine unwritten_endDraft t ((hunwritten k).trans ?_)
    refine congrArg unwritten (evalBody_congr none (fun p hp foreign k => ?_) ({}, k))
    refine h.load_eq fields maxDepth 1 foreign ?_ k
    rintro rfl
    exact h.notIncluded' hp
  · rw [dif_neg hd, dif_neg hd]

theorem climbStep_eq (x : Stackless.Climb) :
    Stackless.climbStep bodies fields maxDepth x =
      Stackless.climbStep bodies' fields maxDepth x := by
  rw [Stackless.climbStep, Stackless.climbStep]
  by_cases hname : x.name = t
  · rw [hname]
    obtain ⟨⟨output, k⟩, ⟨output', k'⟩, hl, hl', heq⟩ | ⟨e, hl, hl'⟩ :=
      cases_of_map_eq (h.map_load_eq fields maxDepth hunwritten x.shared)
    · obtain rfl : k = k' := heq
      obtain ⟨p, hp⟩ := h.exists_parent fields maxDepth hl
      -- the outputs differ, but with a view to go on with they are not used
      simp only [hl, hl', hp]
    · rw [hl, hl']
  · rw [h.load_eq fields maxDepth 0 none hname]

end

end DifferInView

/-- The sources differ only in what the view `t` writes outside of its sections. It extends another
view, and no template includes it. -/
structure DifferInOutput (bodies bodies' : Bodies) (t : String) : Prop where
  same : ∀ name, name ≠ t → bodies' name = bodies name
  view : ∃ body body', bodies t = .ok body ∧ bodies' t = .ok body' ∧
    body.skeleton = body'.skeleton ∧ ∃ p, .extend p ∈ body
  notIncluded : ∀ name body, bodies name = .ok body → .includePartial t ∉ body

theorem DifferInOutput.climbStep_eq {bodies bodies' : Bodies} {t : String}
    (h : DifferInOutput bodies bodies' t) (fields : Fields) (maxDepth : Nat)
    (x : Stackless.Climb) :
    Stackless.climbStep bodies fields maxDepth x =
      Stackless.climbStep bodies' fields maxDepth x := by
  obtain ⟨body, body', hb, hb', hskeleton, hparent⟩ := h.view
  have hnot : .includePartial t ∉ body' := by
    rw [← Body.mem_skeleton rfl, ← hskeleton, Body.mem_skeleton rfl]
    exact h.notIncluded t body hb
  have hview : DifferInView bodies bodies' t body body' :=
    ⟨h.same, hb, hb', hparent, h.notIncluded, hnot⟩
  refine hview.climbStep_eq fields maxDepth (fun k => ?_) x
  rw [unwritten_skeleton, hskeleton, ← unwritten_skeleton]

/-! ## Renders -/

/-- What a view that extends another writes outside of its sections has no part in any result. -/
theorem render_result_eq {store store' : Store} {bodies bodies' : Bodies} {t : String}
    (hs : store.HasBodies bodies) (hs' : store'.HasBodies bodies')
    (h : DifferInOutput bodies bodies' t) (fields : Fields) (maxDepth : Nat) (view : String) :
    result ⟨store, fields, maxDepth⟩ view = result ⟨store', fields, maxDepth⟩ view := by
  have hsteps : Stackless.climbStep bodies fields maxDepth =
      Stackless.climbStep bodies' fields maxDepth := funext (h.climbStep_eq fields maxDepth)
  exact result_eq_of_climbStep_eq hs hs' fields maxDepth hsteps view

/-- A page that writes around its section and its extension, and includes a note. -/
def wordyTemplates : List (String × Body) :=
  [("page", [.text "a", .beginSection "body", .text "hello", .close, .showSection "body",
      .extend "layout", .includePartial "note", .field "name"]),
    ("note", [.text "b"]), ("layout", [.text "<", .showSection "body", .text ">"])]

/-- The same without these words. -/
def terseTemplates : List (String × Body) :=
  [("page", [.beginSection "body", .text "hello", .close, .extend "layout",
      .includePartial "note"]),
    ("note", [.text "b"]), ("layout", [.text "<", .showSection "body", .text ">"])]

theorem render_result_eq_wordy :
    let store := (MemoryStore.ofBodies wordyTemplates).toStore
    let store' := (MemoryStore.ofBodies terseTemplates).toStore
    store.HasBodies (.ofList wordyTemplates) ∧ store'.HasBodies (.ofList terseTemplates) ∧
      DifferInOutput (.ofList wordyTemplates) (.ofList terseTemplates) "page" ∧
      result ⟨store, ∅, 2⟩ "page" = some (.ok "<hello>") ∧
      result ⟨store, ∅, 2⟩ "page" = result ⟨store', ∅, 2⟩ "page" := by
  intro store store'
  have hs : store.HasBodies (.ofList wordyTemplates) := MemoryStore.ofBodies_hasBodies _
  have hs' : store'.HasBodies (.ofList terseTemplates) := MemoryStore.ofBodies_hasBodies _
  have h : DifferInOutput (.ofList wordyTemplates) (.ofList terseTemplates) "page" := by
    refine ⟨fun name hname => ?_, ⟨_, _, rfl, rfl, by decide, "layout", by decide⟩,
      fun name body hb => ?_⟩
    · have hne : (name == "page") = false := beq_false_of_ne hname
      simp [Bodies.ofList, wordyTemplates, terseTemplates, List.lookup_cons, hne]
    · have hmem := Bodies.mem_of_ofList_eq_ok hb
      simp only [wordyTemplates, List.mem_cons, Prod.mk.injEq, List.not_mem_nil, or_false] at hmem
      rcases hmem with ⟨-, rfl⟩ | ⟨-, rfl⟩ | ⟨-, rfl⟩ <;> decide
  have hrender : result ⟨store, ∅, 2⟩ "page" = some (.ok "<hello>") := by
    rw [result, render, climb_of_parent rfl rfl (by decide), climb_of_page rfl rfl]
    rfl
  exact ⟨hs, hs', h, hrender, render_result_eq hs hs' h ∅ 2 "page"⟩

end Render

end ViewTemplates
