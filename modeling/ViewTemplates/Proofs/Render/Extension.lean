import ViewTemplates.Proofs.Render.Discard

/-!
# Where a view says what it extends

That a view extends another drops what the view has written and names the view to go on with. Nodes
that extend no view do not read that name, so their evaluation commutes with naming it
(`evalBody_withParent`). What is dropped is not used either, since there is a view to go on with. So
it does not matter between which nodes the extension stands, outside of the sections.

* `unwritten_extend`: a body with an extension gives what it gives without, but for the output and
  the view to be extended.
* `render_extension_moved`: sources that differ in where one view has its extension give the same
  result.
-/

set_option autoImplicit false

namespace ViewTemplates

open Markup

namespace Markup

/-- How many sections begin in a body. -/
def Body.begins : Body → Nat
  | [] => 0
  | node :: body => node.begins + begins body

/-- How many sections end in a body. -/
def Body.ends : Body → Nat
  | [] => 0
  | node :: body => node.ends + ends body

/-- As many sections begin in the body as end in it. -/
def Body.EndsSections (body : Body) : Prop := body.begins = body.ends

end Markup

namespace Render

open Stackless (evalNode evalBody endDraft)

/-! ## The output -/

section
variable (spec : Option String → String → Shared → Except Fault (String × Shared))
  (fields : Fields)

/-- What a body does, besides writing to the output, does not depend on the output. -/
theorem unwritten_evalBody (foreign : Option String) (body : Body) {d d' : Draft} (k : Shared)
    (h : d.capture = d'.capture) :
    unwritten (evalBody spec fields foreign body (d, k)) =
      unwritten (evalBody spec fields foreign body (d', k)) := by
  induction body generalizing d d' k with
  | nil => exact congrArg (fun c => Except.ok (c, k)) h
  | cons node body ih =>
    rw [evalBody, evalBody]
    rcases cases_of_map_eq (unwritten_evalNode spec fields foreign node (k := k) h) with
      ⟨⟨e, m⟩, ⟨e', m'⟩, he, he', heq⟩ | ⟨fault, he, he'⟩
    · obtain ⟨hcapture, rfl⟩ := Prod.mk.inj heq
      rw [he, he']
      exact ih m hcapture
    · rw [he, he']

/-- A body that succeeds captures what it and the draft before it have begun and not ended. -/
theorem captureCount_evalBody {body : Body} {d d' : Draft} {k k' : Shared}
    (h : evalBody spec fields none body (d, k) = .ok (d', k')) :
    d.captureCount + body.begins = d'.captureCount + body.ends := by
  induction body generalizing d k with
  | nil =>
    cases h
    rfl
  | cons node body ih =>
    obtain ⟨⟨e, m⟩, hnode, hbody⟩ := eq_ok_of_bind h
    have hstep := captureCount_evalNode spec fields hnode
    have hrest := ih hbody
    rw [Body.begins, Body.ends]
    omega

/-- A body that ends its sections captures none at its end. -/
theorem capture_eq_none_of_endsSections {body : Body} (hends : body.EndsSections) {d : Draft}
    {k k' : Shared} (h : evalBody spec fields none body ({}, k) = .ok (d, k')) :
    d.capture = none := by
  have hcount := captureCount_evalBody spec fields h
  have hempty : ({} : Draft).captureCount = 0 := rfl
  unfold Body.EndsSections at hends
  exact Draft.capture_eq_none (by omega)

end

/-! ## The view to be extended -/

/-- The same sections with another view to be extended. -/
def Shared.withParent (k : Shared) (parent : Option String) : Shared := { k with parent }

section
variable {spec : Option String → String → Shared → Except Fault (String × Shared)}
  {fields : Fields} {foreign : Option String} {k : Shared} {parent : Option String}

theorem evalNode_withParent {node : Node} (hx : node.parent? = none)
    (hl : ∀ q, node = .includePartial q → ∀ foreign k, spec foreign q (k.withParent parent) =
      (spec foreign q k).map fun (output, k) => (output, k.withParent parent)) (d : Draft) :
    evalNode spec fields foreign node (d, k.withParent parent) =
      (evalNode spec fields foreign node (d, k)).map fun (d, k) => (d, k.withParent parent) := by
  cases node with
  | extend p => cases hx
  | comment | text | field | showSection => rfl
  | beginSection name =>
    simp only [evalNode]
    cases d.openName foreign <;> rfl
  | close =>
    simp only [evalNode]
    cases d.capture with
    | some c => rfl
    | none => cases foreign <;> rfl
  | includePartial q =>
    rw [evalNode, evalNode, hl q rfl]
    cases spec (d.openName foreign) q k <;> rfl

/-- Nodes that extend no view do not read which view is to be extended. -/
theorem evalBody_withParent {body : Body} (hx : ∀ node ∈ body, node.parent? = none)
    (hl : ∀ q, .includePartial q ∈ body → ∀ foreign k, spec foreign q (k.withParent parent) =
      (spec foreign q k).map fun (output, k) => (output, k.withParent parent)) (d : Draft) :
    evalBody spec fields foreign body (d, k.withParent parent) =
      (evalBody spec fields foreign body (d, k)).map fun (d, k) => (d, k.withParent parent) := by
  induction body generalizing d k with
  | nil => rfl
  | cons node body ih =>
    obtain ⟨hhead, htail⟩ := List.forall_mem_cons.1 hx
    rw [evalBody, evalBody, evalNode_withParent hhead (fun q hq => hl q (by simp [hq]))]
    cases evalNode spec fields foreign node (d, k) with
    | error e => rfl
    | ok x => exact ih htail (fun q hq => hl q (by simp [hq])) x.1

end

/-- The templates among `names` include only each other, and extend no view. -/
structure ExtendsNone (bodies : Bodies) (names : Set String) : Prop where
  closed : ∀ n ∈ names, ∀ body, bodies n = .ok body → ∀ q, .includePartial q ∈ body → q ∈ names
  parents : ∀ n ∈ names, ∀ body, bodies n = .ok body → Body.parents body = []

/-- A load of such a template does not read which view is to be extended. -/
theorem ExtendsNone.load_withParent {bodies : Bodies} {names : Set String}
    (h : ExtendsNone bodies names) (fields : Fields) (maxDepth depth : Nat)
    (foreign : Option String) {name : String} (hname : name ∈ names) (k : Shared)
    (parent : Option String) :
    Stackless.load bodies fields maxDepth depth foreign name (k.withParent parent) =
      (Stackless.load bodies fields maxDepth depth foreign name k).map
        fun (output, k) => (output, k.withParent parent) := by
  induction hn : maxDepth - depth using Nat.strongRecOn generalizing depth foreign name k with
  | ind n ih =>
    rw [Stackless.load, Stackless.load]
    by_cases hd : depth < maxDepth
    · rw [dif_pos hd, dif_pos hd]
      cases hb : bodies name with
      | error e => rfl
      | ok body =>
        have hloads : ∀ q, .includePartial q ∈ body → ∀ foreign k,
            Stackless.load bodies fields maxDepth (depth + 1) foreign q (k.withParent parent) =
              (Stackless.load bodies fields maxDepth (depth + 1) foreign q k).map
                fun (output, k) => (output, k.withParent parent) := by
          intro q hq foreign k
          exact ih _ (by omega) (depth + 1) foreign (h.closed name hname body hb q hq) k rfl
        show (evalBody _ _ _ _ _ >>= endDraft name) = (evalBody _ _ _ _ _ >>= endDraft name).map _
        rw [evalBody_withParent (Body.parents_eq_nil_iff.1 (h.parents name hname body hb)) hloads]
        cases evalBody _ fields foreign body ({}, k) with
        | error e => rfl
        | ok x =>
          obtain ⟨⟨output, capture⟩, k'⟩ := x
          cases capture <;> rfl
    · rw [dif_neg hd, dif_neg hd]
      rfl

/-! ## The place of an extension -/

/-- A body that names the view to be extended outside of its sections gives what it gives without,
but for the output and that view. -/
theorem unwritten_extend {spec : Option String → String → Shared → Except Fault (String × Shared)}
    {fields : Fields} {before after : Body} {p : String} (hends : before.EndsSections)
    (hx : ∀ node ∈ after, node.parent? = none)
    (hl : ∀ q, .includePartial q ∈ after → ∀ foreign k, spec foreign q (k.withParent (some p)) =
      (spec foreign q k).map fun (output, k) => (output, k.withParent (some p))) (k : Shared) :
    unwritten (evalBody spec fields none (before ++ .extend p :: after) ({}, k)) =
      (unwritten (evalBody spec fields none (before ++ after) ({}, k))).map
        fun (c, k) => (c, k.withParent (some p)) := by
  rw [Stackless.evalBody_append, Stackless.evalBody_append]
  cases hb : evalBody spec fields none before ({}, k) with
  | error e => rfl
  | ok x =>
    obtain ⟨d, k₁⟩ := x
    have hcapture := capture_eq_none_of_endsSections spec fields hends hb
    have hextend : evalNode spec fields none (.extend p) (d, k₁) =
        .ok ({ d with output := "" }, k₁.withParent (some p)) := by
      rw [evalNode, hcapture]
      rfl
    calc unwritten (evalBody spec fields none (.extend p :: after) (d, k₁))
        = unwritten (evalBody spec fields none after
            ({ d with output := "" }, k₁.withParent (some p))) := by
          rw [evalBody, hextend]
          rfl
      _ = unwritten (evalBody spec fields none after (d, k₁.withParent (some p))) :=
          unwritten_evalBody spec fields none after _ rfl
      _ = (unwritten (evalBody spec fields none after (d, k₁))).map
            fun (c, k) => (c, k.withParent (some p)) := by
          rw [evalBody_withParent hx hl]
          cases evalBody spec fields none after (d, k₁) <;> rfl

/-- The templates that a body comes to include, by itself or through the templates it includes. -/
inductive Included (bodies : Bodies) (body : Body) : String → Prop
  | direct {q : String} : .includePartial q ∈ body → Included bodies body q
  | through {q r : String} {inner : Body} : Included bodies body q → bodies q = .ok inner →
      .includePartial r ∈ inner → Included bodies body r

/-- The sources differ only in where the view `t` has its extension of `p`: in one between `before`
and `after`, in the other between `before'` and `after'`, both times outside of its sections. No
template includes `t`, and there is no other extension in `t` or in what it comes to include. -/
structure ExtensionMoved (bodies bodies' : Bodies) (t p : String)
    (before after before' after' : Body) : Prop where
  same : ∀ name, name ≠ t → bodies' name = bodies name
  view : bodies t = .ok (before ++ .extend p :: after)
  view' : bodies' t = .ok (before' ++ .extend p :: after')
  nodes : before' ++ after' = before ++ after
  outside : before.EndsSections
  outside' : before'.EndsSections
  notIncluded : ∀ name body, bodies name = .ok body → .includePartial t ∉ body
  parents : Body.parents (before ++ after) = []
  partials : ∀ q, Included bodies (before ++ after) q → ∀ body, bodies q = .ok body →
    Body.parents body = []

namespace ExtensionMoved

variable {bodies bodies' : Bodies} {t p : String} {before after before' after' : Body}
  (h : ExtensionMoved bodies bodies' t p before after before' after')
include h

theorem differInView : DifferInView bodies bodies' t (before ++ .extend p :: after)
    (before' ++ .extend p :: after') where
  same := h.same
  view := h.view
  view' := h.view'
  parent := ⟨p, by simp⟩
  notIncluded := h.notIncluded
  notIncluded' hmem := by
    have hnodes : .includePartial t ∈ before' ++ after' := by simpa using hmem
    exact h.notIncluded t _ h.view (by simpa [h.nodes] using hnodes)

theorem extendsNone : ExtendsNone bodies {q | Included bodies (before ++ after) q} where
  closed _ hn _ hb _ hq := .through hn hb hq
  parents := h.partials

/-- What `t` gives does not depend on the place of its extension, but for the output. -/
theorem unwritten_eq (fields : Fields) (maxDepth : Nat) (k : Shared) :
    unwritten (evalBody (Stackless.load bodies fields maxDepth 1) fields none
        (before ++ .extend p :: after) ({}, k)) =
      unwritten (evalBody (Stackless.load bodies fields maxDepth 1) fields none
        (before' ++ .extend p :: after') ({}, k)) := by
  have hx := Body.parents_eq_nil_iff.1 h.parents
  have hx' : ∀ node ∈ before' ++ after', node.parent? = none := h.nodes ▸ hx
  have hl : ∀ q, .includePartial q ∈ before ++ after → ∀ foreign k,
      Stackless.load bodies fields maxDepth 1 foreign q (k.withParent (some p)) =
        (Stackless.load bodies fields maxDepth 1 foreign q k).map
          fun (output, k) => (output, k.withParent (some p)) :=
    fun q hq foreign k =>
      h.extendsNone.load_withParent fields maxDepth 1 foreign (.direct hq) k (some p)
  have hl' := h.nodes ▸ hl
  rw [unwritten_extend h.outside (fun n hn => hx n (List.mem_append_right _ hn))
      (fun q hq => hl q (List.mem_append_right _ hq)),
    unwritten_extend h.outside' (fun n hn => hx' n (List.mem_append_right _ hn))
      (fun q hq => hl' q (List.mem_append_right _ hq)), h.nodes]

end ExtensionMoved

/-! ## Renders -/

/-- Where a view says what it extends has no part in any result. -/
theorem render_extension_moved {store store' : Store} {bodies bodies' : Bodies} {t p : String}
    {before after before' after' : Body} (hs : store.HasBodies bodies)
    (hs' : store'.HasBodies bodies')
    (h : ExtensionMoved bodies bodies' t p before after before' after') (fields : Fields)
    (maxDepth : Nat) (view : String) :
    result ⟨store, fields, maxDepth⟩ view = result ⟨store', fields, maxDepth⟩ view := by
  have hsteps : Stackless.climbStep bodies fields maxDepth =
      Stackless.climbStep bodies' fields maxDepth :=
    funext (h.differInView.climbStep_eq fields maxDepth (h.unwritten_eq fields maxDepth))
  exact result_eq_of_climbStep_eq hs hs' fields maxDepth hsteps view

/-- A page that says at its end what it extends, after a section with a note. -/
def lateTemplates : List (String × Body) :=
  [("page", [.text "a", .beginSection "body", .includePartial "note", .close, .extend "layout"]),
    ("note", [.text "b"]), ("layout", [.text "<", .showSection "body", .text ">"])]

/-- The same with the extension first. -/
def earlyTemplates : List (String × Body) :=
  [("page", [.extend "layout", .text "a", .beginSection "body", .includePartial "note", .close]),
    ("note", [.text "b"]), ("layout", [.text "<", .showSection "body", .text ">"])]

theorem render_extension_moved_late :
    let store := (MemoryStore.ofBodies lateTemplates).toStore
    let store' := (MemoryStore.ofBodies earlyTemplates).toStore
    let nodes : Body := [.text "a", .beginSection "body", .includePartial "note", .close]
    store.HasBodies (.ofList lateTemplates) ∧ store'.HasBodies (.ofList earlyTemplates) ∧
      ExtensionMoved (.ofList lateTemplates) (.ofList earlyTemplates) "page" "layout" nodes [] []
        nodes ∧
      result ⟨store, ∅, 2⟩ "page" = some (.ok "<b>") ∧
      result ⟨store, ∅, 2⟩ "page" = result ⟨store', ∅, 2⟩ "page" := by
  intro store store' nodes
  have hs : store.HasBodies (.ofList lateTemplates) := MemoryStore.ofBodies_hasBodies _
  have hs' : store'.HasBodies (.ofList earlyTemplates) := MemoryStore.ofBodies_hasBodies _
  have hnote : ∀ q, Included (.ofList lateTemplates) (nodes ++ []) q → q = "note" := by
    intro q hq
    induction hq with
    | direct hq => simpa [nodes] using hq
    | through _ hb hr ih =>
      subst ih
      cases hb
      simp at hr
  have h : ExtensionMoved (.ofList lateTemplates) (.ofList earlyTemplates) "page" "layout" nodes []
      [] nodes := by
    refine ⟨fun name hname => ?_, rfl, rfl, rfl, rfl, rfl, fun name body hb => ?_, rfl,
      fun q hq body hb => ?_⟩
    · have hne : (name == "page") = false := beq_false_of_ne hname
      simp [Bodies.ofList, lateTemplates, earlyTemplates, List.lookup_cons, hne]
    · have hmem := Bodies.mem_of_ofList_eq_ok hb
      simp only [lateTemplates, List.mem_cons, Prod.mk.injEq, List.not_mem_nil, or_false] at hmem
      rcases hmem with ⟨-, rfl⟩ | ⟨-, rfl⟩ | ⟨-, rfl⟩ <;> decide
    · obtain rfl := hnote q hq
      cases hb
      rfl
  have hrender : result ⟨store, ∅, 2⟩ "page" = some (.ok "<b>") := by
    rw [result, render, climb_of_parent rfl rfl (by decide), climb_of_page rfl rfl]
    rfl
  exact ⟨hs, hs', h, hrender, render_extension_moved hs hs' h ∅ 2 "page"⟩

end Render

end ViewTemplates
