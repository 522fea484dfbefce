import ViewTemplates.Proofs.Markup.Canonical
import ViewTemplates.Proofs.Render.Outline

/-!
# The pieces of a page

A page is put together from literal texts and from fields. Which ones, and in which order, does not
depend on the values of the fields, as long as no `@` is around that is not a directive.

* `render_eq_fill`: if no body has the text `@` and a view can be rendered, then there is a list of
  pieces that is filled to its page with any fields that display no `@`.

A `Sketch` is a text with its fields left open. Only its own markers are found when it is merged
with another, whatever the fields are (`Sketch.fill_merge`), because nothing else in it has an `@`.
An evaluation is `Uniform` if a single sketch of its result holds for all fields; so is every load
(`load_uniform`), and the renders with all fields come to the same attempts
(`Attempt.exists_sketch`).
-/

set_option autoImplicit false

namespace ViewTemplates

open Markup

/-- No value of a field is displayed with an `@`. -/
def Fields.AtFree (fields : Fields) : Prop := ∀ name, '@' ∉ (fields.display name).toList

theorem Fields.atFree_empty : Fields.AtFree ∅ := fun _ => nofun

namespace Render

open Stackless (evalNode evalBody endDraft)

/-! ## Pieces and sketches -/

/-- A piece of a page. -/
inductive Piece
  | literal (text : String)
  | field (name : String)
  deriving DecidableEq, Repr

/-- The text of a piece. -/
def Piece.text (fields : Fields) : Piece → String
  | literal text => text
  | field name => fields.display name

/-- The page that is put together from the pieces. -/
def fill (fields : Fields) (pieces : List Piece) : String :=
  String.join (pieces.map (Piece.text fields))

/-- A literal is the marker of a section, or no part of it can belong to one. -/
def Piece.Apt : Piece → Prop
  | literal text => text = Section.marker ∨ '@' ∉ text.toList
  | field _ => True

/-- A text with its fields left open. -/
abbrev Sketch := List { p : Piece // p.Apt }

namespace Sketch

/-- The text of the sketch with the fields. -/
def fill (sketch : Sketch) (fields : Fields) : String :=
  Render.fill fields (sketch.map Subtype.val)

/-- Puts the sketch `new` in the place of every marker. -/
def merge (stored new : Sketch) : Sketch :=
  stored.flatMap fun p => if p.1 = .literal Section.marker then new else [p]

theorem fill_cons (p : { p : Piece // p.Apt }) (sketch : Sketch) (fields : Fields) :
    fill (p :: sketch) fields = p.1.text fields ++ sketch.fill fields := by
  rw [fill, List.map_cons, Render.fill, List.map_cons, String.join_cons]
  rfl

theorem fill_singleton (p : { p : Piece // p.Apt }) (fields : Fields) :
    fill [p] fields = p.1.text fields := by
  simp [fill, Render.fill]

theorem fill_append (a b : Sketch) (fields : Fields) :
    fill (a ++ b) fields = a.fill fields ++ b.fill fields := by
  rw [fill, List.map_append, Render.fill, List.map_append, String.join_append]
  rfl

/-- The markers of a text that are found are those of its sketch. -/
theorem fill_merge {fields : Fields} (hf : fields.AtFree) (stored new : Sketch) :
    (stored.merge new).fill fields = Section.merge (stored.fill fields) (new.fill fields) := by
  induction stored with
  | nil => rfl
  | cons p stored ih =>
    obtain ⟨p, hp⟩ := p
    rw [merge, List.flatMap_cons, fill_append, ← merge, ih, fill_cons]
    by_cases hm : p = .literal Section.marker
    · subst hm
      rw [if_pos rfl]
      exact (Section.merge_marker_append _ _).symm
    · have hat : '@' ∉ (p.text fields).toList := by
        cases p with
        | literal text => exact hp.resolve_left fun htext => hm (congrArg _ htext)
        | field name => exact hf name
      rw [if_neg hm, Section.merge_append_of_notMem hat, fill_singleton]

end Sketch

/-! ## Sketches of evaluations -/

/-- What a running template has written, with the fields left open. -/
structure DraftSketch where
  output : Sketch := []
  capture : Option (String × Sketch) := none

/-- What all templates of a render share, with the fields left open. -/
structure SharedSketch where
  sections : Std.ExtTreeMap String Sketch := ∅
  parent : Option String := none

namespace DraftSketch

def fill (d : DraftSketch) (fields : Fields) : Draft where
  output := d.output.fill fields
  capture := d.capture.map fun c => ⟨c.1, c.2.fill fields⟩

/-- Writes to the section that is captured, or to the output. -/
def write (d : DraftSketch) (text : Sketch) : DraftSketch :=
  match d.capture with
  | none => { d with output := d.output ++ text }
  | some c => { d with capture := some (c.1, c.2 ++ text) }

theorem fill_write (d : DraftSketch) (text : Sketch) (fields : Fields) :
    (d.write text).fill fields = (d.fill fields).write (text.fill fields) := by
  cases hc : d.capture <;> simp [write, fill, Draft.write, hc, Sketch.fill_append]

theorem openName_fill (d : DraftSketch) (fields : Fields) (foreign : Option String) :
    (d.fill fields).openName foreign = (d.capture.map Prod.fst).or foreign := by
  simp [Draft.openName, fill, Function.comp_def]

end DraftSketch

namespace SharedSketch

def fill (k : SharedSketch) (fields : Fields) : Shared where
  sections := k.sections.map fun _ text => text.fill fields
  parent := k.parent

def content (k : SharedSketch) (name : String) : Sketch := (k.sections[name]?).getD []

/-- The content of a section after a close that captured some text. -/
def merged (k : SharedSketch) (name : String) (captured : Sketch) : Sketch :=
  match k.sections[name]? with
  | some stored => stored.merge captured
  | none => captured

theorem fill_content (k : SharedSketch) (name : String) (fields : Fields) :
    (k.content name).fill fields = (k.fill fields).content name := by
  rw [Shared.content, fill, Std.ExtTreeMap.getElem?_map, content]
  cases k.sections[name]? <;> rfl

theorem fill_merged {fields : Fields} (hf : fields.AtFree) (k : SharedSketch) (name : String)
    (captured : Sketch) :
    (k.merged name captured).fill fields = (k.fill fields).merged name (captured.fill fields) := by
  rw [Shared.merged, fill, Std.ExtTreeMap.getElem?_map, merged]
  cases k.sections[name]? with
  | none => rfl
  | some stored => exact Sketch.fill_merge hf stored captured

theorem fill_insert (k : SharedSketch) (name : String) (content : Sketch) (fields : Fields) :
    ({ k with sections := k.sections.insert name content } : SharedSketch).fill fields =
      { k.fill fields with
        sections := (k.fill fields).sections.insert name (content.fill fields) } := by
  simp only [fill, Shared.mk.injEq, and_true]
  apply Std.ExtTreeMap.ext_getElem?
  intro n
  simp only [Std.ExtTreeMap.getElem?_map, Std.ExtTreeMap.getElem?_insert]
  split <;> rfl

end SharedSketch

/-! ## Uniform evaluations -/

/-- For all fields without an `@`, the evaluation gives what one sketch of its result is filled to,
or the same fault. -/
def Uniform {σ α : Type} (fill : σ → Fields → α) (x : Fields → Except Fault (α × Shared)) : Prop :=
  ∃ r : Except Fault (σ × SharedSketch), ∀ fields : Fields, fields.AtFree →
    x fields = r.map fun y => (fill y.1 fields, y.2.fill fields)

namespace Uniform

variable {σ τ α β : Type} {fill : σ → Fields → α} {fill' : τ → Fields → β}

theorem error (e : Fault) : Uniform fill fun _ => .error e := ⟨.error e, fun _ _ => rfl⟩

theorem ok {x : Fields → Except Fault (α × Shared)} (a : σ) (k : SharedSketch)
    (hx : ∀ fields : Fields, fields.AtFree → x fields = .ok (fill a fields, k.fill fields)) :
    Uniform fill x :=
  ⟨.ok (a, k), hx⟩

theorem bind {x : Fields → Except Fault (α × Shared)}
    {next : Fields → α × Shared → Except Fault (β × Shared)} (hx : Uniform fill x)
    (hnext : ∀ a (k : SharedSketch),
      Uniform fill' fun fields => next fields (fill a fields, k.fill fields)) :
    Uniform fill' fun fields => x fields >>= next fields := by
  obtain ⟨r, hr⟩ := hx
  cases r with
  | error e =>
    refine ⟨.error e, fun fields hf => ?_⟩
    beta_reduce
    rw [hr fields hf]
    rfl
  | ok y =>
    obtain ⟨r', hr'⟩ := hnext y.1 y.2
    refine ⟨r', fun fields hf => ?_⟩
    beta_reduce
    rw [hr fields hf]
    exact hr' fields hf

end Uniform

/-- The texts of the body are literals of sketches. -/
def AptTexts (body : Body) : Prop := ∀ text, .text text ∈ body → (Piece.literal text).Apt

section
variable {loader : Fields → Option String → String → Shared → Except Fault (String × Shared)}
  (hl : ∀ foreign p (k : SharedSketch),
    Uniform Sketch.fill fun fields => loader fields foreign p (k.fill fields))
include hl

theorem evalNode_uniform (foreign : Option String) {node : Node}
    (hnode : ∀ text, node = .text text → (Piece.literal text).Apt) (d : DraftSketch)
    (k : SharedSketch) :
    Uniform DraftSketch.fill fun fields =>
      evalNode (loader fields) fields foreign node (d.fill fields, k.fill fields) := by
  cases node with
  | comment => exact .ok d k fun _ _ => rfl
  | text text =>
    refine .ok (d.write [⟨_, hnode text rfl⟩]) k fun fields _ => ?_
    rw [d.fill_write, Sketch.fill_singleton, evalNode]
    rfl
  | field name =>
    refine .ok (d.write [⟨.field name, trivial⟩]) k fun fields _ => ?_
    rw [d.fill_write, Sketch.fill_singleton, evalNode]
    rfl
  | showSection name =>
    refine .ok (d.write (k.content name)) k fun fields _ => ?_
    rw [d.fill_write, k.fill_content, evalNode]
  | extend p =>
    cases hc : d.capture with
    | some c =>
      simp only [evalNode, DraftSketch.fill, hc, Option.map_some]
      exact .error _
    | none =>
      refine .ok { d with output := [] } { k with parent := some p } fun fields _ => ?_
      simp only [evalNode, DraftSketch.fill, hc, Option.map_none]
      rfl
  | beginSection name =>
    simp only [evalNode, d.openName_fill]
    cases (d.capture.map Prod.fst).or foreign with
    | some current => exact .error _
    | none => exact .ok { d with capture := some (name, []) } k fun fields _ => rfl
  | close =>
    cases hc : d.capture with
    | some c =>
      obtain ⟨name, text⟩ := c
      refine .ok ⟨d.output ++ k.merged name text, none⟩
        { k with sections := k.sections.insert name (k.merged name text) } fun fields hf => ?_
      simp only [evalNode, DraftSketch.fill, hc, Option.map_some, Option.map_none,
        Sketch.fill_append, k.fill_insert, k.fill_merged hf]
    | none =>
      simp only [evalNode, DraftSketch.fill, hc, Option.map_none]
      cases foreign <;> exact .error _
  | includePartial p =>
    simp only [evalNode, d.openName_fill]
    refine .bind (hl _ p k) fun output k' => ?_
    exact .ok (d.write output) k' fun fields _ => congrArg (fun d => Except.ok (d, _))
      (d.fill_write output fields).symm

theorem evalBody_uniform (foreign : Option String) {body : Body} (hbody : AptTexts body)
    (d : DraftSketch) (k : SharedSketch) :
    Uniform DraftSketch.fill fun fields =>
      evalBody (loader fields) fields foreign body (d.fill fields, k.fill fields) := by
  induction body generalizing d k with
  | nil => exact .ok d k fun _ _ => rfl
  | cons node body ih =>
    have hnode : ∀ text, node = .text text → (Piece.literal text).Apt :=
      fun text hn => hbody text (hn ▸ List.mem_cons_self)
    have htail : AptTexts body := fun text ht => hbody text (List.mem_cons_of_mem _ ht)
    exact .bind (evalNode_uniform hl foreign hnode d k) fun d k => ih htail d k

end

theorem endDraft_uniform (name : String) (d : DraftSketch) (k : SharedSketch) :
    Uniform Sketch.fill fun fields => endDraft name (d.fill fields, k.fill fields) := by
  cases hc : d.capture with
  | some c =>
    simp only [endDraft, DraftSketch.fill, hc, Option.map_some]
    exact .error _
  | none =>
    simp only [endDraft, DraftSketch.fill, hc, Option.map_none]
    exact .ok d.output k fun _ _ => rfl

section
variable {bodies : Bodies} (hbodies : ∀ name body, bodies name = .ok body → AptTexts body)
  (maxDepth : Nat)
include hbodies

theorem load_uniform (depth : Nat) (foreign : Option String) (name : String) (k : SharedSketch) :
    Uniform Sketch.fill fun fields =>
      Stackless.load bodies fields maxDepth depth foreign name (k.fill fields) := by
  induction hn : maxDepth - depth using Nat.strongRecOn generalizing depth foreign name k with
  | ind n ih =>
    by_cases hd : depth < maxDepth
    · have hl := fun foreign p k => ih _ (by omega) (depth + 1) foreign p k rfl
      simp only [Stackless.load, dif_pos hd]
      cases hb : bodies name with
      | error e => exact .error e
      | ok body =>
        have hbody := evalBody_uniform hl foreign (hbodies name body hb) {} k
        exact .bind hbody fun d k => endDraft_uniform name d k
    · simp only [Stackless.load, dif_neg hd]
      exact .error _

/-! ## Renders -/

variable {maxDepth} {store : Store} (h : store.HasBodies bodies) {fields₀ : Fields}
  (hf₀ : fields₀.AtFree)
include h hf₀

/-- What a load gives in an attempt, with these fields, is known for all fields from a sketch of the
state that it begins in. -/
theorem Attempt.exists_sketch_load {view name output : String} {chain : List String}
    {s s' : State} {k : SharedSketch}
    (ha : Attempt ⟨store, fields₀, maxDepth⟩ view (name :: chain) s)
    (hk : s.shared = k.fill fields₀)
    (hl : (load ⟨store, fields₀, maxDepth⟩ name).run s = .ok output s') :
    ∃ (o : Sketch) (k' : SharedSketch), s'.shared = k'.fill fields₀ ∧
      ∀ fields : Fields, fields.AtFree → ∀ t,
        Attempt ⟨store, fields, maxDepth⟩ view (name :: chain) t → t.shared = k.fill fields →
        ∃ t', (load ⟨store, fields, maxDepth⟩ name).run t = .ok (o.fill fields) t' ∧
          t'.shared = k'.fill fields := by
  obtain ⟨r, hr⟩ := load_uniform hbodies maxDepth 0 none name k
  have hx := ha.load_eq_ok h hl
  simp only [hk, hr fields₀ hf₀] at hx
  cases r with
  | error e => cases hx
  | ok y =>
    obtain ⟨o, k'⟩ := y
    refine ⟨o, k', (Prod.mk.inj (Except.ok.inj hx)).2.symm, fun fields hf t hat ht => ?_⟩
    exact hat.exists_load h (ht ▸ hr fields hf)

/-- The renders with all fields come to the same attempts, with one sketch of what is shared. -/
theorem Attempt.exists_sketch {view : String} {names : List String} {s : State}
    (ha : Attempt ⟨store, fields₀, maxDepth⟩ view names s) :
    ∃ k : SharedSketch, s.shared = k.fill fields₀ ∧ ∀ fields : Fields, fields.AtFree →
      ∃ t, Attempt ⟨store, fields, maxDepth⟩ view names t ∧ t.shared = k.fill fields := by
  induction ha with
  | view => exact ⟨{}, rfl, fun fields _ => ⟨{}, .view, rfl⟩⟩
  | @parent name parent _ _ _ s' ha hl hp hc ih =>
    obtain ⟨k, hk, hall⟩ := ih
    obtain ⟨o, k', hk', hload⟩ := ha.exists_sketch_load hbodies h hf₀ hk hl
    have hpk : k'.parent = some parent := (congrArg Shared.parent hk').symm.trans hp
    refine ⟨{ k' with parent := none }, ?_, fun fields hf => ?_⟩
    · exact congrArg (fun k : Shared => { k with parent := none }) hk'
    · obtain ⟨t, hat, ht⟩ := hall fields hf
      obtain ⟨t', hl', ht'⟩ := hload fields hf t hat ht
      have hp' : t'.parent = some parent := (congrArg Shared.parent ht').trans hpk
      refine ⟨_, .parent hat hl' hp' hc, ?_⟩
      exact congrArg (fun k : Shared => { k with parent := none }) ht'

end

theorem AptTexts.of_canonical {body : Body} (h : Canonical body) (hat : .text "@" ∉ body) :
    AptTexts body := by
  intro text ht
  rcases h.readable _ ht with rfl | hmarker | hplain
  · exact absurd ht hat
  · exact .inl hmarker
  · exact .inr hplain.2

/-- A view that can be rendered has pieces that are filled to its page with any fields that display
no `@`, if its templates have no text `@`. -/
theorem render_eq_fill {store : Store} {bodies : Bodies} (h : store.HasBodies bodies)
    (hbodies : ∀ name body, bodies name = .ok body →
      (∃ title text, Body.ofText title text = .ok body) ∧ .text "@" ∉ body)
    (maxDepth : Nat) (view : String)
    (hok : ∃ fields page s, render ⟨store, fields, maxDepth⟩ view = some (.ok page s)) :
    ∃ pieces : List Piece, ∀ fields : Fields, fields.AtFree →
      ∃ s, render ⟨store, fields, maxDepth⟩ view = some (.ok (fill fields pieces) s) := by
  have hapt : ∀ name body, bodies name = .ok body → AptTexts body := by
    intro name body hb
    obtain ⟨⟨title, text, hread⟩, hat⟩ := hbodies name body hb
    exact .of_canonical (canonical_of_ofText hread) hat
  obtain ⟨fields₀, page₀, s₀, hrender⟩ := hok
  have hending := ending_render_eq h fields₀ ∅ maxDepth view
  rw [hrender, Option.map_some] at hending
  obtain ⟨outcome, hempty, hsame⟩ := Option.map_eq_some_iff.1 hending.symm
  obtain ⟨page, s, rfl, -⟩ := eq_ok_of_ending_eq hsame.symm
  obtain ⟨name, chain, s₁, ha, hends⟩ := render_cases hempty
  cases hends with
  | page hl hp =>
    obtain ⟨k, hk, hall⟩ := ha.exists_sketch hapt h Fields.atFree_empty
    obtain ⟨o, k', hk', hload⟩ := ha.exists_sketch_load hapt h Fields.atFree_empty hk hl
    have hpk : k'.parent = none := (congrArg Shared.parent hk').symm.trans hp
    refine ⟨o.map Subtype.val, fun fields hf => ?_⟩
    obtain ⟨t, hat, ht⟩ := hall fields hf
    obtain ⟨t', hl', ht'⟩ := hload fields hf t hat ht
    have hp' : t'.parent = none := (congrArg Shared.parent ht').trans hpk
    exact ⟨t', (Attempt.Ends.page hl' hp').render_eq hat⟩

/-- A page that closes a section with a marker and a field in it, for a layout that closes the
section again. -/
def greetingTemplates : List (String × Body) :=
  [("page", [.extend "layout", .beginSection "body", .field "name", .text ": ",
      .text "@parent", .text "!", .close]),
    ("layout", [.text "<", .beginSection "body", .text "Hello ", .field "name", .close,
      .text ">"])]

theorem render_eq_fill_greeting :
    let store := (MemoryStore.ofBodies greetingTemplates).toStore
    store.HasBodies (.ofList greetingTemplates) ∧
      (∀ name body, Bodies.ofList greetingTemplates name = .ok body →
        (∃ title text, Body.ofText title text = .ok body) ∧ .text "@" ∉ body) ∧
      (∃ s, render ⟨store, .ofList [("name", Value.text "Ann")], 1⟩ "page" =
        some (.ok "<Ann: Hello Ann!>" s)) ∧
      ∃ pieces : List Piece, ∀ fields : Fields, fields.AtFree →
        ∃ s, render ⟨store, fields, 1⟩ "page" = some (.ok (fill fields pieces) s) := by
  have h := MemoryStore.ofBodies_hasBodies greetingTemplates
  have hbodies : ∀ name body, Bodies.ofList greetingTemplates name = .ok body →
      (∃ title text, Body.ofText title text = .ok body) ∧ .text "@" ∉ body := by
    intro name body hb
    have hmem := Bodies.mem_of_ofList_eq_ok hb
    simp only [greetingTemplates, List.mem_cons, Prod.mk.injEq, List.not_mem_nil, or_false] at hmem
    rcases hmem with ⟨-, rfl⟩ | ⟨-, rfl⟩
    · exact ⟨⟨name, _, ofText_print (by decide) name⟩, by decide⟩
    · exact ⟨⟨name, _, ofText_print (by decide) name⟩, by decide⟩
  let setting : Setting :=
    ⟨(MemoryStore.ofBodies greetingTemplates).toStore, .ofList [("name", Value.text "Ann")], 1⟩
  have hok : ∃ s, render setting "page" = some (.ok "<Ann: Hello Ann!>" s) := by
    let s := finalState ((load setting "page").run {})
    have hpage : (load setting "page").run {} = .ok "Ann: @parent!" s :=
      eq_ok_of_toOption (by decide +kernel)
    have hlayout : (load setting "layout").run s.takeParent = .ok "<Ann: Hello Ann!>" _ :=
      eq_ok_of_toOption (by decide +kernel)
    have hparent : s.parent = some "layout" := by decide +kernel
    rw [render, climb_of_parent hpage hparent (by decide),
      climb_of_page hlayout (by decide +kernel)]
    exact ⟨_, rfl⟩
  obtain ⟨s, hs⟩ := hok
  exact ⟨h, hbodies, ⟨s, hs⟩, render_eq_fill h hbodies 1 "page" ⟨_, _, s, hs⟩⟩

end Render

end ViewTemplates
