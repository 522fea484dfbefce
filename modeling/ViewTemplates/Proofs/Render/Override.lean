import ViewTemplates.Proofs.Render.Discard
import ViewTemplates.Proofs.Render.Visits

/-!
# Defaults that are never used

The first close of a section decides its content, if it stores a text without a marker: whatever is
captured later, the content stays. So the blocks of the section that come later may hold other
texts. Here the templates of a source are cut into `Segment`s, of which some are such blocks, and
`renderEndings` lists where and with which content the section ends in a render.

* `segments_agree`, `loadWithin_agrees`: what is evaluated with the old contents of the blocks is
  evaluated with the new ones, if the content is settled or if the next end of the section settles
  it. What the endings leave is such a state again (`Done`), so the steps fit together.
* `render_overridden`: sources that differ only in these contents give the same result.
-/

set_option autoImplicit false

namespace ViewTemplates

open Markup

/-! ## Segments -/

/-- A section that only writes, with the nodes that it has in one source and in another. -/
structure Block where
  old : Body
  new : Body
  old_writes : ∀ node ∈ old, node.onlyWrites
  new_writes : ∀ node ∈ new, node.onlyWrites

/-- A stretch of a template: a node that both sources have, or a block that differs. -/
inductive Segment
  | node (node : Node)
  | block (block : Block)

/-- The nodes of a segment, where the blocks are those of the section `name` and have these
contents. -/
def Segment.nodes (name : String) (contents : Block → Body) : Segment → Body
  | node n => [n]
  | block b => .beginSection name :: (contents b ++ [.close])

/-- The body that some segments make. -/
def Segment.body (name : String) (contents : Block → Body) (segments : List Segment) : Body :=
  segments.flatMap (nodes name contents)

/-- The templates of a source, cut into segments. -/
abbrev Segments := String → Except Fault (List Segment)

/-- The bodies of the templates with these contents of their blocks. -/
def Segments.bodies (source : Segments) (name : String) (contents : Block → Body) : Bodies :=
  fun t => (source t).map (Segment.body name contents)

/-- The templates of a list. The first one of a name counts. -/
def Segments.ofList (templates : List (String × List Segment)) : Segments := fun t =>
  match templates.lookup t with
  | some segments => .ok segments
  | none => .error (.templateNotFound t "in memory")

theorem Segments.bodies_ofList (templates : List (String × List Segment)) (name : String)
    (contents : Block → Body) :
    (ofList templates).bodies name contents =
      .ofList (templates.map fun (t, segments) => (t, Segment.body name contents segments)) := by
  funext t
  unfold bodies ofList Bodies.ofList
  have hlookup : (templates.map fun (t, segments) =>
      (t, Segment.body name contents segments)).lookup t =
        (templates.lookup t).map (Segment.body name contents) := by
    induction templates with
    | nil => rfl
    | cons head templates ih =>
      rw [List.map_cons, List.lookup_cons, List.lookup_cons, ih]
      split <;> rfl
  rw [hlookup]
  cases templates.lookup t <;> rfl

namespace Render

open Stackless (evalNode evalBody endDraft)

/-! ## Where a section ends -/

/-- A close of the section. -/
structure Ending where
  /-- It is that of a block that differs. -/
  ofBlock : Bool
  /-- What the section holds then. -/
  content : String

/-- The ending of the section `name`, if a close in this state ends it. -/
def State.endings (s : State) (name : String) (ofBlock : Bool) : List Ending :=
  match Run.close.run s with
  | .ok content _ => if s.openName = some name then [⟨ofBlock, content⟩] else []
  | .error _ _ => []

section
variable (loader : String → Run String) (inner : String → State → List Ending) (fields : Fields)
  (name : String)

/-- The endings of the section `name` while a segment runs. Those in other templates are given by
`inner`. -/
def segmentEndings : Segment → State → List Ending
  | .node .close, s => s.endings name false
  | .node (.includePartial p), s => inner p s
  | .node _, _ => []
  | .block b, s =>
    match (runBody loader fields (.beginSection name :: b.old)).run s with
    | .ok _ s' => s'.endings name true
    | .error _ _ => []

/-- The endings while some segments run. -/
def segmentsEndings : List Segment → State → List Ending
  | [], _ => []
  | segment :: segments, s =>
    segmentEndings loader inner fields name segment s ++
      match (runBody loader fields (segment.nodes name Block.old)).run s with
      | .ok _ s' => segmentsEndings segments s'
      | .error _ _ => []

end

/-- The endings of the section `name` during a load. -/
def loadEndings (setting : Setting) (source : Segments) (name : String) :
    Nat → String → State → List Ending
  | 0, _, _ => []
  | levels + 1, t, s =>
    match source t with
    | .ok segments =>
      segmentsEndings (loadWithin setting levels) (loadEndings setting source name levels)
        setting.fields name segments (s.enter t)
    | .error _ => []

/-- The endings of the section `name` during some visits, one after the other. -/
def renderEndings (setting : Setting) (source : Segments) (name : String) (visits : List Visit) :
    List Ending :=
  visits.flatMap fun v => loadEndings setting source name setting.maxDepth v.view v.start

/-! ## What the first ending decides -/

/-- The section ends with a content that stays, and not in a block that differs. -/
def Ending.Decides (e : Ending) : Prop :=
  e.ofBlock = false ∧ ¬ Section.marker.toList <:+: e.content.toList

/-- The content of the section, if it has one, stays. -/
def Shared.Clean (k : Shared) (name : String) : Prop :=
  ∀ content ∈ k.sections[name]?, ¬ Section.marker.toList <:+: content.toList

/-- The content is settled, or the first of these endings settles it. -/
structure Sound (name : String) (k : Shared) (endings : List Ending) : Prop where
  clean : k.Clean name
  first : k.sections[name]? = none → ∀ e ∈ endings.head?, e.Decides

/-- These endings, if there were any, have settled the content. -/
structure Done (name : String) (k k' : Shared) (endings : List Ending) : Prop where
  clean : k'.Clean name
  unknown : k'.sections[name]? = none → k.sections[name]? = none ∧ endings = []

section
variable {name : String} {k k' k'' : Shared} {a b : List Ending}

theorem Sound.left (h : Sound name k (a ++ b)) : Sound name k a := by
  cases a with
  | nil => exact ⟨h.clean, fun _ e he => by cases he⟩
  | cons e a => exact ⟨h.clean, h.first⟩

theorem Sound.next (h : Sound name k (a ++ b)) (hd : Done name k k' a) : Sound name k' b := by
  refine ⟨hd.clean, fun hnone => ?_⟩
  obtain ⟨hk, rfl⟩ := hd.unknown hnone
  exact h.first hk

theorem Done.append (h : Done name k k' a) (h' : Done name k' k'' b) :
    Done name k k'' (a ++ b) := by
  refine ⟨h'.clean, fun hnone => ?_⟩
  obtain ⟨hk', rfl⟩ := h'.unknown hnone
  obtain ⟨hk, rfl⟩ := h.unknown hk'
  exact ⟨hk, rfl⟩

/-- Where the section did not end it is as it was. -/
theorem Sound.done_of_eq (h : Sound name k []) (hk : k'.sections[name]? = k.sections[name]?) :
    Done name k k' [] := by
  refine ⟨?_, fun hnone => ⟨hk ▸ hnone, rfl⟩⟩
  unfold Shared.Clean
  rw [hk]
  exact h.clean

/-- Clean content stays as it is, whatever is captured. -/
theorem Shared.Clean.merged_eq (h : k.Clean name) {content : String}
    (hc : k.sections[name]? = some content) (captured : String) :
    k.merged name captured = content := by
  rw [Shared.merged, hc]
  exact Section.merge_of_not_infix (h content hc) captured

end

/-- The evaluations give the same, and if they give something then the endings have settled the
content. -/
structure Agrees {α : Type} (name : String) (k : Shared) (endings : List Ending)
    (x y : Except Fault (α × Shared)) : Prop where
  eq : x = y
  done : ∀ a k', x = .ok (a, k') → Done name k k' endings

theorem Agrees.error {α : Type} {name : String} {k : Shared} {endings : List Ending} (e : Fault) :
    Agrees name k endings (.error e : Except Fault (α × Shared)) (.error e) where
  eq := rfl
  done _ _ h := by cases h

/-- A close leaves clean content, if the ending that it is settles what is not settled. -/
theorem Sound.done_of_insert {name text : String} {k : Shared} {ofBlock : Bool}
    (h : Sound name k [⟨ofBlock, k.merged name text⟩]) :
    Done name k { k with sections := k.sections.insert name (k.merged name text) }
      [⟨ofBlock, k.merged name text⟩] := by
  have hself : (k.sections.insert name (k.merged name text))[name]? = some (k.merged name text) :=
    Std.ExtTreeMap.getElem?_insert_self
  refine ⟨fun content hcontent => ?_, fun hnone => ?_⟩
  · obtain rfl := Option.some.inj (hself.symm.trans hcontent)
    cases hk : k.sections[name]? with
    | none => exact (h.first hk _ rfl).2
    | some stored =>
      rw [h.clean.merged_eq hk]
      exact h.clean stored hk
  · cases hself.symm.trans hnone

theorem Sound.done_of_close {name : String} {k : Shared} {c : Capture} {ofBlock : Bool}
    (h : Sound name k (if c.name = name then [⟨ofBlock, k.merged c.name c.text⟩] else [])) :
    Done name k { k with sections := k.sections.insert c.name (k.merged c.name c.text) }
      (if c.name = name then [⟨ofBlock, k.merged c.name c.text⟩] else []) := by
  by_cases hn : c.name = name
  · subst hn
    rw [if_pos rfl] at h ⊢
    exact h.done_of_insert
  · rw [if_neg hn] at h ⊢
    refine h.done_of_eq ?_
    simp [Std.ExtTreeMap.getElem?_insert, hn]

/-- Where a template captures a section, a close ends that section. -/
theorem Within.endings_eq {base s : State} {t : String} {d : Draft} {c : Capture}
    (h : Within base t d s) (hc : d.capture = some c) (name : String) (ofBlock : Bool) :
    s.endings name ofBlock =
      if c.name = name then [⟨ofBlock, s.shared.merged c.name c.text⟩] else [] := by
  obtain ⟨s', hclose, -, -⟩ := h.close hc
  have ho : s.openName = some c.name := by
    rw [State.openName, h.openSection_of_some hc]
    rfl
  unfold State.endings
  simp only [hclose, ho, Option.some.injEq]
  rfl

/-! ## Blocks -/

section
variable {spec : Option String → String → Shared → Except Fault (String × Shared)}
  {fields : Fields} {foreign : Option String} {d : Draft} {k : Shared}

theorem evalBody_singleton (node : Node) (x : Draft × Shared) :
    evalBody spec fields foreign [node] x = evalNode spec fields foreign node x := by
  rw [evalBody]
  cases evalNode spec fields foreign node x <;> rfl

/-- Nodes that only write add to the section that is captured. -/
theorem evalBody_of_onlyWrites {body : Body} (hw : ∀ node ∈ body, node.onlyWrites) {c : Capture}
    (hc : d.capture = some c) :
    ∃ text, evalBody spec fields foreign body (d, k) =
      .ok ({ d with capture := some ⟨c.name, text⟩ }, k) := by
  induction body generalizing d c with
  | nil => exact ⟨c.text, by rw [evalBody, ← hc]⟩
  | cons node body ih =>
    obtain ⟨hnode, hbody⟩ := List.forall_mem_cons.1 hw
    have hwrite : ∀ text, ∃ text', evalBody spec fields foreign body (d.write text, k) =
        .ok ({ d with capture := some ⟨c.name, text'⟩ }, k) := by
      intro text
      have hcapture : (d.write text).capture = some ⟨c.name, c.text ++ text⟩ := by
        rw [Draft.capture_write, hc]
        rfl
      have houtput : (d.write text).output = d.output := by
        rw [Draft.write, hc]
      obtain ⟨text', hrest⟩ := ih hbody hcapture
      rw [houtput] at hrest
      exact ⟨text', hrest⟩
    cases node with
    | comment => exact ih hbody hc
    | text | field | showSection => exact hwrite _
    | extend | beginSection | close | includePartial => cases hnode

theorem evalBody_begin {name : String} {contents : Body}
    (hw : ∀ node ∈ contents, node.onlyWrites) (ho : d.openName foreign = none) :
    ∃ text, evalBody spec fields foreign (.beginSection name :: contents) (d, k) =
      .ok ({ d with capture := some ⟨name, text⟩ }, k) := by
  have hbegin : evalNode spec fields foreign (.beginSection name) (d, k) =
      .ok ({ d with capture := some ⟨name, ""⟩ }, k) := by
    rw [evalNode, ho]
  have hcapture : ({ d with capture := some ⟨name, ""⟩ } : Draft).capture = some ⟨name, ""⟩ := rfl
  rw [evalBody, hbegin]
  exact evalBody_of_onlyWrites hw hcapture

/-- What a block of the section `name` leaves that has captured the text. -/
def Draft.endBlock (d : Draft) (k : Shared) (name text : String) : Draft × Shared :=
  (⟨d.output ++ k.merged name text, none⟩,
    { k with sections := k.sections.insert name (k.merged name text) })

theorem evalBody_block {name text : String} {contents : Body}
    (h : evalBody spec fields foreign (.beginSection name :: contents) (d, k) =
      .ok ({ d with capture := some ⟨name, text⟩ }, k)) :
    evalBody spec fields foreign (.beginSection name :: (contents ++ [.close])) (d, k) =
      .ok (d.endBlock k name text) := by
  rw [← List.cons_append, Stackless.evalBody_append, h]
  show evalBody spec fields foreign [.close] ({ d with capture := some ⟨name, text⟩ }, k) = _
  rw [evalBody_singleton]
  rfl

/-- Where the content is settled, it does not matter what a block captures. -/
theorem Draft.endBlock_congr {name content : String} (hclean : k.Clean name)
    (hc : k.sections[name]? = some content) (text text' : String) :
    d.endBlock k name text = d.endBlock k name text' := by
  rw [endBlock, endBlock, hclean.merged_eq hc, hclean.merged_eq hc]

/-- A block where a section is open fails, whatever it holds. -/
theorem evalBody_block_of_some {name current : String} (ho : d.openName foreign = some current)
    (contents : Body) :
    evalBody spec fields foreign (.beginSection name :: contents) (d, k) =
      .error (.misplaced (.alreadyOpen current name)) := by
  rw [evalBody, evalNode, ho]
  rfl

end

/-! ## Runs -/

section
variable {loader : String → Run String} {inner : String → State → List Ending} {fields : Fields}
  {name t : String} {base s : State} {d : Draft}
  {spec spec' : Option String → String → Shared → Except Fault (String × Shared)}
  (hb : base.SectionInside)
include hb

theorem node_agrees
    (hi : ∀ p s, s.SectionInside → Sound name s.shared (inner p s) →
      Agrees name s.shared (inner p s) (spec s.openName p s.shared) (spec' s.openName p s.shared))
    (h : Within base t d s) {node : Node}
    (hs : Sound name s.shared (segmentEndings loader inner fields name (.node node) s)) :
    Agrees name s.shared (segmentEndings loader inner fields name (.node node) s)
      (evalNode spec fields base.openName node (d, s.shared))
      (evalNode spec' fields base.openName node (d, s.shared)) := by
  cases node with
  | comment | text | field | showSection =>
    refine ⟨rfl, fun a k' hk => ?_⟩
    cases hk
    exact hs.done_of_eq rfl
  | extend parent =>
    refine ⟨rfl, fun a k' hk => ?_⟩
    rw [evalNode] at hk
    split at hk <;> cases hk
    exact hs.done_of_eq rfl
  | beginSection n =>
    refine ⟨rfl, fun a k' hk => ?_⟩
    rw [evalNode] at hk
    split at hk <;> cases hk
    exact hs.done_of_eq rfl
  | close =>
    refine ⟨rfl, fun a k' hk => ?_⟩
    simp only [evalNode] at hk
    cases hc : d.capture with
    | none =>
      rw [hc] at hk
      cases ho : base.openName <;> simp [ho] at hk
    | some c =>
      rw [hc] at hk
      cases hk
      rw [segmentEndings, h.endings_eq hc] at hs ⊢
      exact hs.done_of_close
  | includePartial p =>
    have hin := hi p s (h.sectionInside hb) hs
    rw [evalNode, evalNode, ← h.openName]
    refine ⟨by rw [hin.eq], fun a k' hk => ?_⟩
    obtain ⟨⟨output, k₁⟩, hload, hout⟩ := eq_ok_of_bind hk
    cases hout
    exact hin.done output k' hload

section
variable
  (hl : ∀ p t, t.SectionInside → Refines (Gives t) ((loader p).run t) (spec t.openName p t.shared))
include hl

theorem exists_run_of_evalBody (h : Within base t d s) {body : Body} {d' : Draft} {k' : Shared}
    (hev : evalBody spec fields base.openName body (d, s.shared) = .ok (d', k')) :
    ∃ s', (runBody loader fields body).run s = .ok () s' ∧ Within base t d' s' ∧
      s'.shared = k' := by
  have hr : Refines (Reaches base t) ((runBody loader fields body).run s) (.ok (d', k')) :=
    hev ▸ runBody_refines hb hl h body
  obtain ⟨_, s', hrun, hw, hk⟩ := hr.of_spec_ok
  exact ⟨s', hrun, hw, hk⟩

/-- A block in which the section begins ends it. -/
theorem blockEndings_eq (h : Within base t d s) {b : Block} {text : String}
    (hbegin : evalBody spec fields base.openName (.beginSection name :: b.old) (d, s.shared) =
      .ok ({ d with capture := some ⟨name, text⟩ }, s.shared)) :
    segmentEndings loader inner fields name (.block b) s =
      [⟨true, s.shared.merged name text⟩] := by
  obtain ⟨s', hrun, hw, hk⟩ := exists_run_of_evalBody hb hl h hbegin
  rw [segmentEndings, hrun]
  show s'.endings name true = _
  rw [hw.endings_eq rfl, if_pos rfl, hk]

theorem block_agrees (h : Within base t d s) {b : Block}
    (hs : Sound name s.shared (segmentEndings loader inner fields name (.block b) s)) :
    Agrees name s.shared (segmentEndings loader inner fields name (.block b) s)
      (evalBody spec fields base.openName (Segment.nodes name Block.old (.block b)) (d, s.shared))
      (evalBody spec' fields base.openName (Segment.nodes name Block.new (.block b))
        (d, s.shared)) := by
  unfold Segment.nodes
  cases ho : d.openName base.openName with
  | some current =>
    rw [evalBody_block_of_some ho, evalBody_block_of_some ho]
    exact .error _
  | none =>
    obtain ⟨text, hold⟩ : ∃ text, evalBody spec fields base.openName
        (.beginSection name :: b.old) (d, s.shared) =
          .ok ({ d with capture := some ⟨name, text⟩ }, s.shared) := evalBody_begin b.old_writes ho
    obtain ⟨text', hnew⟩ : ∃ text, evalBody spec' fields base.openName
        (.beginSection name :: b.new) (d, s.shared) =
          .ok ({ d with capture := some ⟨name, text⟩ }, s.shared) := evalBody_begin b.new_writes ho
    rw [blockEndings_eq hb hl h hold] at hs ⊢
    -- the content is settled, since an ending in a block does not settle it
    obtain ⟨content, hcontent⟩ : ∃ content, s.shared.sections[name]? = some content := by
      cases hk : s.shared.sections[name]? with
      | some content => exact ⟨content, rfl⟩
      | none => exact absurd (hs.first hk _ rfl).1 (by simp)
    rw [evalBody_block hold, evalBody_block hnew, Draft.endBlock_congr hs.clean hcontent text' text]
    refine ⟨rfl, fun a k' hk => ?_⟩
    cases hk
    exact hs.done_of_insert

variable (hi : ∀ p s, s.SectionInside → Sound name s.shared (inner p s) →
  Agrees name s.shared (inner p s) (spec s.openName p s.shared) (spec' s.openName p s.shared))
include hi

theorem segment_agrees (h : Within base t d s) {segment : Segment}
    (hs : Sound name s.shared (segmentEndings loader inner fields name segment s)) :
    Agrees name s.shared (segmentEndings loader inner fields name segment s)
      (evalBody spec fields base.openName (segment.nodes name Block.old) (d, s.shared))
      (evalBody spec' fields base.openName (segment.nodes name Block.new) (d, s.shared)) := by
  cases segment with
  | node node =>
    unfold Segment.nodes
    rw [evalBody_singleton, evalBody_singleton]
    exact node_agrees hb hi h hs
  | block b => exact block_agrees hb hl h hs

theorem segments_agree (h : Within base t d s) {segments : List Segment}
    (hs : Sound name s.shared (segmentsEndings loader inner fields name segments s)) :
    Agrees name s.shared (segmentsEndings loader inner fields name segments s)
      (evalBody spec fields base.openName (Segment.body name Block.old segments) (d, s.shared))
      (evalBody spec' fields base.openName (Segment.body name Block.new segments)
        (d, s.shared)) := by
  induction segments generalizing d s with
  | nil =>
    refine ⟨rfl, fun a k' hk => ?_⟩
    cases hk
    exact hs.done_of_eq rfl
  | cons segment segments ih =>
    have hfirst := segment_agrees hb hl hi h hs.left
    unfold Segment.body at ih ⊢
    rw [segmentsEndings] at hs ⊢
    rw [List.flatMap_cons, List.flatMap_cons, Stackless.evalBody_append, Stackless.evalBody_append,
      ← hfirst.eq]
    cases hev : evalBody spec fields base.openName (segment.nodes name Block.old) (d, s.shared) with
    | error e => exact .error e
    | ok x =>
      obtain ⟨d', k'⟩ := x
      obtain ⟨s', hrun, hw, rfl⟩ := exists_run_of_evalBody hb hl h hev
      rw [hrun] at hs ⊢
      have hdone := hfirst.done d' s'.shared hev
      have hrest := ih hw (hs.next hdone)
      exact ⟨hrest.eq, fun a k'' hk => hdone.append (hrest.done a k'' hk)⟩

end

end

/-! ## Loads -/

section
variable {setting : Setting} {source : Segments} {name : String}
  (h : setting.store.HasBodies (source.bodies name Block.old))
include h

theorem loadWithin_agrees {levels depth : Nat} (hd : levels + depth = setting.maxDepth) (t : String)
    {s : State} (hs : s.SectionInside)
    (hsound : Sound name s.shared (loadEndings setting source name levels t s)) :
    Agrees name s.shared (loadEndings setting source name levels t s)
      (Stackless.load (source.bodies name Block.old) setting.fields setting.maxDepth depth
        s.openName t s.shared)
      (Stackless.load (source.bodies name Block.new) setting.fields setting.maxDepth depth
        s.openName t s.shared) := by
  induction levels generalizing depth t s with
  | zero =>
    rw [Stackless.load, Stackless.load, dif_neg (by omega), dif_neg (by omega)]
    exact .error _
  | succ levels ih =>
    rw [Stackless.load, Stackless.load, dif_pos (by omega), dif_pos (by omega)]
    unfold loadEndings at hsound ⊢
    unfold Segments.bodies
    cases hsource : source t with
    | error e => exact .error e
    | ok segments =>
      rw [hsource] at hsound
      have hl : ∀ p u, u.SectionInside → Refines (Gives u) ((loadWithin setting levels p).run u)
          (Stackless.load (source.bodies name Block.old) setting.fields setting.maxDepth (depth + 1)
            u.openName p u.shared) := fun p u hu => loadWithin_refines h (by omega) p hu
      have hbody := segments_agree hs hl (fun p u hu => ih (by omega) p hu) (.enter s t) hsound
      refine ⟨?_, fun output k' hload => ?_⟩
      · show (evalBody _ _ _ _ _ >>= endDraft t) = (evalBody _ _ _ _ _ >>= endDraft t)
        exact congrArg (· >>= endDraft t) hbody.eq
      · obtain ⟨body, hfound, hload⟩ := eq_ok_of_bind hload
        cases hfound
        obtain ⟨⟨d, k⟩, hev, hend⟩ := eq_ok_of_bind hload
        rw [endDraft] at hend
        split at hend <;> cases hend
        exact hbody.done d k' hev

/-! ## Renders -/

/-- The first time that the section ends in the render, if it ends at all, it is not in a block that
differs, and the content stays. -/
def DecidedFirst (setting : Setting) (source : Segments) (name view : String) : Prop :=
  ∀ visits, Visited setting view visits →
    ∀ e ∈ (renderEndings setting source name visits.reverse).head?, e.Decides

variable {view : String} {v : Visit} {visits : List Visit}

omit h in
theorem renderEndings_reverse_cons :
    renderEndings setting source name (v :: visits).reverse =
      renderEndings setting source name visits.reverse ++
        loadEndings setting source name setting.maxDepth v.view v.start := by
  simp [renderEndings]

variable (hfirst : DecidedFirst setting source name view)
include hfirst

omit h in
/-- What the visits before have left is settled, or the next ending settles it. -/
theorem Visited.sound (hv : Visited setting view (v :: visits))
    (hdone : Done name {} v.start.shared (renderEndings setting source name visits.reverse)) :
    Sound name v.start.shared
      (loadEndings setting source name setting.maxDepth v.view v.start) := by
  have hall : Sound name {} (renderEndings setting source name (v :: visits).reverse) := by
    refine ⟨fun content hcontent => ?_, fun _ => hfirst _ hv⟩
    simp at hcontent
  rw [renderEndings_reverse_cons] at hall
  exact hall.next hdone

/-- Both sources evaluate the view of a visit alike. -/
theorem Visited.agrees (hv : Visited setting view (v :: visits))
    (hdone : Done name {} v.start.shared (renderEndings setting source name visits.reverse)) :
    Agrees name v.start.shared (loadEndings setting source name setting.maxDepth v.view v.start)
      (Stackless.load (source.bodies name Block.old) setting.fields setting.maxDepth 0 none v.view
        v.start.shared)
      (Stackless.load (source.bodies name Block.new) setting.fields setting.maxDepth 0 none v.view
        v.start.shared) := by
  have hidle := (hv.attempt v rfl).idle
  have hopen : v.start.openName = none := by rw [State.openName, hidle.openSection, Option.map_none]
  exact hopen ▸ loadWithin_agrees h rfl v.view hidle.sectionInside (hv.sound hfirst hdone)

theorem Visited.done (hv : Visited setting view (v :: visits)) :
    Done name {} v.start.shared (renderEndings setting source name visits.reverse) := by
  generalize hall : v :: visits = all at hv
  induction hv generalizing v visits with
  | view =>
    cases hall
    refine ⟨fun content hcontent => ?_, fun _ => ⟨?_, rfl⟩⟩
    · simp [State.shared] at hcontent
    · simp
  | @parent w parent output before s hw hl hp hc ih =>
    cases hall
    have hdone := ih rfl
    have hload := (hw.attempt w rfl).load_eq_ok h hl
    have hnext := (hw.agrees h hfirst hdone).done output s.shared hload
    rw [renderEndings_reverse_cons]
    have hall := hdone.append hnext
    exact ⟨hall.clean, hall.unknown⟩

/-- Both sources evaluate what the render loads at the outermost level alike. -/
theorem Attempt.load_congr {t : String} {chain : List String} {s : State}
    (ha : Attempt setting view (t :: chain) s) :
    Stackless.load (source.bodies name Block.old) setting.fields setting.maxDepth 0 none t
        s.shared =
      Stackless.load (source.bodies name Block.new) setting.fields setting.maxDepth 0 none t
        s.shared := by
  obtain ⟨v, visits, hv, rfl, hnames⟩ := ha.exists_visited
  obtain ⟨rfl, -⟩ := List.cons.inj hnames
  exact (hv.agrees h hfirst (hv.done h hfirst)).eq

end

/-- What stands in blocks of a section has no part in the result, if the section ends first
elsewhere, with a text without a marker. -/
theorem render_overridden {store store' : Store} {source : Segments} {name : String}
    (h : store.HasBodies (source.bodies name Block.old))
    (h' : store'.HasBodies (source.bodies name Block.new)) (fields : Fields) (maxDepth : Nat)
    (view : String) (hfirst : DecidedFirst ⟨store, fields, maxDepth⟩ source name view) :
    result ⟨store, fields, maxDepth⟩ view = result ⟨store', fields, maxDepth⟩ view := by
  let setting : Setting := ⟨store, fields, maxDepth⟩
  let setting' : Setting := ⟨store', fields, maxDepth⟩
  have hfollows : Follows setting' (source.bodies name Block.new) setting view :=
    fun t chain s output s' ha hl => (ha.load_congr h hfirst).symm.trans (ha.load_eq_ok h hl)
  have hsame := result_eq_of_follows h' hfollows id fun t chain s e s' ha hl =>
    ⟨e, rfl, (ha.load_congr h hfirst).symm.trans (ha.load_eq_error h hl)⟩
  simpa only [mapError_id, Option.map_id'] using hsame

/-- A default text, in one source and in another. -/
def defaultBlock : Block where
  old := [.text "none"]
  new := [.text "nothing ", .field "name"]
  old_writes := by decide
  new_writes := by decide

/-- A page that says what its body is, for a layout with a default. -/
def bodyTemplates : List (String × List Segment) :=
  [("page", [.node (.beginSection "body"), .node (.text "hello"), .node .close,
      .node (.extend "layout")]),
    ("layout", [.node (.text "<"), .block defaultBlock, .node (.text ">")])]

/-- The templates of the page with these contents of the default. -/
def bodyStore (contents : Block → Body) : Store :=
  (MemoryStore.ofBodies (bodyTemplates.map fun (t, segments) =>
    (t, Segment.body "body" contents segments))).toStore

theorem bodyStore_hasBodies (contents : Block → Body) :
    (bodyStore contents).HasBodies ((Segments.ofList bodyTemplates).bodies "body" contents) :=
  Segments.bodies_ofList _ _ contents ▸ MemoryStore.ofBodies_hasBodies _

theorem render_overridden_default :
    DecidedFirst ⟨bodyStore Block.old, ∅, 2⟩ (.ofList bodyTemplates) "body" "page" ∧
      result ⟨bodyStore Block.old, ∅, 2⟩ "page" = some (.ok "<hello>") ∧
      result ⟨bodyStore Block.old, ∅, 2⟩ "page" = result ⟨bodyStore Block.new, ∅, 2⟩ "page" := by
  have hfirst : DecidedFirst ⟨bodyStore Block.old, ∅, 2⟩ (.ofList bodyTemplates) "body" "page" := by
    intro visits hv e he
    obtain ⟨rest, hrest⟩ := List.head?_eq_some_iff.1 (List.head?_reverse.trans hv.getLast?_eq)
    have hpage : (renderEndings ⟨bodyStore Block.old, ∅, 2⟩ (.ofList bodyTemplates) "body"
        visits.reverse).head? = some ⟨false, "hello"⟩ := by
      rw [hrest]
      rfl
    rw [hpage] at he
    cases he
    exact ⟨rfl, by decide⟩
  have hrender : result ⟨bodyStore Block.old, ∅, 2⟩ "page" = some (.ok "<hello>") := by
    rw [result, render, climb_of_parent rfl rfl (by decide), climb_of_page rfl rfl]
    rfl
  exact ⟨hfirst, hrender, render_overridden (bodyStore_hasBodies _) (bodyStore_hasBodies _) ∅ 2
    "page" hfirst⟩

end Render

end ViewTemplates
