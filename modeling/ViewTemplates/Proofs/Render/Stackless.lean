import ViewTemplates.Proofs.Render.Frame
import ViewTemplates.Store.Memory

/-!
# Rendering without a stack

Directive templates can be evaluated without scopes, the place of the open section and counters. A
template has an output and at most one section of its own (`Draft`); of the templates around it, it
only knows the name of the section that one of them captures. The sections and the view to be
extended are handed on (`Shared`). `Stackless.load` evaluates a template, and `Stackless.render` a
view and the views that it extends.

* `loadWithin_refines`: a load on the stack gives what the evaluation gives, the same text or the
  same fault. The proof follows the evaluation: each node does to the scopes what it does to the
  draft (`runNode_refines`).
* `stackless_render`: so does a whole render. In particular the one comes to an end if the other
  does.
-/

set_option autoImplicit false

namespace ViewTemplates

open Markup

/-- A source of directive templates: the body of each name. -/
abbrev Bodies := String → Except Fault Body

/-- The templates of the store are directive templates with these bodies. -/
def Store.HasBodies (store : Store) (bodies : Bodies) : Prop :=
  ∀ name, store.find name = (bodies name).map .directives

/-- The bodies of a list. The first one of a name counts. -/
def Bodies.ofList (templates : List (String × Body)) : Bodies := fun name =>
  match templates.lookup name with
  | some body => .ok body
  | none => .error (.templateNotFound name "in memory")

theorem Bodies.mem_of_ofList_eq_ok {templates : List (String × Body)} {name : String} {body : Body}
    (h : ofList templates name = .ok body) : (name, body) ∈ templates := by
  cases hl : templates.lookup name with
  | none => simp [ofList, hl] at h
  | some found =>
    obtain rfl : found = body := by simpa [ofList, hl] using h
    obtain ⟨before, after, rfl, -⟩ := List.lookup_eq_some_iff.1 hl
    exact List.mem_append_right _ List.mem_cons_self

/-- The directive templates of a list in memory. The first one of a name counts. -/
def MemoryStore.ofBodies (templates : List (String × Body)) : MemoryStore :=
  templates.foldr (fun (name, body) store => store.add name (.directives body)) {}

theorem MemoryStore.ofBodies_hasBodies (templates : List (String × Body)) :
    (ofBodies templates).toStore.HasBodies (.ofList templates) := by
  induction templates with
  | nil =>
    intro name
    simp [ofBodies, toStore, find, Bodies.ofList, Except.map]
  | cons head templates ih =>
    obtain ⟨n, body⟩ := head
    intro name
    have hrest := ih name
    simp only [toStore, find, ofBodies, List.foldr_cons, add, Bodies.ofList, List.lookup_cons,
      Std.TreeMap.getElem?_insert, Std.LawfulEqCmp.compare_eq_iff_eq] at hrest ⊢
    by_cases hn : n = name
    · simp [hn, Except.map]
    · have hb : (name == n) = false := beq_false_of_ne (Ne.symm hn)
      simpa [hn, hb] using hrest

namespace Render

/-! ## The evaluation -/

/-- The content of a section. One that was never closed has none. -/
def Shared.content (k : Shared) (name : String) : String := (k.sections[name]?).getD ""

/-- The content of a section after a close that captured some text. -/
def Shared.merged (k : Shared) (name captured : String) : String :=
  match k.sections[name]? with
  | some stored => Section.merge stored captured
  | none => captured

/-- The name of the open section, if the template captures none itself then the one that a template
around it captures. -/
def Draft.openName (d : Draft) (foreign : Option String) : Option String :=
  (d.capture.map (·.name)).or foreign

namespace Stackless

section
variable (loader : Option String → String → Shared → Except Fault (String × Shared))
  (fields : Fields) (foreign : Option String)

/-- Evaluates a node. Other templates are evaluated by `loader`; `foreign` names the section that a
template around this one captures. -/
def evalNode : Node → Draft × Shared → Except Fault (Draft × Shared)
  | .comment, (d, k) => .ok (d, k)
  | .text text, (d, k) => .ok (d.write text, k)
  | .field name, (d, k) => .ok (d.write (fields.display name), k)
  | .extend parent, (d, k) =>
    match d.capture with
    | some c => .error (.misplaced (.extendInside parent c.name))
    | none => .ok ({ d with output := "" }, { k with parent := some parent })
  | .beginSection name, (d, k) =>
    match d.openName foreign with
    | some current => .error (.misplaced (.alreadyOpen current name))
    | none => .ok ({ d with capture := some ⟨name, ""⟩ }, k)
  | .close, (d, k) =>
    match d.capture with
    | some c =>
      let content := k.merged c.name c.text
      .ok (⟨d.output ++ content, none⟩, { k with sections := k.sections.insert c.name content })
    | none =>
      match foreign with
      | some name => .error (.misplaced (.foreignClose name))
      | none => .error (.misplaced .notOpen)
  | .showSection name, (d, k) => .ok (d.write (k.content name), k)
  | .includePartial name, (d, k) => do
    let (output, k') ← loader (d.openName foreign) name k
    return (d.write output, k')

/-- Evaluates the nodes of a body, one after the other. -/
def evalBody : Body → Draft × Shared → Except Fault (Draft × Shared)
  | [], x => .ok x
  | node :: body, x => do evalBody body (← evalNode loader fields foreign node x)

theorem evalBody_append (a b : Body) (x : Draft × Shared) :
    evalBody loader fields foreign (a ++ b) x =
      evalBody loader fields foreign a x >>= evalBody loader fields foreign b := by
  induction a generalizing x with
  | nil => rfl
  | cons node a ih =>
    rw [List.cons_append, evalBody, evalBody, bind_assoc]
    exact congrArg _ (funext ih)

end

/-- How far the evaluation of a view has come: the view to be evaluated next, and those `before` it
in order. -/
structure Climb where
  before : List String
  name : String
  shared : Shared

section
variable (bodies : Bodies) (fields : Fields) (maxDepth : Nat)

/-- What a template gives when it ends. It must have ended the section that it captured. -/
def endDraft (name : String) : Draft × Shared → Except Fault (String × Shared)
  | (d, k) =>
    match d.capture with
    | some c => .error (.misplaced (.neverClosed c.name name))
    | none => .ok (d.output, k)

/-- Evaluates the template of a name, `depth` levels deep. -/
def load (depth : Nat) (foreign : Option String) (name : String) (k : Shared) :
    Except Fault (String × Shared) :=
  if _h : depth < maxDepth then do
    let body ← bodies name
    let x ← evalBody (load (depth + 1)) fields foreign body ({}, k)
    endDraft name x
  else .error (.nestedTooDeep name maxDepth)
  termination_by maxDepth - depth

/-- Evaluates a view. What comes next is the result, or the view that it extends. -/
def climbStep (x : Climb) : Except Fault String ⊕ Climb :=
  match load bodies fields maxDepth 0 none x.name x.shared with
  | .error e => .inl (.error e)
  | .ok (output, k) =>
    match k.parent with
    | none => .inl (.ok output)
    | some parent =>
      if parent ∈ x.before ++ [x.name] then
        .inl (.error (.extendCycle (x.before ++ [x.name, parent])))
      else .inr ⟨x.before ++ [x.name], parent, { k with parent := none }⟩

/-- Evaluates the view of a name, then the view that it extends, and so on. There is no result if
this does not come to an end. -/
noncomputable def render (view : String) : Option (Except Fault String) :=
  iterate? (climbStep bodies fields maxDepth) ⟨[], view, {}⟩

end

end Stackless

/-- A load that succeeds is within the limit, and its template ends all its sections. -/
theorem exists_evalBody_of_load {bodies : Bodies} {fields : Fields} {maxDepth depth : Nat}
    {foreign : Option String} {name output : String} {k k' : Shared}
    (h : Stackless.load bodies fields maxDepth depth foreign name k = .ok (output, k')) :
    depth < maxDepth ∧ ∃ body, bodies name = .ok body ∧
      Stackless.evalBody (Stackless.load bodies fields maxDepth (depth + 1)) fields foreign body
        ({}, k) = .ok (⟨output, none⟩, k') := by
  rw [Stackless.load] at h
  by_cases hd : depth < maxDepth
  · rw [dif_pos hd] at h
    obtain ⟨body, hb, h⟩ := eq_ok_of_bind h
    obtain ⟨⟨⟨out, capture⟩, k₁⟩, hbody, hend⟩ := eq_ok_of_bind h
    cases capture with
    | some c => cases hend
    | none =>
      cases hend
      exact ⟨hd, body, hb, hbody⟩
  · rw [dif_neg hd] at h
    cases h

/-! ## Runs that refine evaluations -/

/-- The run ended as the evaluation did: with results related by `R`, or with the same fault. -/
inductive Refines {α β : Type} (R : α → State → β → Prop) :
    EStateM.Result Fault State α → Except Fault β → Prop
  | ok {a : α} {s : State} {b : β} : R a s b → Refines R (.ok a s) (.ok b)
  | error {e : Fault} {s : State} : Refines R (.error e s) (.error e)

namespace Refines

variable {α β α' β' : Type} {R : α → State → β → Prop} {R' : α' → State → β' → Prop}

theorem bind {run : Run α} {next : α → Run α'} {spec : Except Fault β}
    {specNext : β → Except Fault β'} {s : State} (h : Refines R (run.run s) spec)
    (hnext : ∀ a t b, R a t b → Refines R' ((next a).run t) (specNext b)) :
    Refines R' ((run >>= next).run s) (spec >>= specNext) := by
  rw [EStateM.run_bind]
  generalize run.run s = r at h
  cases h with
  | ok hr => exact hnext _ _ _ hr
  | error => exact .error

theorem of_ok {a : α} {s : State} {spec : Except Fault β} (h : Refines R (.ok a s) spec) :
    ∃ b, spec = .ok b ∧ R a s b := by
  cases h with
  | ok hr => exact ⟨_, rfl, hr⟩

theorem of_spec_ok {r : EStateM.Result Fault State α} {b : β} (h : Refines R r (.ok b)) :
    ∃ a s, r = .ok a s ∧ R a s b := by
  cases h with
  | ok hr => exact ⟨_, _, rfl, hr⟩

theorem of_error {e : Fault} {s : State} {spec : Except Fault β} (h : Refines R (.error e s) spec) :
    spec = .error e := by
  cases h with
  | error => rfl

theorem of_spec_error {r : EStateM.Result Fault State α} {e : Fault} (h : Refines R r (.error e)) :
    ∃ s, r = .error e s := by
  cases h with
  | error => exact ⟨_, rfl⟩

end Refines

/-- The name of the open section. -/
def State.openName (s : State) : Option String := s.openSection.map (·.name)

/-- The template `name`, begun in the state `base`, has come to the draft and the shared part that
were evaluated. -/
def Reaches (base : State) (name : String) (_ : Unit) (s : State) (x : Draft × Shared) : Prop :=
  Within base name x.1 s ∧ s.shared = x.2

/-- A load from the state `base` has given the text and the shared part that were evaluated. -/
def Gives (base : State) (output : String) (s : State) (x : String × Shared) : Prop :=
  output = x.1 ∧ SameFrame base s ∧ s.shared = x.2

section
variable {loader : String → Run String} {fields : Fields} {base s : State} {name : String}
  {d : Draft} {spec : Option String → String → Shared → Except Fault (String × Shared)}

open Stackless

theorem Within.openName (h : Within base name d s) : s.openName = d.openName base.openName :=
  h.openSection_name

section
variable (hb : base.SectionInside)
  (hl : ∀ p t, t.SectionInside → Refines (Gives t) ((loader p).run t) (spec t.openName p t.shared))
include hb hl

theorem runNode_refines (h : Within base name d s) (node : Node) :
    Refines (Reaches base name) ((runNode loader fields node).run s)
      (evalNode spec fields base.openName node (d, s.shared)) := by
  cases node with
  | comment => exact .ok ⟨h, rfl⟩
  | text text => exact .ok ⟨h.write text, rfl⟩
  | field n => exact .ok ⟨h.write _, rfl⟩
  | showSection n => exact .ok ⟨h.write _, rfl⟩
  | extend parent =>
    rw [runNode, evalNode]
    cases hc : d.capture with
    | some c => exact h.extend_of_some hb hc parent ▸ .error
    | none =>
      obtain ⟨s', he, hw, hk⟩ := h.extend hb hc parent
      rw [hc] at hw
      exact he ▸ .ok ⟨hw, hk⟩
  | beginSection n =>
    rw [runNode, evalNode, ← h.openName]
    cases ho : s.openSection with
    | some o =>
      simp only [State.openName, ho, Option.map_some]
      exact State.beginSection_of_some ho n ▸ .error
    | none =>
      simp only [State.openName, ho, Option.map_none]
      obtain ⟨s', he, hw, hk⟩ := h.beginSection ho n
      exact he ▸ .ok ⟨hw, hk⟩
  | close =>
    rw [runNode_close, EStateM.run_bind]
    cases hc : d.capture with
    | some c =>
      obtain ⟨s', he, hw, hk⟩ := h.close hc
      simp only [he, evalNode, hc]
      exact .ok ⟨hw, hk⟩
    | none =>
      have he := h.close_of_none hb hc
      cases ho : base.openSection with
      | some o =>
        simp only [he, evalNode, hc, State.openName, ho, Option.map_some]
        exact .error
      | none =>
        simp only [he, evalNode, hc, State.openName, ho, Option.map_none]
        exact .error
  | includePartial p =>
    -- the partial sees the section that is open here, whichever template captures it
    rw [runNode, evalNode, ← h.openName]
    refine .bind (hl p s (h.sectionInside hb)) ?_
    rintro output t x ⟨rfl, hframe, hk⟩
    exact .ok ⟨(h.of_sameFrame hframe).write _, hk⟩

theorem runBody_refines (h : Within base name d s) (body : Body) :
    Refines (Reaches base name) ((runBody loader fields body).run s)
      (evalBody spec fields base.openName body (d, s.shared)) := by
  induction body generalizing d s with
  | nil => exact .ok ⟨h, rfl⟩
  | cons node body ih =>
    refine .bind (runNode_refines hb hl h node) fun _ t ⟨d', k'⟩ ⟨hw, hk⟩ => ?_
    obtain rfl : t.shared = k' := hk
    exact ih hw

end

/-- A template run in a scope of its own gives what it gives at its end without a stack. -/
theorem framed_refines {run : Run Unit} {x : Except Fault (Draft × Shared)}
    (hb : base.SectionInside) (h : Refines (Reaches base name) (run.run (base.enter name)) x) :
    Refines (Gives base) ((Run.framed name run).run base) (x >>= endDraft name) := by
  rw [Run.run_framed]
  generalize run.run (base.enter name) = r at h
  cases h with
  | error => exact .error
  | @ok _ s x hr =>
    obtain ⟨d, k⟩ := x
    obtain ⟨hw, hk⟩ := hr
    have hun : s.unclosed? base.height = _ := hw.unclosed? hb
    simp only [hun]
    cases hc : d.capture with
    | some c =>
      have hend : endDraft name (d, k) = .error (.misplaced (.neverClosed c.name name)) := by
        rw [endDraft, hc]
      exact (show (Except.ok (d, k) >>= endDraft name) = _ from hend) ▸ .error
    | none =>
      obtain ⟨s', hs', hframe, hshared⟩ := hw.closeScope hc
      have hend : endDraft name (d, k) = .ok (d.output, k) := by rw [endDraft, hc]
      simp only [Option.map_none, hs']
      exact (show (Except.ok (d, k) >>= endDraft name) = _ from hend) ▸
        .ok ⟨rfl, hframe, hshared.trans hk⟩

end

/-! ## Loads and renders -/

section
variable {setting : Setting} {bodies : Bodies} (h : setting.store.HasBodies bodies)
include h

/-- A load with room for `levels` templates gives what the evaluation gives that is as many levels
short of the limit. -/
theorem loadWithin_refines {levels depth : Nat} (hd : setting.maxDepth - depth = levels)
    (name : String) {s : State} (hs : s.SectionInside) :
    Refines (Gives s) ((loadWithin setting levels name).run s)
      (Stackless.load bodies setting.fields setting.maxDepth depth s.openName name s.shared) := by
  induction levels generalizing depth name s with
  | zero =>
    rw [Stackless.load, dif_neg (by omega)]
    exact .error
  | succ levels ih =>
    rw [Stackless.load, dif_pos (by omega), loadWithin, h name]
    cases bodies name with
    | error e => exact .error
    | ok body =>
      exact framed_refines hs (runBody_refines hs (fun p t ht => ih (by omega) p ht)
        (.enter s name) body)

/-- A load gives what the evaluation gives that is as deep as templates run. -/
theorem load_refines (name : String) {s : State} (hs : s.SectionInside) :
    Refines (Gives s) ((load setting name).run s)
      (Stackless.load bodies setting.fields setting.maxDepth s.loading.length s.openName name
        s.shared) :=
  loadWithin_refines h rfl name hs

/-- A load at the outermost level of a render. -/
theorem Attempt.load_refines {view name : String} {chain : List String} {s : State}
    (ha : Attempt setting view (name :: chain) s) :
    Refines (Gives s) ((load setting name).run s)
      (Stackless.load bodies setting.fields setting.maxDepth 0 none name s.shared) := by
  have hr := Render.load_refines h name ha.idle.sectionInside
  rwa [State.openName, ha.idle.openSection, ha.idle.loading] at hr

theorem Attempt.load_eq_ok {view name output : String} {chain : List String} {s s' : State}
    (ha : Attempt setting view (name :: chain) s) (hl : (load setting name).run s = .ok output s') :
    Stackless.load bodies setting.fields setting.maxDepth 0 none name s.shared =
      .ok (output, s'.shared) := by
  have hr := ha.load_refines h
  rw [hl] at hr
  obtain ⟨x, hx, rfl, -, hk⟩ := hr.of_ok
  rw [hx, hk]

theorem Attempt.exists_load {view name output : String} {chain : List String} {s : State}
    {k : Shared} (ha : Attempt setting view (name :: chain) s)
    (hx : Stackless.load bodies setting.fields setting.maxDepth 0 none name s.shared =
      .ok (output, k)) :
    ∃ s', (load setting name).run s = .ok output s' ∧ s'.shared = k := by
  have hr := ha.load_refines h
  rw [hx] at hr
  obtain ⟨_, s', hl, rfl, -, hk⟩ := hr.of_spec_ok
  exact ⟨s', hl, hk⟩

theorem Attempt.load_eq_error {view name : String} {e : Fault} {chain : List String}
    {s s' : State} (ha : Attempt setting view (name :: chain) s)
    (hl : (load setting name).run s = .error e s') :
    Stackless.load bodies setting.fields setting.maxDepth 0 none name s.shared = .error e := by
  have hr := ha.load_refines h
  rw [hl] at hr
  exact hr.of_error

theorem Attempt.exists_load_error {view name : String} {e : Fault} {chain : List String} {s : State}
    (ha : Attempt setting view (name :: chain) s)
    (hx : Stackless.load bodies setting.fields setting.maxDepth 0 none name s.shared = .error e) :
    ∃ s', (load setting name).run s = .error e s' := by
  have hr := ha.load_refines h
  rw [hx] at hr
  exact hr.of_spec_error

/-- An attempt that the render goes on from is evaluated to a view that is to be extended. -/
theorem Attempt.stackless_eq {view name parent output : String} {chain : List String}
    {s s' : State} (ha : Attempt setting view (name :: chain) s)
    (hl : (load setting name).run s = .ok output s') (hp : s'.parent = some parent)
    (hnot : parent ∉ name :: chain) :
    Stackless.climbStep bodies setting.fields setting.maxDepth ⟨chain.reverse, name, s.shared⟩ =
      .inr ⟨(name :: chain).reverse, parent, s'.takeParent.shared⟩ := by
  have hnot : parent ∉ (name :: chain).reverse := mt List.mem_reverse.1 hnot
  rw [Stackless.climbStep, ha.load_eq_ok h hl, ← List.reverse_cons]
  simp only [show s'.shared.parent = some parent from hp, if_neg hnot]
  rfl

/-- The evaluation of an attempt that ends the render gives what the render gives. -/
theorem Attempt.Ends.stackless_eq {view name : String} {chain : List String} {s : State}
    {outcome : Outcome} (ha : Attempt setting view (name :: chain) s)
    (hends : Attempt.Ends setting name chain s outcome) :
    Stackless.climbStep bodies setting.fields setting.maxDepth ⟨chain.reverse, name, s.shared⟩ =
      .inl (resultOf outcome) := by
  cases hends with
  | fault hl => rw [Stackless.climbStep, ha.load_eq_error h hl, resultOf_error]
  | @page output s' hl hp =>
    rw [Stackless.climbStep, ha.load_eq_ok h hl, resultOf_ok]
    simp only [show s'.shared.parent = none from hp]
  | @cycle parent output s' hl hp hc =>
    have hc : parent ∈ (name :: chain).reverse := List.mem_reverse.2 hc
    rw [Stackless.climbStep, ha.load_eq_ok h hl, resultOf_error, ← List.reverse_cons]
    simp only [show s'.shared.parent = some parent from hp, if_pos hc]
    simp

/-- A render of directive templates gives what the evaluation without a stack gives. The one comes
to an end exactly if the other does. -/
theorem stackless_render (view : String) :
    Stackless.render bodies setting.fields setting.maxDepth view = result setting view := by
  have hstart : Attempt setting view [view] {} := .view
  refine iterate?_of_simulation (R := fun x y => Attempt setting view (x.name :: x.before) x.state ∧
    y = ⟨x.before.reverse, x.name, x.state.shared⟩) ?_ ?_ ⟨hstart, rfl⟩
  · rintro x _ outcome ⟨ha, rfl⟩ hx
    exact (climbStep_eq_inl_iff.1 hx).stackless_eq h ha
  · rintro x _ next ⟨ha, rfl⟩ hx
    have ha' := ha.next hx
    obtain ⟨parent, _, s', hl, hp, hnot, rfl⟩ := climbStep_eq_inr hx
    exact ⟨_, ha.stackless_eq h hl hp hnot, ha', rfl⟩

end

/-- Sources whose views are evaluated alike, step by step, give the same result. -/
theorem result_eq_of_climbStep_eq {store store' : Store} {bodies bodies' : Bodies}
    (hs : store.HasBodies bodies) (hs' : store'.HasBodies bodies') (fields : Fields)
    (maxDepth : Nat)
    (h : Stackless.climbStep bodies fields maxDepth = Stackless.climbStep bodies' fields maxDepth)
    (view : String) :
    result ⟨store, fields, maxDepth⟩ view = result ⟨store', fields, maxDepth⟩ view := by
  have hr := @stackless_render ⟨store, fields, maxDepth⟩ bodies hs view
  have hr' := @stackless_render ⟨store', fields, maxDepth⟩ bodies' hs' view
  rw [← hr, ← hr', Stackless.render, Stackless.render, h]

/-- A page with a section, for a layout that shows it, with a note inside of the section. -/
def pageTemplates : List (String × Body) :=
  [("page", [.beginSection "body", .includePartial "note", .close, .extend "layout"]),
    ("note", [.text "hello"]), ("layout", [.text "-- ", .showSection "body"])]

theorem stackless_render_page :
    (MemoryStore.ofBodies pageTemplates).toStore.HasBodies (.ofList pageTemplates) ∧
      Stackless.render (.ofList pageTemplates) ∅ 2 "page" = some (.ok "-- hello") := by
  have h := MemoryStore.ofBodies_hasBodies pageTemplates
  let setting : Setting := ⟨(MemoryStore.ofBodies pageTemplates).toStore, ∅, 2⟩
  have hrender : result setting "page" = some (.ok "-- hello") := by
    rw [result, render, climb_of_parent rfl rfl (by decide), climb_of_page rfl rfl]
    rfl
  exact ⟨h, hrender ▸ @stackless_render setting _ h "page"⟩

end Render

end ViewTemplates
