import Mathlib.Data.List.Chain
import Mathlib.Data.List.Nodup
import ViewTemplates.Proofs.Render.Stackless

/-!
# When a render succeeds

Whether a view of directive templates can be rendered is seen from the templates alone, without the
fields and without any text. `wellFormed` scans a template and its partials for section calls that
are misplaced, and `LastExtension` gives the view that a template extends in the end.

* `render_ok_iff`: a render succeeds exactly if well-formed views extend each other up to one that
  extends none, and no view comes up twice (`ViewChain`).

A load without a stack succeeds exactly if the template is well formed (`isOk_load`), and leaves the
view of its last extension to be extended (`parent_load`). So the attempts of a render that succeeds
make up a chain of views (`Attempt.viewChain`). Where there is such a chain the attempts are a
beginning of it (`ViewChain.attempt_prefix`), so the render comes to an end.
-/

set_option autoImplicit false

namespace ViewTemplates.Render

open Markup
open Stackless (evalNode evalBody endDraft)

/-! ## Well-formed templates -/

section
variable (inner : Bool → String → Bool) (foreign : Bool)

/-- Scans a node: whether a section of the template is open after it if one was open before (`own`),
or nothing if the node is misplaced. A section of a template around this one may be open
(`foreign`); other templates are checked by `inner`. -/
def scanNode (own : Bool) : Node → Option Bool
  | .extend _ => if own then none else some own
  | .beginSection _ => if own || foreign then none else some true
  | .close => if own then some false else none
  | .includePartial name => if inner (own || foreign) name then some own else none
  | .comment | .text _ | .field _ | .showSection _ => some own

/-- Scans the nodes of a body in order. -/
def scanBody (own : Bool) : Body → Option Bool
  | [] => some own
  | node :: body => (scanNode inner foreign own node).bind fun own => scanBody own body

end

/-- Checks that a template can run `depth` levels deep, with or without an open section around it:
it is in the source, it and its partials do not misplace a section call, and its sections end. -/
def wellFormed (bodies : Bodies) (maxDepth depth : Nat) (foreign : Bool) (name : String) : Bool :=
  if _h : depth < maxDepth then
    match bodies name with
    | .ok body => scanBody (wellFormed bodies maxDepth (depth + 1)) foreign false body = some false
    | .error _ => false
  else false
  termination_by maxDepth - depth

/-- Whether a template captures a section after it was evaluated. -/
def capturing (x : Except Fault (Draft × Shared)) : Option Bool :=
  x.toOption.map fun (d, _) => d.capture.isSome

theorem Draft.isSome_capture_write (d : Draft) (text : String) :
    (d.write text).capture.isSome = d.capture.isSome := by
  unfold write
  split <;> simp [*]

theorem Draft.isSome_openName (d : Draft) (foreign : Option String) :
    (d.openName foreign).isSome = (d.capture.isSome || foreign.isSome) := by
  simp [openName]

section
variable {spec : Option String → String → Shared → Except Fault (String × Shared)}
  {inner : Bool → String → Bool} (fields : Fields)
  (hin : ∀ foreign p k, (spec foreign p k).isOk = inner foreign.isSome p)
include hin

theorem capturing_evalNode (foreign : Option String) (node : Node) (d : Draft) (k : Shared) :
    capturing (evalNode spec fields foreign node (d, k)) =
      scanNode inner foreign.isSome d.capture.isSome node := by
  cases node with
  | comment => rfl
  | text | field | showSection => exact congrArg some (d.isSome_capture_write _)
  | extend p => cases hc : d.capture <;> simp [evalNode, scanNode, capturing, hc, Except.toOption]
  | beginSection n =>
    rw [evalNode, scanNode, ← d.isSome_openName]
    cases d.openName foreign <;> rfl
  | close =>
    cases hc : d.capture <;> cases foreign <;>
      simp [evalNode, scanNode, capturing, hc, Except.toOption]
  | includePartial p =>
    have hp := hin (d.openName foreign) p k
    rw [evalNode, scanNode, ← d.isSome_openName, ← hp]
    cases spec (d.openName foreign) p k with
    | error e => rfl
    | ok x => exact congrArg some (d.isSome_capture_write _)

theorem capturing_evalBody (foreign : Option String) (body : Body) (d : Draft) (k : Shared) :
    capturing (evalBody spec fields foreign body (d, k)) =
      scanBody inner foreign.isSome d.capture.isSome body := by
  induction body generalizing d k with
  | nil => rfl
  | cons node body ih =>
    have hnode := capturing_evalNode fields hin foreign node d k
    rw [evalBody, scanBody, ← hnode]
    cases evalNode spec fields foreign node (d, k) with
    | error e => rfl
    | ok x => exact ih x.1 x.2

end

theorem isOk_endDraft (name : String) (x : Except Fault (Draft × Shared)) :
    (x >>= endDraft name).isOk = decide (capturing x = some false) := by
  cases x with
  | error e => rfl
  | ok x =>
    obtain ⟨d, k⟩ := x
    have hend : (Except.ok (d, k) >>= endDraft name) = endDraft name (d, k) := rfl
    cases hc : d.capture <;> simp [hend, endDraft, capturing, hc, Except.toOption, Except.isOk,
      Except.toBool]

section
variable (bodies : Bodies) (fields : Fields) (maxDepth : Nat)

/-- A template can be loaded exactly if it is well formed. -/
theorem isOk_load (depth : Nat) (foreign : Option String) (name : String) (k : Shared) :
    (Stackless.load bodies fields maxDepth depth foreign name k).isOk =
      wellFormed bodies maxDepth depth foreign.isSome name := by
  induction hn : maxDepth - depth using Nat.strongRecOn generalizing depth foreign name k with
  | ind n ih =>
    rw [Stackless.load, wellFormed]
    by_cases hd : depth < maxDepth
    · have hinner := fun foreign p k => ih _ (by omega) (depth + 1) foreign p k rfl
      rw [dif_pos hd, dif_pos hd]
      cases bodies name with
      | error e => rfl
      | ok body =>
        have hbody := capturing_evalBody fields hinner foreign body {} k
        dsimp only
        rw [← show _ = scanBody _ _ false body from hbody]
        exact isOk_endDraft name _
    · rw [dif_neg hd, dif_neg hd]
      rfl

end

/-! ## The last extension -/

/-- A body with the bodies of its partials in their places, and so on. -/
inductive Expands (bodies : Bodies) : Body → Body → Prop
  | nil : Expands bodies [] []
  | plain {node : Node} {body flat : Body} : (∀ name, node ≠ .includePartial name) →
      Expands bodies body flat → Expands bodies (node :: body) (node :: flat)
  | includePartial {name : String} {inner innerFlat body flat : Body} :
      bodies name = .ok inner → Expands bodies inner innerFlat → Expands bodies body flat →
      Expands bodies (.includePartial name :: body) (innerFlat ++ flat)

/-- The view that a template asks to extend last, by itself or by its partials, if there is one. -/
def LastExtension (bodies : Bodies) (name : String) (parent : Option String) : Prop :=
  ∃ body flat, bodies name = .ok body ∧ Expands bodies body flat ∧
    flat.parents.getLast? = parent

section
variable {bodies : Bodies}

theorem Expands.unique {body flat flat' : Body} (h : Expands bodies body flat)
    (h' : Expands bodies body flat') : flat = flat' := by
  induction h generalizing flat' with
  | nil =>
    cases h'
    rfl
  | plain hplain _ ih =>
    cases h' with
    | plain _ h' => rw [ih h']
    | includePartial => exact absurd rfl (hplain _)
  | includePartial hb _ _ ihInner ih =>
    cases h' with
    | plain hplain _ => exact absurd rfl (hplain _)
    | includePartial hb' hInner' h' =>
      cases hb.symm.trans hb'
      rw [ihInner hInner', ih h']

theorem LastExtension.unique {name : String} {p q : Option String}
    (hp : LastExtension bodies name p) (hq : LastExtension bodies name q) : p = q := by
  obtain ⟨body, flat, hb, he, rfl⟩ := hp
  obtain ⟨body', flat', hb', he', rfl⟩ := hq
  cases hb.symm.trans hb'
  rw [he.unique he']

theorem getLast?_parents_append (a b : Body) :
    (a ++ b).parents.getLast? = b.parents.getLast?.or a.parents.getLast? := by
  rw [Body.parents, List.filterMap_append, List.getLast?_append]
  rfl

theorem getLast?_parents_singleton (node : Node) :
    (Body.parents [node]).getLast? = node.parent? := by
  cases node <;> rfl

section
variable {spec : Option String → String → Shared → Except Fault (String × Shared)}
  {fields : Fields} {foreign : Option String} {d d' : Draft} {k k' : Shared}

/-- A node that includes no template leaves the view that it asks to extend, if it does. -/
theorem parent_evalNode {node : Node} (hplain : ∀ name, node ≠ .includePartial name)
    (h : evalNode spec fields foreign node (d, k) = .ok (d', k')) :
    k'.parent = node.parent?.or k.parent := by
  cases node with
  | comment | text | field | showSection =>
    cases h
    rfl
  | extend p =>
    rw [evalNode] at h
    split at h <;> cases h
    rfl
  | beginSection n =>
    rw [evalNode] at h
    split at h <;> cases h
    rfl
  | close =>
    simp only [evalNode] at h
    split at h
    · cases h
      rfl
    · split at h <;> cases h
  | includePartial p => exact absurd rfl (hplain p)

variable (hin : ∀ foreign name k output k', spec foreign name k = .ok (output, k') →
  ∃ body flat, bodies name = .ok body ∧ Expands bodies body flat ∧
    k'.parent = flat.parents.getLast?.or k.parent)
include hin

theorem parent_evalBody {body : Body}
    (h : evalBody spec fields foreign body (d, k) = .ok (d', k')) :
    ∃ flat, Expands bodies body flat ∧ k'.parent = flat.parents.getLast?.or k.parent := by
  induction body generalizing d k with
  | nil =>
    cases h
    exact ⟨[], .nil, rfl⟩
  | cons node body ih =>
    obtain ⟨⟨e, m⟩, hnode, hbody⟩ := eq_ok_of_bind h
    obtain ⟨flat, hflat, hk⟩ := ih hbody
    by_cases hplain : ∀ name, node ≠ .includePartial name
    · refine ⟨node :: flat, .plain hplain hflat, ?_⟩
      rw [hk, parent_evalNode hplain hnode, ← List.singleton_append, getLast?_parents_append,
        getLast?_parents_singleton, Option.or_assoc]
    · obtain ⟨name, rfl⟩ : ∃ name, node = .includePartial name := by simpa using hplain
      obtain ⟨⟨output, k₁⟩, hload, hwrite⟩ := eq_ok_of_bind hnode
      cases hwrite
      obtain ⟨inner, innerFlat, hb, hinner, hparent⟩ := hin _ _ _ _ _ hload
      refine ⟨innerFlat ++ flat, .includePartial hb hinner hflat, ?_⟩
      rw [hk, hparent, getLast?_parents_append, Option.or_assoc]

end

/-- A load leaves the view of the last extension to be extended. -/
theorem parent_load {fields : Fields} {maxDepth depth : Nat} {foreign : Option String}
    {name output : String} {k k' : Shared}
    (h : Stackless.load bodies fields maxDepth depth foreign name k = .ok (output, k')) :
    ∃ body flat, bodies name = .ok body ∧ Expands bodies body flat ∧
      k'.parent = flat.parents.getLast?.or k.parent := by
  induction hn : maxDepth - depth using Nat.strongRecOn
    generalizing depth foreign name output k k' with
  | ind n ih =>
    obtain ⟨hd, body, hb, hbody⟩ := exists_evalBody_of_load h
    obtain ⟨flat, hflat, hk⟩ := parent_evalBody (fun _ _ _ _ _ h => ih _ (by omega) h rfl) hbody
    exact ⟨body, flat, hb, hflat, hk⟩

end

/-! ## Chains of views -/

/-- The views of a chain extend each other, from `view` on to one that extends none. They are well
formed, and none comes up twice. -/
structure ViewChain (bodies : Bodies) (maxDepth : Nat) (view : String) (chain : List String) :
    Prop where
  head : chain.head? = some view
  extension : chain.IsChain fun t p => LastExtension bodies t (some p)
  last : ∀ t ∈ chain.getLast?, LastExtension bodies t none
  nodup : chain.Nodup
  wellFormed : ∀ t ∈ chain, wellFormed bodies maxDepth 0 false t

section
variable {setting : Setting} {bodies : Bodies} {view name : String} {chain : List String}
  {s s' : State}

section
variable (h : setting.store.HasBodies bodies)
include h

theorem Attempt.wellFormed_iff (ha : Attempt setting view (name :: chain) s) :
    wellFormed bodies setting.maxDepth 0 false name ↔
      ∃ output s', (load setting name).run s = .ok output s' := by
  have hok := isOk_load bodies setting.fields setting.maxDepth 0 none name s.shared
  rw [← show _ = wellFormed _ _ 0 false name from hok]
  cases hl : (load setting name).run s with
  | ok output s' => simp [ha.load_eq_ok h hl, Except.isOk, Except.toBool]
  | error e s' => simp [ha.load_eq_error h hl, Except.isOk, Except.toBool]

theorem Attempt.lastExtension {output : String} (ha : Attempt setting view (name :: chain) s)
    (hl : (load setting name).run s = .ok output s') : LastExtension bodies name s'.parent := by
  obtain ⟨body, flat, hb, he, hp⟩ := parent_load (ha.load_eq_ok h hl)
  have hnone : s.shared.parent = none := ha.parent_eq_none
  rw [hnone, Option.or_none] at hp
  exact ⟨body, flat, hb, he, hp.symm⟩

/-- The views of an attempt extend each other, and all but the latest are well formed. -/
theorem Attempt.climbed (ha : Attempt setting view chain s) :
    chain.getLast? = some view ∧ (chain.IsChain fun p t => LastExtension bodies t (some p)) ∧
      chain.Nodup ∧ ∀ t ∈ chain.tail, wellFormed bodies setting.maxDepth 0 false t := by
  induction ha with
  | view => exact ⟨rfl, .singleton _, List.nodup_singleton _, nofun⟩
  | @parent name p _ before _ s' ha hl hp hnot ih =>
    obtain ⟨hview, hext, hnodup, hwf⟩ := ih
    have hlast : LastExtension bodies name (some p) := hp ▸ ha.lastExtension h hl
    have hname := (ha.wellFormed_iff h).2 ⟨_, _, hl⟩
    refine ⟨hview, .cons_cons hlast hext, List.nodup_cons.2 ⟨hnot, hnodup⟩, ?_⟩
    exact List.forall_mem_cons.2 ⟨hname, hwf⟩

/-- An attempt that gives a page is at the end of a chain of views. -/
theorem Attempt.viewChain {output : String} (ha : Attempt setting view (name :: chain) s)
    (hl : (load setting name).run s = .ok output s') (hp : s'.parent = none) :
    ViewChain bodies setting.maxDepth view (name :: chain).reverse := by
  obtain ⟨hview, hext, hnodup, hwf⟩ := ha.climbed h
  refine ⟨List.head?_reverse.trans hview, List.isChain_reverse.2 hext, fun t ht => ?_,
    List.nodup_reverse.2 hnodup, fun t ht => ?_⟩
  · rw [List.getLast?_reverse, List.head?_cons, Option.mem_some] at ht
    exact ht ▸ hp ▸ ha.lastExtension h hl
  · have hname := (ha.wellFormed_iff h).2 ⟨_, _, hl⟩
    rcases List.mem_cons.1 (List.mem_reverse.1 ht) with rfl | ht
    · exact hname
    · exact hwf t ht

end

section
variable {maxDepth : Nat} {views before : List String}

/-- The view that the last one of a beginning of the chain extends is the next of the chain. -/
theorem ViewChain.next (hv : ViewChain bodies maxDepth view views) {p : String}
    (hpre : before ++ [name] <+: views) (hext : LastExtension bodies name (some p)) :
    before ++ [name] ++ [p] <+: views := by
  obtain ⟨rest, rfl⟩ := hpre
  cases rest with
  | nil =>
    have hlast := hv.last name (by simp)
    cases hext.unique hlast
  | cons q rest =>
    have hq : LastExtension bodies name (some q) := by
      have hchain := hv.extension
      rw [List.append_assoc, List.singleton_append, List.isChain_split] at hchain
      exact (List.isChain_cons_cons.1 hchain.2).1
    cases hext.unique hq
    exact ⟨rest, by simp⟩

/-- The attempts of a render follow the chain of views. -/
theorem ViewChain.attempt_prefix (hv : ViewChain bodies setting.maxDepth view views)
    (h : setting.store.HasBodies bodies) (ha : Attempt setting view chain s) :
    chain.reverse <+: views := by
  induction ha with
  | view =>
    obtain ⟨rest, hrest⟩ := List.head?_eq_some_iff.1 hv.head
    exact ⟨rest, hrest.symm⟩
  | @parent name p _ before _ s' ha hl hp _ ih =>
    have hlast : LastExtension bodies name (some p) := hp ▸ ha.lastExtension h hl
    rw [List.reverse_cons] at ih
    rw [List.reverse_cons, List.reverse_cons]
    exact hv.next ih hlast

/-- Where there is a chain of views, the render comes to an end. -/
theorem ViewChain.isSome_render (hv : ViewChain bodies setting.maxDepth view views)
    (h : setting.store.HasBodies bodies) : (render setting view).isSome := by
  cases hr : render setting view with
  | some outcome => rfl
  | none =>
    obtain ⟨name, chain, s, ha, hlen⟩ := render_eq_none_iff.1 hr views.length
    have hle := (hv.attempt_prefix h ha).length_le
    rw [List.length_reverse, List.length_cons, hlen] at hle
    exact absurd hle (Nat.not_succ_le_self _)

end

/-- A render of directive templates succeeds exactly if there is a chain of views. -/
theorem render_ok_iff (h : setting.store.HasBodies bodies) (view : String) :
    (∃ page s, render setting view = some (.ok page s)) ↔
      ∃ views, ViewChain bodies setting.maxDepth view views := by
  constructor
  · rintro ⟨page, s', hr⟩
    obtain ⟨name, chain, s, ha, hends⟩ := render_cases hr
    cases hends with
    | page hl hp => exact ⟨_, ha.viewChain h hl hp⟩
  · rintro ⟨views, hv⟩
    obtain ⟨outcome, hr⟩ := Option.isSome_iff_exists.1 (hv.isSome_render h)
    obtain ⟨name, chain, s, ha, hends⟩ := render_cases hr
    have hpre := hv.attempt_prefix h ha
    have hname := hv.wellFormed name (hpre.subset (by simp))
    obtain ⟨output, s', hl⟩ := (ha.wellFormed_iff h).1 hname
    cases hends with
    | fault hl' => cases hl.symm.trans hl'
    | page hl' _ => exact ⟨_, _, hr⟩
    | @cycle p _ _ hl' hp hmem =>
      have hlast : LastExtension bodies name (some p) := hp ▸ ha.lastExtension h hl'
      -- the chain goes on with `p`, so `p` was not loaded before
      rw [List.reverse_cons] at hpre
      have hnodup := hv.nodup.sublist (hv.next hpre hlast).sublist
      rw [← List.reverse_cons, ← List.reverse_cons, List.nodup_reverse] at hnodup
      exact absurd hmem (List.nodup_cons.1 hnodup).1

end

theorem render_ok_iff_page :
    (MemoryStore.ofBodies pageTemplates).toStore.HasBodies (.ofList pageTemplates) ∧
      ∃ views, ViewChain (.ofList pageTemplates) 2 "page" views := by
  have h := MemoryStore.ofBodies_hasBodies pageTemplates
  let setting : Setting := ⟨(MemoryStore.ofBodies pageTemplates).toStore, ∅, 2⟩
  have hrender : ∃ page s, render setting "page" = some (.ok page s) := by
    rw [render, climb_of_parent rfl rfl (by decide), climb_of_page rfl rfl]
    exact ⟨_, _, rfl⟩
  exact ⟨h, (@render_ok_iff setting _ h "page").1 hrender⟩

end ViewTemplates.Render
