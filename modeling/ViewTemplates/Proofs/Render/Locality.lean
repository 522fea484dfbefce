import Mathlib.Data.Set.Basic
import ViewTemplates.Proofs.Markup.Canonical
import ViewTemplates.Proofs.Render.Compare
import ViewTemplates.Proofs.Render.Success
import ViewTemplates.View

/-!
# Only the templates that a view reaches matter

A template mentions the templates that it includes and the views that it asks to extend. If two
sources agree on a set of names that is closed under mentioning, then a view of the set is rendered
alike from both, since no other name is ever looked up. The sources may say differently where a
template is missing, so faults are compared through a function `f` of faults, which may forget
something (`Fault.unlocated`).

* `load_mapError`: a load gives the same from both sources, as far as `f` tells. For this the set
  has to be closed under the partials only.
* `render_local`: so does a render. In particular templates that the view does not reach do not
  matter, and files that are read at each load give what their texts give when they are added to a
  memory store before.
-/

set_option autoImplicit false

namespace ViewTemplates

open Markup

/-- The fault without the place where a template was looked for. -/
def Fault.unlocated : Fault → Fault
  | templateNotFound name _ => templateNotFound name ""
  | e => e

/-- The body includes the template, or asks to extend it. -/
def Markup.Body.Mentions (body : Body) (name : String) : Prop :=
  .includePartial name ∈ body ∨ .extend name ∈ body

theorem Markup.Body.parents_eq_nil_iff {body : Body} :
    body.parents = [] ↔ ∀ node ∈ body, node.parent? = none :=
  List.filterMap_eq_nil_iff

namespace Render

open Stackless (evalNode evalBody endDraft)

/-! ## Loads -/

section
variable {ε : Type} {f : Fault → ε}

theorem cases_of_mapError_eq {α : Type} {x y : Except Fault α} (h : x.mapError f = y.mapError f) :
    (∃ a, x = .ok a ∧ y = .ok a) ∨ ∃ e e', x = .error e ∧ y = .error e' ∧ f e = f e' := by
  cases x with
  | ok a =>
    cases y with
    | ok b => exact .inl ⟨a, rfl, congrArg Except.ok (Except.ok.inj h).symm⟩
    | error => cases h
  | error e =>
    cases y with
    | ok => cases h
    | error e' => exact .inr ⟨e, e', rfl, rfl, Except.error.inj h⟩

theorem mapError_id {α : Type} (x : Except Fault α) : x.mapError id = x := by
  cases x <;> rfl

theorem eq_of_mapError_id {α : Type} {x y : Except Fault α} (h : x.mapError id = y.mapError id) :
    x = y := by
  rwa [mapError_id, mapError_id] at h

theorem mapError_bind_congr {α β : Type} {x y : Except Fault α} {g g' : α → Except Fault β}
    (h : x.mapError f = y.mapError f) (hg : ∀ a, (g a).mapError f = (g' a).mapError f) :
    (x >>= g).mapError f = (y >>= g').mapError f := by
  rcases cases_of_mapError_eq h with ⟨a, rfl, rfl⟩ | ⟨e, e', rfl, rfl, he⟩
  · exact hg a
  · exact congrArg Except.error he

section
variable {spec spec' : Option String → String → Shared → Except Fault (String × Shared)}
  {fields : Fields}

/-- Only the templates that a body includes matter to its evaluation. -/
theorem evalBody_mapError (foreign : Option String) {body : Body}
    (h : ∀ p, .includePartial p ∈ body → ∀ foreign k,
      (spec foreign p k).mapError f = (spec' foreign p k).mapError f) (x : Draft × Shared) :
    (evalBody spec fields foreign body x).mapError f =
      (evalBody spec' fields foreign body x).mapError f := by
  induction body generalizing x with
  | nil => rfl
  | cons node body ih =>
    have hnode : (evalNode spec fields foreign node x).mapError f =
        (evalNode spec' fields foreign node x).mapError f := by
      obtain ⟨d, k⟩ := x
      cases node with
      | includePartial p => exact mapError_bind_congr (h p (by simp) _ k) fun _ => rfl
      | comment | text | field | extend | beginSection | close | showSection => rfl
    exact mapError_bind_congr hnode (ih fun p hp => h p (by simp [hp]))

theorem evalBody_congr (foreign : Option String) {body : Body}
    (h : ∀ p, .includePartial p ∈ body → ∀ foreign k, spec foreign p k = spec' foreign p k)
    (x : Draft × Shared) :
    evalBody spec fields foreign body x = evalBody spec' fields foreign body x :=
  eq_of_mapError_id (evalBody_mapError foreign
    (fun p hp foreign k => congrArg (Except.mapError id) (h p hp foreign k)) x)

end

section
variable {bodies bodies' : Bodies} {names : Set String}
  (hsame : ∀ n ∈ names, (bodies n).mapError f = (bodies' n).mapError f)
include hsame

/-- A template that is loaded from sources with the same partials gives the same. -/
theorem load_mapError
    (hclosed : ∀ n ∈ names, ∀ body, bodies n = .ok body → ∀ p, .includePartial p ∈ body → p ∈ names)
    (fields : Fields) (maxDepth depth : Nat) (foreign : Option String) {name : String}
    (hname : name ∈ names) (k : Shared) :
    (Stackless.load bodies fields maxDepth depth foreign name k).mapError f =
      (Stackless.load bodies' fields maxDepth depth foreign name k).mapError f := by
  induction hn : maxDepth - depth using Nat.strongRecOn generalizing depth foreign name k with
  | ind n ih =>
    rw [Stackless.load, Stackless.load]
    by_cases hd : depth < maxDepth
    · rw [dif_pos hd, dif_pos hd]
      rcases cases_of_mapError_eq (hsame name hname) with ⟨body, hb, hb'⟩ | ⟨e, e', hb, hb', he⟩
      · rw [hb, hb']
        show (evalBody _ _ _ _ _ >>= endDraft name).mapError f =
          (evalBody _ _ _ _ _ >>= endDraft name).mapError f
        refine mapError_bind_congr (evalBody_mapError foreign (fun p hp foreign k => ?_) ({}, k))
          fun _ => rfl
        exact ih _ (by omega) (depth + 1) foreign (hclosed name hname body hb p hp) k rfl
      · rw [hb, hb']
        exact congrArg Except.error he
    · rw [dif_neg hd, dif_neg hd]

omit hsame in
theorem load_congr (hsame : ∀ n ∈ names, bodies n = bodies' n)
    (hclosed : ∀ n ∈ names, ∀ body, bodies n = .ok body → ∀ p, .includePartial p ∈ body → p ∈ names)
    (fields : Fields) (maxDepth depth : Nat) (foreign : Option String) {name : String}
    (hname : name ∈ names) (k : Shared) :
    Stackless.load bodies fields maxDepth depth foreign name k =
      Stackless.load bodies' fields maxDepth depth foreign name k :=
  eq_of_mapError_id (load_mapError (fun n hn => congrArg (Except.mapError id) (hsame n hn)) hclosed
    fields maxDepth depth foreign hname k)

/-! ## Renders -/

variable (hclosed : ∀ n ∈ names, ∀ body, bodies n = .ok body → ∀ m, body.Mentions m → m ∈ names)
include hclosed

omit hsame in
/-- The views that a body asks to extend, with its partials in their places, are names of the
set. -/
theorem Expands.parents_mem {body flat : Body} (h : Expands bodies body flat)
    (hbody : ∀ m, body.Mentions m → m ∈ names) : ∀ p ∈ Body.parents flat, p ∈ names := by
  induction h with
  | nil =>
    intro p hp
    cases hp
  | @plain node body flat _ _ ih =>
    intro p hp
    rcases List.mem_cons.1 (Body.mem_parents.1 hp) with rfl | hp
    · exact hbody p (.inr (by simp))
    · refine ih (fun m hm => hbody m ?_) p (Body.mem_parents.2 hp)
      exact hm.imp (List.mem_cons_of_mem _) (List.mem_cons_of_mem _)
  | @includePartial name inner innerFlat body flat hb _ _ ihInner ih =>
    intro p hp
    rw [Body.parents, List.filterMap_append] at hp
    rcases List.mem_append.1 hp with hp | hp
    · exact ihInner (hclosed name (hbody name (.inl (by simp))) inner hb) p hp
    · refine ih (fun m hm => hbody m ?_) p hp
      exact hm.imp (List.mem_cons_of_mem _) (List.mem_cons_of_mem _)

omit hsame in
/-- A render of a view of the set only comes to views of the set. -/
theorem Attempt.mem_of_closed {setting : Setting} (hs : setting.store.HasBodies bodies)
    {view : String} (hv : view ∈ names) {chain : List String} {s : State}
    (ha : Attempt setting view chain s) : ∀ name ∈ chain, name ∈ names := by
  induction ha with
  | view => simpa using hv
  | @parent name parent output chain s s' ha hl hp hnot ih =>
    refine List.forall_mem_cons.2 ⟨?_, ih⟩
    obtain ⟨body, flat, hb, hexpands, hlast⟩ := ha.lastExtension hs hl
    rw [hp] at hlast
    refine hexpands.parents_mem hclosed (hclosed name (ih name (by simp)) body hb) parent ?_
    exact List.mem_of_getLast? hlast

theorem render_mapError {store store' : Store} (hs : store.HasBodies bodies)
    (hs' : store'.HasBodies bodies') {view : String} (hv : view ∈ names) (fields : Fields)
    (maxDepth : Nat) :
    (result ⟨store, fields, maxDepth⟩ view).map (·.mapError f) =
      (result ⟨store', fields, maxDepth⟩ view).map (·.mapError f) := by
  have hload : ∀ name chain s, Attempt ⟨store, fields, maxDepth⟩ view (name :: chain) s →
      (Stackless.load bodies fields maxDepth 0 none name s.shared).mapError f =
        (Stackless.load bodies' fields maxDepth 0 none name s.shared).mapError f := by
    intro name chain s ha
    have hname : name ∈ names := ha.mem_of_closed hclosed hs hv name (by simp)
    exact load_mapError hsame (fun n hn body hb p hp => hclosed n hn body hb p (.inl hp)) fields
      maxDepth 0 none hname s.shared
  refine result_eq_of_follows hs' (fun name chain s output s' ha hl => ?_) f
    fun name chain s e s' ha hl => ?_
  · have hx := ha.load_eq_ok hs hl
    rcases cases_of_mapError_eq (hload name chain s ha) with ⟨x, h, h'⟩ | ⟨e, e', h, h', -⟩
    · exact h'.trans (h.symm.trans hx)
    · cases h.symm.trans hx
  · have hx := ha.load_eq_error hs hl
    rcases cases_of_mapError_eq (hload name chain s ha) with ⟨x, h, h'⟩ | ⟨e, e', h, h', he⟩
    · cases h.symm.trans hx
    · cases h.symm.trans hx
      exact ⟨e', he, h'⟩

end

end

/-! ## Sources that agree -/

/-- Both sources give the same body for the name, or neither finds it. -/
def SameTemplate (bodies bodies' : Bodies) (name : String) : Prop :=
  (∃ body, bodies name = .ok body ∧ bodies' name = .ok body) ∨
    ∃ location location', bodies name = .error (.templateNotFound name location) ∧
      bodies' name = .error (.templateNotFound name location')

theorem SameTemplate.mapError_eq {bodies bodies' : Bodies} {name : String}
    (h : SameTemplate bodies bodies' name) :
    (bodies name).mapError Fault.unlocated = (bodies' name).mapError Fault.unlocated := by
  rcases h with ⟨body, hb, hb'⟩ | ⟨location, location', hb, hb'⟩
  · rw [hb, hb']
  · rw [hb, hb']
    rfl

/-- The sources agree on the names, and the templates of these names mention no others. -/
structure AgreeOn (names : Set String) (bodies bodies' : Bodies) : Prop where
  same : ∀ n ∈ names, SameTemplate bodies bodies' n
  closed : ∀ n ∈ names, ∀ body, bodies n = .ok body → ∀ m, body.Mentions m → m ∈ names

/-- The names that a view comes to mention, by itself or through the templates it mentions. -/
inductive Reached (bodies : Bodies) (view : String) : String → Prop
  | view : Reached bodies view view
  | mentioned {n m : String} {body : Body} : Reached bodies view n → bodies n = .ok body →
      body.Mentions m → Reached bodies view m

/-- The renders have the same page, or the same fault but for the place where a template was looked
for. -/
def SameResult (setting setting' : Setting) (view : String) : Prop :=
  (result setting view).map (·.mapError Fault.unlocated) =
    (result setting' view).map (·.mapError Fault.unlocated)

theorem SameResult.symm {setting setting' : Setting} {view : String}
    (h : SameResult setting setting' view) : SameResult setting' setting view :=
  Eq.symm h

theorem SameResult.eq_ok {setting setting' : Setting} {view page : String}
    (h : SameResult setting setting' view) (hpage : result setting view = some (.ok page)) :
    result setting' view = some (.ok page) := by
  rw [SameResult, hpage, Option.map_some] at h
  obtain ⟨x, hx, hsame⟩ := Option.map_eq_some_iff.1 h.symm
  rcases cases_of_mapError_eq hsame with ⟨a, rfl, ha⟩ | ⟨e, e', -, he, -⟩
  · rw [hx, ha]
  · cases he

end Render

/-! ## Files and texts -/

/-- The bodies that the files of a folder read as. -/
def FolderStore.bodies (folder : FolderStore) (disk : Disk.Tree) : Bodies := fun name =>
  match disk.readText (folder.pathOf name) with
  | .ok text => Body.ofText name text
  | .error .notFound => .error (.templateNotFound name (folder.pathOf name))
  | .error e => .error (.unreadable (folder.pathOf name) (.plain e.message))

theorem FolderStore.toStore_hasBodies (folder : FolderStore) (disk : Disk.Tree) :
    (folder.toStore disk).HasBodies (folder.bodies disk) := by
  intro name
  show folder.find disk name = (folder.bodies disk name).map .directives
  unfold find bodies
  cases disk.readText (folder.pathOf name) with
  | ok text => rfl
  | error e => cases e <;> rfl

/-- The bodies that the texts of a list read as. The first one of a name counts. -/
def Bodies.ofTexts (texts : List (String × String)) : Bodies := fun name =>
  match texts.lookup name with
  | some text => Body.ofText name text
  | none => .error (.templateNotFound name "in memory")

/-- Adds the texts of a list to an empty store, the last one first. -/
def MemoryStore.ofTexts : List (String × String) → Except Fault MemoryStore
  | [] => .ok {}
  | (name, text) :: texts => do (← ofTexts texts).addText name text

theorem MemoryStore.addText_eq_ok {store store' : MemoryStore} {name text : String}
    (h : store.addText name text = .ok store') :
    ∃ body, Body.ofText name text = .ok body ∧ store' = store.add name (.directives body) := by
  unfold addText Template.ofText at h
  cases hb : Body.ofText name text with
  | error e =>
    rw [hb] at h
    cases h
  | ok body =>
    rw [hb] at h
    cases h
    exact ⟨body, rfl, rfl⟩

theorem MemoryStore.ofTexts_hasBodies {texts : List (String × String)} {store : MemoryStore}
    (h : ofTexts texts = .ok store) : store.toStore.HasBodies (.ofTexts texts) := by
  induction texts generalizing store with
  | nil =>
    cases h
    intro name
    simp [toStore, find, Bodies.ofTexts, Except.map]
  | cons head texts ih =>
    obtain ⟨n, text⟩ := head
    obtain ⟨rest, hrest, hadd⟩ := eq_ok_of_bind h
    obtain ⟨body, hbody, rfl⟩ := addText_eq_ok hadd
    intro name
    have hfind := ih hrest name
    simp only [toStore, find, add, Bodies.ofTexts, List.lookup_cons, Std.TreeMap.getElem?_insert,
      Std.LawfulEqCmp.compare_eq_iff_eq] at hfind ⊢
    by_cases hn : n = name
    · subst hn
      simp [hbody, Except.map]
    · have hne : (name == n) = false := beq_false_of_ne (Ne.symm hn)
      simpa [hn, hne] using hfind

/-- The files with these names hold the texts of the list, and there is none where the list has no
text. The texts mention no names but these. -/
structure FolderStore.Holds (folder : FolderStore) (disk : Disk.Tree)
    (texts : List (String × String)) (names : Set String) : Prop where
  file : ∀ n ∈ names, ∀ text, texts.lookup n = some text →
    disk.readText (folder.pathOf n) = .ok text
  missing : ∀ n ∈ names, texts.lookup n = none →
    disk.readText (folder.pathOf n) = .error .notFound
  closed : ∀ n ∈ names, ∀ text, texts.lookup n = some text → ∀ body,
    readNodes text.toList = .ok body → ∀ m, Body.Mentions body m → m ∈ names

theorem FolderStore.Holds.mapError_eq {folder : FolderStore} {disk : Disk.Tree}
    {texts : List (String × String)} {names : Set String} (h : folder.Holds disk texts names)
    {name : String} (hname : name ∈ names) :
    (folder.bodies disk name).mapError Fault.unlocated =
      (Bodies.ofTexts texts name).mapError Fault.unlocated := by
  unfold bodies Bodies.ofTexts
  cases ht : texts.lookup name with
  | some text => rw [h.file name hname text ht]
  | none =>
    rw [h.missing name hname ht]
    rfl

theorem FolderStore.Holds.mentions {folder : FolderStore} {disk : Disk.Tree}
    {texts : List (String × String)} {names : Set String} (h : folder.Holds disk texts names)
    {name : String} (hname : name ∈ names) {body : Body}
    (hb : folder.bodies disk name = .ok body) {m : String} (hm : body.Mentions m) : m ∈ names := by
  unfold bodies at hb
  cases ht : texts.lookup name with
  | some text =>
    rw [h.file name hname text ht] at hb
    exact h.closed name hname text ht body (Body.ofText_eq_ok.1 hb) m hm
  | none =>
    rw [h.missing name hname ht] at hb
    cases hb

namespace Render

/-- Only the templates that a view reaches matter to its result. Sources that agree on a closed set
of names render the views of the set alike; in particular it is enough that they agree on what the
view reaches, and files read at each load agree with their texts in memory. -/
theorem render_local (fields : Fields) (maxDepth : Nat) (view : String) :
    (∀ (store store' : Store) (bodies bodies' : Bodies) (names : Set String),
      store.HasBodies bodies → store'.HasBodies bodies' → view ∈ names →
      AgreeOn names bodies bodies' →
      SameResult ⟨store, fields, maxDepth⟩ ⟨store', fields, maxDepth⟩ view) ∧
    (∀ (store store' : Store) (bodies bodies' : Bodies),
      store.HasBodies bodies → store'.HasBodies bodies' →
      (∀ n, Reached bodies view n → SameTemplate bodies bodies' n) →
      SameResult ⟨store, fields, maxDepth⟩ ⟨store', fields, maxDepth⟩ view) ∧
    ∀ (folder : FolderStore) (disk : Disk.Tree) (texts : List (String × String))
      (memory : MemoryStore) (names : Set String),
      MemoryStore.ofTexts texts = .ok memory → view ∈ names → folder.Holds disk texts names →
      SameResult ⟨folder.toStore disk, fields, maxDepth⟩ ⟨memory.toStore, fields, maxDepth⟩
        view := by
  refine ⟨?_, ?_, ?_⟩
  · intro store store' bodies bodies' names hs hs' hv h
    exact render_mapError (fun n hn => (h.same n hn).mapError_eq) h.closed hs hs' hv fields maxDepth
  · intro store store' bodies bodies' hs hs' h
    have hclosed : ∀ n ∈ {n | Reached bodies view n}, ∀ body, bodies n = .ok body →
        ∀ m, body.Mentions m → m ∈ {n | Reached bodies view n} :=
      fun n hn body hb m hm => .mentioned hn hb hm
    exact render_mapError (fun n hn => (h n hn).mapError_eq) hclosed hs hs' .view fields maxDepth
  · intro folder disk texts memory names hm hv h
    exact render_mapError (fun n hn => h.mapError_eq hn) (fun n hn body hb m => h.mentions hn hb)
      (folder.toStore_hasBodies disk) (MemoryStore.ofTexts_hasBodies hm) hv fields maxDepth

/-- A page that includes a note. -/
def notedBody : Body := [.text "a", .includePartial "note"]

/-- The page and the note in files below the working folder. -/
def notedDisk : Disk.Tree :=
  (({ workingFolder := ["srv"] } : Disk.Tree).write "views/page.html" notedBody.print.toUTF8).write
    "views/note.html" "b".toUTF8

theorem render_local_noted :
    let names : Set String := {"page", "note", "aside"}
    let bodies : List (String × Body) := [("page", notedBody), ("note", [.text "b"])]
    let bodies' := bodies ++ [("draft", [.close])]
    let texts := [("page", notedBody.print), ("note", "b")]
    let store := (MemoryStore.ofBodies bodies).toStore
    let store' := (MemoryStore.ofBodies bodies').toStore
    "page" ∈ names ∧
      AgreeOn names (.ofList bodies) (.ofList bodies') ∧
      result ⟨store, ∅, 2⟩ "page" = some (.ok "ab") ∧
      result ⟨store', ∅, 2⟩ "page" = some (.ok "ab") ∧
      ∃ memory, MemoryStore.ofTexts texts = .ok memory ∧
        ∀ root ∈ ["views", "/srv/views"],
          FolderStore.Holds { root } notedDisk texts names ∧
          SameResult ⟨FolderStore.toStore { root } notedDisk, ∅, 2⟩ ⟨memory.toStore, ∅, 2⟩ "page" ∧
          result ⟨FolderStore.toStore { root } notedDisk, ∅, 2⟩ "page" = some (.ok "ab") := by
  intro names bodies bodies' texts store store'
  have hpage : Body.ofText "page" notedBody.print = .ok notedBody := ofText_print (by decide) "page"
  have hnote : Body.ofText "note" "b" = .ok [.text "b"] :=
    ofText_print (show Canonical [.text "b"] by decide) "note"
  have hv : "page" ∈ names := .inl rfl
  have hmentions : ∀ body ∈ [notedBody, [.text "b"]], ∀ m, Body.Mentions body m → m ∈ names := by
    intro body hbody m hm
    simp only [List.mem_cons, List.not_mem_nil, or_false] at hbody
    rcases hbody with rfl | rfl <;> simp [Body.Mentions, notedBody] at hm
    exact .inr (.inl hm)
  have hagree : AgreeOn names (.ofList bodies) (.ofList bodies') := by
    refine ⟨?_, fun n hn body hb => ?_⟩
    · rintro n (rfl | rfl | rfl)
      · exact .inl ⟨_, rfl, rfl⟩
      · exact .inl ⟨_, rfl, rfl⟩
      · exact .inr ⟨_, _, rfl, rfl⟩
    · exact hmentions body (List.mem_map_of_mem (f := Prod.snd) (Bodies.mem_of_ofList_eq_ok hb))
  have hholds : ∀ root ∈ ["views", "/srv/views"],
      FolderStore.Holds { root } notedDisk texts names := by
    intro root hroot
    simp only [List.mem_cons, List.not_mem_nil, or_false] at hroot
    refine ⟨?_, ?_, ?_⟩
    · rintro n (rfl | rfl | rfl) text ht <;> cases ht <;> rcases hroot with rfl | rfl <;>
        decide +kernel
    · rintro n (rfl | rfl | rfl) ht <;> cases ht
      rcases hroot with rfl | rfl <;> decide +kernel
    · rintro n (rfl | rfl | rfl) text ht body hb <;> cases ht
      · cases (Body.ofText_eq_ok.1 hpage).symm.trans hb
        exact hmentions _ (by simp)
      · cases (Body.ofText_eq_ok.1 hnote).symm.trans hb
        exact hmentions _ (by simp)
  have htexts : MemoryStore.ofTexts texts = .ok (.ofBodies bodies) := by
    simp [texts, bodies, MemoryStore.ofBodies, MemoryStore.ofTexts, MemoryStore.addText,
      Template.ofText, hpage, hnote, Except.map, bind, Except.bind]
  have hrender : result ⟨store, ∅, 2⟩ "page" = some (.ok "ab") := by
    rw [result, render, climb_of_page rfl rfl]
    rfl
  obtain ⟨hsame, -, hfiles⟩ := render_local ∅ 2 "page"
  have hstore : store.HasBodies (.ofList bodies) := MemoryStore.ofBodies_hasBodies _
  have hstore' : store'.HasBodies (.ofList bodies') := MemoryStore.ofBodies_hasBodies _
  have hpages := hsame store store' _ _ names hstore hstore' hv hagree
  refine ⟨hv, hagree, hrender, hpages.eq_ok hrender, _, htexts, fun root hroot => ?_⟩
  have hfile := hfiles { root } notedDisk _ _ names htexts hv (hholds root hroot)
  exact ⟨hholds root hroot, hfile, hfile.symm.eq_ok hrender⟩

end Render

end ViewTemplates
