import ViewTemplates.Store.Basic

/-!
# Templates in memory

Templates under their names. Texts are read when they are added.
-/

set_option autoImplicit false

namespace ViewTemplates

/-- Templates under their names. -/
structure MemoryStore where
  templates : Std.TreeMap String Template := ∅

namespace MemoryStore

/-- Adds a template, in the place of an earlier one of that name. -/
def add (store : MemoryStore) (name : String) (template : Template) : MemoryStore :=
  ⟨store.templates.insert name template⟩

/-- Adds the template that a text reads as. -/
def addText (store : MemoryStore) (name text : String) : Except Fault MemoryStore :=
  (Template.ofText name text).map (store.add name)

/-- The template of a name. -/
def find (store : MemoryStore) (name : String) : Except Fault Template :=
  match store.templates[name]? with
  | some template => .ok template
  | none => .error (.templateNotFound name "in memory")

theorem find_eq_ok {store : MemoryStore} {name : String} {template : Template} :
    store.find name = .ok template ↔ store.templates[name]? = some template := by
  unfold find
  split <;> simp_all

/-- The templates as a store. -/
def toStore (store : MemoryStore) : Store where
  find := store.find

theorem boundedBy_keys (store : MemoryStore) : store.toStore.BoundedBy store.templates.keys := by
  intro parent template _ hfind
  exact Std.TreeMap.mem_keys.2 (Std.TreeMap.mem_iff_isSome_getElem?.2
    (Option.isSome_iff_exists.2 ⟨template, find_eq_ok.1 hfind⟩))

/-- The names of the templates in a listing. -/
def describe (store : MemoryStore) : String :=
  "MemorySource \x7b templates: " ++ Text.bracket "[" (store.templates.keys.map Text.quote) "]" ++
    " \x7d"

end MemoryStore

end ViewTemplates
