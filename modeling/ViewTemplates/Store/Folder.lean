import ViewTemplates.Disk.Tree
import ViewTemplates.Store.Basic

/-!
# Templates in files

The template `name` of a folder is the file `name.extension` below it. Files are read anew each time
a template is looked for.
-/

set_option autoImplicit false

namespace ViewTemplates

open Disk Markup

/-- The extension of template files, unless another is chosen. -/
def defaultExtension : String := "html"

/-- A folder of template files. -/
structure FolderStore where
  /-- The folder. -/
  root : String
  /-- The extension of the files, without its point. -/
  extension : String := defaultExtension

namespace FolderStore

/-- The path of the file of a template. -/
def pathOf (folder : FolderStore) (name : String) : String :=
  Disk.join folder.root (name ++ "." ++ folder.extension)

/-- The template of a name. -/
def find (folder : FolderStore) (disk : Tree) (name : String) : Except Fault Template :=
  match disk.readText (folder.pathOf name) with
  | .ok text => Template.ofText name text
  | .error .notFound => .error (.templateNotFound name (folder.pathOf name))
  | .error e => .error (.unreadable (folder.pathOf name) (.plain e.message))

theorem find_eq_ok {folder : FolderStore} {disk : Tree} {name : String} {template : Template}
    (h : folder.find disk name = .ok template) :
    ∃ text body, disk.readText (folder.pathOf name) = .ok text ∧
      readNodes text.toList = .ok body ∧ template = .directives body := by
  unfold find at h
  split at h
  · rename_i text htext
    unfold Template.ofText at h
    cases hb : Body.ofText name text with
    | error => rw [hb] at h; cases h
    | ok body =>
      rw [hb] at h
      cases h
      exact ⟨text, body, htext, Body.ofText_eq_ok.1 hb, rfl⟩
  · cases h
  · cases h

/-- The template files as a store. -/
def toStore (folder : FolderStore) (disk : Tree) : Store where
  find := folder.find disk

/-- The views that a text asks to extend. -/
def textParents (text : String) : List String :=
  match readNodes text.toList with
  | .ok body => Body.parents body
  | .error _ => []

theorem boundedBy_textParents (folder : FolderStore) (disk : Tree) :
    (folder.toStore disk).BoundedBy (disk.texts.flatMap textParents) := by
  rintro parent _ ⟨name, template, hfind, hrun⟩ -
  obtain ⟨text, body, htext, hbody, rfl⟩ := find_eq_ok hfind
  obtain ⟨hmem⟩ := hrun
  refine List.mem_flatMap.2 ⟨text, Tree.mem_texts_of_readText htext, ?_⟩
  rw [textParents, hbody]
  exact Body.mem_parents.2 hmem

end FolderStore

end ViewTemplates
