import ViewTemplates.Render.Chain
import ViewTemplates.Store.Folder
import ViewTemplates.Store.Memory

/-!
# Views

`Views` say where templates are found and how deep they may run inside each other. A `View` is the
name of a template to begin with and the fields for it. Rendering a view gives its page, or in the
place of the page a diagnostic of what went wrong.
-/

set_option autoImplicit false

namespace ViewTemplates

open Disk Render

inductive Catalog
  | memory (store : MemoryStore)
  | folder (store : FolderStore)

/-- The store of a catalog, given the files on the disk. -/
def Catalog.toStore (disk : Tree) : Catalog → Store
  | memory store => store.toStore
  | folder store => store.toStore disk

theorem Catalog.toStore_bounded (catalog : Catalog) (disk : Tree) :
    (catalog.toStore disk).Bounded := by
  cases catalog with
  | memory store => exact ⟨_, store.boundedBy_keys⟩
  | folder store => exact ⟨_, store.boundedBy_textParents disk⟩

/-- How deep templates run inside each other unless another limit is chosen. -/
def defaultMaxDepth : Nat := 32

/-- Where templates are found, and how deep they may run inside each other. -/
structure Views where
  catalog : Catalog
  maxDepth : Nat := defaultMaxDepth

/-- A view to render. -/
structure View where
  catalog : Catalog
  maxDepth : Nat
  name : String
  fields : Fields := ∅

namespace Views

/-- Views from the template files of a folder. -/
def ofFolder (root : String) : Views :=
  { catalog := .folder { root } }

/-- The text of an environment variable, or `default` if it is not set. -/
def variableText (environment : String → Option ByteArray) (name default : String) :
    Except Fault String :=
  match environment name with
  | none => .ok default
  | some bytes =>
    match String.fromUTF8? bytes with
    | some text => .ok text
    | none => .error (.environment name)

/-- Views from the template files of the folder `VIEW_PATH` with the extension `VIEW_EXTENSION`. -/
def ofEnvironment (environment : String → Option ByteArray) : Except Fault Views := do
  let root ← variableText environment "VIEW_PATH" "views"
  let extension ← variableText environment "VIEW_EXTENSION" defaultExtension
  return { catalog := .folder { root, extension } }

/-- The view of a name, without fields. -/
def view (views : Views) (name : String) : View :=
  { catalog := views.catalog, maxDepth := views.maxDepth, name }

/-- The views in a listing. -/
def describe (views : Views) : String :=
  "Views \x7b max_depth: " ++ views.maxDepth.repr ++ ", .. \x7d"

end Views

namespace View

/-- Sets a field, in the place of an earlier value. -/
def set (view : View) (name : String) (value : Value) : View :=
  { view with fields := view.fields.insert name value }

/-- The value of a field. -/
def field? (view : View) (name : String) : Option Value :=
  view.fields[name]?

/-- What stays the same while the view is rendered. -/
def setting (view : View) (disk : Tree) : Setting :=
  { store := view.catalog.toStore disk, fields := view.fields, maxDepth := view.maxDepth }

/-- Renders the view, and gives the page or a fault together with the state of the render. -/
def tryRender (view : View) (disk : Tree) : Outcome :=
  Render.renderBounded (view.setting disk) (view.catalog.toStore_bounded disk) view.name

/-- Every render of a view has an outcome, and this is it. -/
theorem render_eq_tryRender (view : View) (disk : Tree) :
    Render.render (view.setting disk) view.name = some (view.tryRender disk) :=
  render_eq_renderBounded (view.catalog.toStore_bounded disk) view.name

/-- The page of the view, or the diagnostic of the fault. -/
def render (view : View) (disk : Tree) : String :=
  match view.tryRender disk with
  | .ok page _ => page
  | .error fault _ => fault.diagnostic

/-- The bytes of the page that go into `room` bytes, and whether all of them did. -/
def renderInto (view : View) (disk : Tree) (room : Nat) : ByteArray × Bool :=
  let bytes := (view.render disk).toUTF8
  (bytes.extract 0 room, bytes.size ≤ room)

/-- The view in a listing. -/
def describe (view : View) : String :=
  "View \x7b name: " ++ Text.quote view.name ++ ", fields: " ++ view.fields.describe ++ ", .. \x7d"

end View

end ViewTemplates
