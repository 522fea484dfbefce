import ViewTemplates.Disk.Path

/-!
# Files and folders

A disk holds all files and folders below the root. One of the folders is the working folder:
absolute paths begin at the root, and relative ones at the working folder.

Reading a file follows its path component by component: `.` and an empty component stay, `..` goes
up, and a name goes into the folder or the file of that name. Only a folder can be gone on from.
-/

set_option autoImplicit false

namespace ViewTemplates.Disk

/-- What stands at a place. -/
inductive Entry
  | folder
  | file (bytes : ByteArray)

/-- Files and folders by their places. A place is the list of names that lead to it from the root of
all files. -/
structure Tree where
  /-- The place where relative paths begin. A folder stands there, and at each place on the way. -/
  workingFolder : List String := ["work"]
  /-- All entries, the newest first. -/
  entries : List (List String × Entry) := []

/-- Why a file cannot be read. -/
inductive ReadFault
  | notFound
  | notFolder
  | isFolder
  | nameTooLong
  | nulInName
  | notText
  deriving DecidableEq, Repr

/-- The words of a read fault. -/
def ReadFault.message : ReadFault → String
  | notFound => "No such file or directory (os error 2)"
  | notFolder => "Not a directory (os error 20)"
  | isFolder => "Is a directory (os error 21)"
  | nameTooLong => "File name too long (os error 36)"
  | nulInName => "file name contained an unexpected NUL byte"
  | notText => "stream did not contain valid UTF-8"

/-- The longest name of a file or folder, in bytes. -/
def maxName : Nat := 255

/-- The longest path, in bytes. -/
def maxPath : Nat := 4095

namespace Tree

/-- What stands at a place. -/
def find? (tree : Tree) (place : List String) : Option Entry :=
  if place <+: tree.workingFolder then some .folder else tree.entries.lookup place

/-- Removes what stands at a place. -/
def erase (tree : Tree) (place : List String) : Tree :=
  { tree with entries := tree.entries.filter (·.1 ≠ place) }

/-- Puts an entry at a place. -/
def put (tree : Tree) (place : List String) (entry : Entry) : Tree :=
  { tree with entries := (place, entry) :: (tree.erase place).entries }

/-- Adds a folder at a place where nothing stands. -/
def addFolder (tree : Tree) (place : List String) : Tree :=
  if (tree.find? place).isSome then tree else tree.put place .folder

/-- Goes on from the folder `here` along some components, and adds the folders that are missing on
the way. -/
def addFolders (tree : Tree) (here : List String) : List String → Tree
  | [] => tree
  | name :: names =>
    let next := step here name
    (tree.addFolder next).addFolders next names

/-- Where a path begins. -/
def start (tree : Tree) (path : String) : List String :=
  if isAbsolute path then [] else tree.workingFolder

/-- The place that a path leads to if all its folders exist. -/
def place (tree : Tree) (path : String) : List String :=
  (components path).foldl step (tree.start path)

/-- Adds the folder of a path and all folders on the way to it. -/
def makeFolder (tree : Tree) (path : String) : Tree :=
  tree.addFolders (tree.start path) (components path)

/-- Writes the file of a path and the folders that lead to it. -/
def write (tree : Tree) (path : String) (bytes : ByteArray) : Tree :=
  (tree.addFolders (tree.start path) (components path).dropLast).put (tree.place path) (.file bytes)

/-- Removes the file of a path. -/
def remove (tree : Tree) (path : String) : Tree :=
  tree.erase (tree.place path)

/-- One component further from a folder, to a place where something stands. -/
def enter (tree : Tree) (here : List String) (name : String) : Except ReadFault (List String) :=
  if maxName < name.utf8ByteSize then .error .nameTooLong
  else if (tree.find? (step here name)).isSome then .ok (step here name)
  else .error .notFound

/-- Goes along the components of a path. -/
def walk (tree : Tree) (here : List String) : List String → Except ReadFault (List String)
  | [] => .ok here
  | name :: names =>
    match tree.find? here with
    | some .folder => do tree.walk (← tree.enter here name) names
    | _ => .error .notFolder

/-- The place that a path leads to. -/
def locate (tree : Tree) (path : String) : Except ReadFault (List String) :=
  if path.toList.contains '\x00' then .error .nulInName
  else if maxPath < path.utf8ByteSize then .error .nameTooLong
  else tree.walk (tree.start path) (components path)

/-- The bytes of the file at a place. -/
def bytesAt (tree : Tree) (place : List String) : Except ReadFault ByteArray :=
  match tree.find? place with
  | some (.file bytes) => .ok bytes
  | some .folder => .error .isFolder
  | none => .error .notFound

/-- The text that the bytes of a file encode. -/
def decode (bytes : ByteArray) : Except ReadFault String :=
  match String.fromUTF8? bytes with
  | some text => .ok text
  | none => .error .notText

/-- The text of the file that a path leads to. -/
def readText (tree : Tree) (path : String) : Except ReadFault String := do
  decode (← tree.bytesAt (← tree.locate path))

/-- The texts of all files. -/
def texts (tree : Tree) : List String :=
  tree.entries.filterMap fun
    | (_, .file bytes) => String.fromUTF8? bytes
    | (_, .folder) => none

theorem mem_of_find?_file {tree : Tree} {place : List String} {bytes : ByteArray}
    (h : tree.find? place = some (.file bytes)) : (place, .file bytes) ∈ tree.entries := by
  unfold find? at h
  split at h
  · cases h
  · obtain ⟨_, _, hl, _⟩ := List.lookup_eq_some_iff.1 h
    rw [hl]
    simp

theorem bytesAt_eq_ok {tree : Tree} {place : List String} {bytes : ByteArray}
    (h : tree.bytesAt place = .ok bytes) : (place, .file bytes) ∈ tree.entries := by
  unfold bytesAt at h
  split at h <;> cases h
  exact mem_of_find?_file ‹_›

/-- A text that can be read is the text of a file of the tree. -/
theorem mem_texts_of_readText {tree : Tree} {path text : String}
    (h : tree.readText path = .ok text) : text ∈ tree.texts := by
  simp only [readText, bind, Except.bind] at h
  split at h
  · cases h
  split at h
  · cases h
  rename_i bytes hbytes
  unfold decode at h
  split at h <;> cases h
  rename_i htext
  exact List.mem_filterMap.2 ⟨_, bytesAt_eq_ok hbytes, htext⟩

end Tree

end ViewTemplates.Disk
