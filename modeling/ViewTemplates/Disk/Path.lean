/-!
# Paths

A path is a text of components between slashes. Joining looks at the text alone; what the components
lead to is a matter of the disk.
-/

set_option autoImplicit false

namespace ViewTemplates.Disk

/-- Whether a path begins at the root of all files. -/
def isAbsolute (path : String) : Bool :=
  path.toList.head? = some '/'

/-- The path `path` as seen from `folder`. A path that is absolute by itself stays as it is, and a
slash is put in between only where both sides need one. -/
def join (folder path : String) : String :=
  if isAbsolute path then path
  else if folder.toList.getLast?.all (· = '/') then folder ++ path
  else folder ++ "/" ++ path

/-- The components of a text: what stands between slashes, also where nothing does. -/
def splitChars : List Char → List (List Char)
  | [] => [[]]
  | '/' :: rest => [] :: splitChars rest
  | c :: rest =>
    match splitChars rest with
    | [] => [[c]]
    | first :: others => (c :: first) :: others

/-- The components of a path. -/
def components (path : String) : List String :=
  (splitChars path.toList).map String.ofList

/-- One component further from a place: `..` goes up, but not above the root of all files, `.` and
an empty component stay, and a name goes down. -/
def step (here : List String) (name : String) : List String :=
  if name = "" ∨ name = "." then here
  else if name = ".." then here.dropLast
  else here ++ [name]

end ViewTemplates.Disk
