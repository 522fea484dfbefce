import ViewTemplates.Proofs.Markup.Failure
import ViewTemplates.Proofs.Markup.Utf8

/-!
# Reading the bytes of a text

A reader of bytes: small parsers that take something off the front of some bytes, or give up with
notes on what they expected where. `firstOf` tries alternatives, and `Parser.cut` forbids to try
others. A name or a text is turned into characters only when it has been cut out (`textOf`).

Each class of bytes goes with a class of characters of the grammar (`Matches`). The bytes of a
character from 128 on are all plain and can all stand in an argument, and none of them is a blank or
can stand in a name.
-/

set_option autoImplicit false

namespace ViewTemplates.Markup.Bytes

open Utf8

/-! ## Parsers -/

/-- Why a parser gave up. -/
structure Failure where
  /-- No other alternative is tried. -/
  final : Bool
  /-- What was noted, the innermost first, with the bytes that were left there. A note without an
  expectation is not shown. -/
  notes : List (List UInt8 × Option Expectation)

/-- Adds a note from further out. -/
def Failure.note (f : Failure) (rest : List UInt8) (e : Option Expectation) : Failure :=
  { f with notes := f.notes ++ [(rest, e)] }

/-- What is shown of a failure, the outermost first. -/
def Failure.shown (f : Failure) : List (List UInt8 × Expectation) :=
  f.notes.reverse.filterMap fun (rest, e) => e.map (rest, ·)

/-- Takes something off the front of some bytes. -/
abbrev Parser (α : Type) := StateT (List UInt8) (Except Failure) α

section
variable {α : Type}

def refuse (e : Option Expectation) : Parser α := fun i => .error ⟨false, [(i, e)]⟩

/-- Takes a character of one byte. -/
def expect (c : Char) : Parser Unit := fun i =>
  match i with
  | b :: rest => if b = c.toUInt8 then .ok ((), rest) else refuse (some (.character c)) i
  | [] => refuse (some (.character c)) i

/-- Takes the bytes of a word. -/
def tag (word : List UInt8) : Parser Unit := fun i =>
  if word <+: i then .ok ((), i.drop word.length) else refuse none i

/-- Takes bytes of a class as long as there are any. -/
def takeWhile (q : UInt8 → Bool) : Parser (List UInt8) := fun i =>
  .ok (i.takeWhile q, i.dropWhile q)

/-- Takes one or more bytes of a class. -/
def takeWhile1 (q : UInt8 → Bool) : Parser (List UInt8) := fun i =>
  if i.takeWhile q = [] then refuse none i else .ok (i.takeWhile q, i.dropWhile q)

/-- The bytes from the first place on where a word stands. -/
def dropUntil? (word : List UInt8) : List UInt8 → Option (List UInt8)
  | [] => if word = [] then some [] else none
  | b :: rest => if word <+: b :: rest then some (b :: rest) else dropUntil? word rest

/-- Drops the bytes before a word. -/
def skipUntil (word : List UInt8) : Parser Unit := fun i =>
  match dropUntil? word i with
  | some rest => .ok ((), rest)
  | none => refuse none i

namespace Parser

/-- Forbids to try other alternatives. -/
def cut (p : Parser α) : Parser α := fun i => (p i).mapError fun f => { f with final := true }

/-- Says what a parser was to find. -/
def context (e : Expectation) (p : Parser α) : Parser α := fun i =>
  (p i).mapError (·.note i (some e))

end Parser

/-- The first alternative that does not give up. -/
def firstOf : List (Parser α) → Parser α
  | [], i => refuse none i
  | [p], i => (p i).mapError fun f => if f.final then f else f.note i none
  | p :: q :: ps, i =>
    match p i with
    | .ok r => .ok r
    | .error f => if f.final then .error f else firstOf (q :: ps) i

end

/-! ## Nodes -/

def isAlpha (b : UInt8) : Bool :=
  b ≥ 'A'.toUInt8 && b ≤ 'Z'.toUInt8 || b ≥ 'a'.toUInt8 && b ≤ 'z'.toUInt8

def isDigit (b : UInt8) : Bool := b ≥ '0'.toUInt8 && b ≤ '9'.toUInt8

def isNameStart (b : UInt8) : Bool := isAlpha b || b == '_'.toUInt8

def isNameRest (b : UInt8) : Bool := isAlpha b || isDigit b || b == '_'.toUInt8

def isBlank (b : UInt8) : Bool :=
  b == ' '.toUInt8 || b == '\t'.toUInt8 || b == '\r'.toUInt8 || b == '\n'.toUInt8

def isQuotable (b : UInt8) : Bool := b != '"'.toUInt8 && b != '\n'.toUInt8

def isPlain (b : UInt8) : Bool := b != '@'.toUInt8

/-- The text of bytes that were cut out. -/
def textOf (bytes : List UInt8) : String := String.ofList (decodeLossy bytes)

def comment : Parser Node := do
  tag (bytes "@*")
  Parser.context .commentEnd <| Parser.cut do
    skipUntil (bytes "*@")
    tag (bytes "*@")
  return .comment

def plain : Parser Node := do
  return .text (textOf (← takeWhile1 isPlain))

def name : Parser (List UInt8) := do
  let first ← takeWhile1 isNameStart
  let more ← takeWhile isNameRest
  return first ++ more

/-- Two characters with blanks between them. -/
def spaced (c d : Char) : Parser Unit := do
  expect c
  let _ ← takeWhile isBlank
  expect d

def argument : Parser String := do
  spaced '(' '"'
  let name ← takeWhile1 isQuotable
  spaced '"' ')'
  return textOf name

/-- The helper that a name is the keyword of. -/
def helper? (name : List UInt8) : Option Helper :=
  [.extend, .beginSection, .showSection, .includePartial].find? fun h => bytes h.keyword = name

def named : Parser Node := do
  let name ← name
  match helper? name with
  | some h => return h.node (← (argument.cut).context (.argument h))
  | none =>
    if name = bytes "close" then return .close
    else if name = bytes "parent" then return .text Section.marker
    else return .field (textOf name)

def directive : Parser Node :=
  firstOf [do expect '@'; return .text "@", named, return .text "@"]

def node : Parser Node :=
  firstOf [comment, plain, do expect '@'; directive]

/-- The failure of a node that was read but took nothing off the bytes. -/
def stuck (i : List UInt8) : Failure := ⟨false, [(i, none)]⟩

/-- Takes nodes until the bytes end. -/
def nodes (i : List UInt8) : Except Failure Body :=
  if i = [] then .ok []
  else
    match node i with
    | .error f => .error (if f.final then f else f.note i none)
    | .ok (node, rest) =>
      if rest.length < i.length then (nodes rest).map (node :: ·) else .error (stuck i)
  termination_by i.length

/-- Reads the bytes of a text, or says at which bytes of it what was expected. -/
def read (source : List UInt8) : Except (List (Nat × Expectation)) Body :=
  (nodes source).mapError fun f => f.shown.map fun (rest, e) => (source.length - rest.length, e)

/-! ## Classes of bytes and of characters -/

theorem matches_isAlpha : Matches isAlpha Char.isAlpha := by
  have hupper : Char.isUpper = fun c => c.val ≥ 'A'.val && c.val ≤ 'Z'.val :=
    funext fun _ => Bool.decide_and _ _
  show Matches isAlpha fun c => c.isUpper || c.isLower
  rw [hupper]
  exact ((matches_ge 'A' (by decide)).and (matches_le 'Z' (by decide))).or
    ((matches_ge 'a' (by decide)).and (matches_le 'z' (by decide)))

theorem matches_isDigit : Matches isDigit Char.isDigit :=
  (matches_ge '0' (by decide)).and (matches_le '9' (by decide))

theorem matches_isNameStart : Matches isNameStart Markup.isNameStart :=
  matches_isAlpha.or (matches_eq '_' (by decide))

theorem matches_isNameRest : Matches isNameRest Markup.isNameRest :=
  (matches_isAlpha.or matches_isDigit).or (matches_eq '_' (by decide))

theorem matches_isBlank : Matches isBlank Markup.isBlank :=
  (((matches_eq ' ' (by decide)).or (matches_eq '\t' (by decide))).or
    (matches_eq '\r' (by decide))).or (matches_eq '\n' (by decide))

theorem matches_isQuotable : Matches isQuotable Markup.isQuotable :=
  (matches_eq '"' (by decide)).not.and (matches_eq '\n' (by decide)).not

theorem matches_isPlain : Matches isPlain (· ≠ '@') := matches_ne '@' (by decide)

end ViewTemplates.Markup.Bytes
