import ViewTemplates.Markup.Node

/-!
# Complaints about a template text

A complaint says what was expected at some place of a text. It is shown as a block of two lines: the
line of the text that holds the place, and a caret under the place with the expectation.
-/

set_option autoImplicit false

namespace ViewTemplates.Markup

/-- What a template text lacks at some place. -/
inductive Expectation
  | commentEnd
  | argument (helper : Helper)
  | character (c : Char)
  deriving DecidableEq, Repr

/-- The words of an expectation. -/
def Expectation.message : Expectation → String
  | commentEnd => "Unterminated comment"
  | argument h => "Expected (\"" ++ h.argument ++ "\") after @" ++ h.keyword
  | character c => "Expected '" ++ String.singleton c ++ "'"

/-- An expectation at a place, given by the text from the place to the end. -/
structure Complaint where
  rest : List Char
  expectation : Expectation
  deriving DecidableEq, Repr

/-- The line of a text around the place between `before` and `rest`: its number, counted from one,
the part of it before the place, and the part after. -/
structure Line where
  number : Nat
  left : List Char
  right : List Char
  deriving DecidableEq, Repr

/-- The line around the place between `before` and `rest`. -/
def Line.around (before rest : List Char) : Line where
  number := before.count '\n' + 1
  left := (before.reverse.takeWhile (· ≠ '\n')).reverse
  right := rest.takeWhile (· ≠ '\n')

/-- Blanks before a text that is shorter than `width`. -/
def padLeft (width : Nat) (text : String) : String :=
  String.ofList (List.replicate (width - text.length) ' ') ++ text

/-- The two lines that show a message under a place of a line. -/
def Line.block (line : Line) (message : String) : String :=
  padLeft 4 line.number.repr ++ ":" ++ String.ofList (line.left ++ line.right) ++ "\n" ++
    String.ofList (List.replicate (5 + line.left.length) ' ') ++ "^ " ++ message ++ "\n"

/-- The part of `source` before the place of a complaint. -/
def Complaint.before (source : List Char) (c : Complaint) : List Char :=
  source.take (source.length - c.rest.length)

/-- The block of a complaint about `source`. -/
def Complaint.block (source : List Char) (c : Complaint) : String :=
  (Line.around (c.before source) c.rest).block c.expectation.message

/-- The blocks of some complaints about `source`, one after the other. -/
def report (source : List Char) (complaints : List Complaint) : String :=
  String.join (complaints.map (·.block source))

end ViewTemplates.Markup
