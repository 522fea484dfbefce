import ViewTemplates.Text.Unprinted

/-!
# Quoted text

A text in a listing stands between quotes. Quotes and backslashes in it follow a backslash, a few
control characters have a letter of their own, and every other character without a printed form is
written by its number.
-/

set_option autoImplicit false

namespace ViewTemplates.Text

/-- How a character is written between quotes. -/
def escape (c : Char) : String :=
  match c with
  | '\x00' => "\\0"
  | '\t' => "\\t"
  | '\n' => "\\n"
  | '\r' => "\\r"
  | '"' => "\\\""
  | '\\' => "\\\\"
  | c =>
    if isUnprinted c then "\\u\x7b" ++ String.ofList (Nat.toDigits 16 c.toNat) ++ "\x7d"
    else String.singleton c

/-- A text between quotes. -/
def quote (text : String) : String :=
  "\"" ++ String.join (text.toList.map escape) ++ "\""

/-- Some texts, separated by commas, between brackets. -/
def bracket (left : String) (items : List String) (right : String) : String :=
  left ++ ", ".intercalate items ++ right

end ViewTemplates.Text
