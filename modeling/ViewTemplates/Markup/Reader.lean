import ViewTemplates.Markup.Complaint
import ViewTemplates.Section.Marker

/-!
# Reading a template text

`Node.read` takes one node off a text that is not empty, and `readNodes` takes nodes off until the
text ends. A node is read from left to right without going back:

* `@*` begins a comment, which goes on to the first `*@`;
* `@@` is the character `@`, and so is an `@` that begins nothing else;
* `@` and a name, as long as the name goes, is a helper with its argument, the end of a section, the
  parent marker as text, or a field;
* all else is text up to the next `@`.

Reading fails at the first comment without an end or helper without a well-formed argument. It then
gives the complaints about that place, the most general one first.
-/

set_option autoImplicit false

namespace ViewTemplates.Markup

/-- What one reading step gives: a result and the text after it, or complaints. -/
abbrev Reading (α : Type) := Except (List Complaint) (α × List Char)

/-- The characters that can begin a name. -/
def isNameStart (c : Char) : Bool := c.isAlpha || c == '_'

/-- The characters that can go on a name. -/
def isNameRest (c : Char) : Bool := c.isAlphanum || c == '_'

/-- The characters that may stand beside a quoted argument. -/
def isBlank (c : Char) : Bool := c == ' ' || c == '\t' || c == '\r' || c == '\n'

/-- The characters that can stand in a quoted argument. -/
def isQuotable (c : Char) : Bool := c != '"' && c != '\n'

/-- The text after the first `*@`. -/
def afterComment? : List Char → Option (List Char)
  | [] => none
  | '*' :: '@' :: rest => some rest
  | _ :: rest => afterComment? rest

/-- Takes one expected character off a text. -/
def readChar (c : Char) (text : List Char) : Except (List Complaint) (List Char) :=
  match text with
  | d :: rest => if d = c then .ok rest else .error [⟨text, .character c⟩]
  | [] => .error [⟨text, .character c⟩]

/-- Takes a quoted name in parentheses off a text. A missing parenthesis or quote is complained
about where it is missing; an empty name is no argument either, but there is nothing to point at. -/
def readArgument (text : List Char) : Except (List Complaint) (String × List Char) := do
  let quoted ← readChar '(' text
  let body ← readChar '"' (quoted.dropWhile isBlank)
  if body.takeWhile isQuotable = [] then
    throw []
  let rest ← readChar '"' (body.dropWhile isQuotable)
  let rest ← readChar ')' (rest.dropWhile isBlank)
  return (String.ofList (body.takeWhile isQuotable), rest)

/-- The node that begins with `@` and the name `word`, with `rest` after the name. -/
def readNamed (word : String) (rest : List Char) : Reading Node :=
  match Helper.ofKeyword? word with
  | some helper =>
    match readArgument rest with
    | .ok (name, rest) => .ok (helper.node name, rest)
    | .error complaints => .error (⟨rest, .argument helper⟩ :: complaints)
  | none =>
    if word = "close" then .ok (.close, rest)
    else if word = "parent" then .ok (.text Section.marker, rest)
    else .ok (.field word, rest)

/-- The node that begins with an `@` before `rest`. -/
def readDirective (rest : List Char) : Reading Node :=
  match rest with
  | [] => .ok (.text "@", [])
  | '*' :: rest =>
    match afterComment? rest with
    | some rest => .ok (.comment, rest)
    | none => .error [⟨rest, .commentEnd⟩]
  | '@' :: rest => .ok (.text "@", rest)
  | c :: cs =>
    if isNameStart c then
      readNamed (String.ofList (c :: cs.takeWhile isNameRest)) (cs.dropWhile isNameRest)
    else
      .ok (.text "@", rest)

/-- The first node of the text `c :: cs`. -/
def Node.read (c : Char) (cs : List Char) : Reading Node :=
  if c = '@' then readDirective cs
  else .ok (.text (String.ofList (c :: cs.takeWhile (· ≠ '@'))), cs.dropWhile (· ≠ '@'))

/-! ## Reading goes forward -/

theorem length_dropWhile_le {α : Type} (p : α → Bool) (l : List α) :
    (l.dropWhile p).length ≤ l.length :=
  (List.dropWhile_suffix p).length_le

theorem afterComment?_length {text rest : List Char} (h : afterComment? text = some rest) :
    rest.length < text.length := by
  fun_induction afterComment? text with
  | case1 => cases h
  | case2 => cases h; exact Nat.lt_succ_of_lt (Nat.lt_succ_self _)
  | case3 _ _ _ ih => exact Nat.lt_succ_of_lt (ih h)

theorem readChar_ok {c : Char} {text rest : List Char} (h : readChar c text = .ok rest) :
    text = c :: rest := by
  unfold readChar at h
  split at h
  · split at h
    · cases h; simp_all
    · cases h
  · cases h

theorem eq_ok_of_bind {ε α β : Type} {x : Except ε α} {f : α → Except ε β} {b : β}
    (h : (x >>= f) = .ok b) : ∃ a, x = .ok a ∧ f a = .ok b := by
  cases x with
  | error e => cases h
  | ok a => exact ⟨a, rfl, h⟩

/-- The parts of a text that begins with an argument. -/
theorem readArgument_parts {text rest : List Char} {name : String}
    (h : readArgument text = .ok (name, rest)) :
    ∃ quoted body unquoted, text = '(' :: quoted ∧ quoted.dropWhile isBlank = '"' :: body ∧
      body.takeWhile isQuotable ≠ [] ∧ name = String.ofList (body.takeWhile isQuotable) ∧
      body.dropWhile isQuotable = '"' :: unquoted ∧ unquoted.dropWhile isBlank = ')' :: rest := by
  rw [readArgument] at h
  obtain ⟨quoted, h₁, h⟩ := eq_ok_of_bind h
  obtain ⟨body, h₂, h⟩ := eq_ok_of_bind h
  split at h
  · cases h
  rename_i hname
  obtain ⟨unquoted, h₃, h⟩ := eq_ok_of_bind h
  obtain ⟨closed, h₄, h⟩ := eq_ok_of_bind h
  cases h
  exact ⟨quoted, body, unquoted, readChar_ok h₁, readChar_ok h₂, hname, rfl, readChar_ok h₃,
    readChar_ok h₄⟩

theorem readArgument_length {text rest : List Char} {name : String}
    (h : readArgument text = .ok (name, rest)) : rest.length < text.length := by
  obtain ⟨quoted, body, unquoted, rfl, h₂, -, -, h₃, h₄⟩ := readArgument_parts h
  have l₂ := congrArg List.length h₂
  have l₃ := congrArg List.length h₃
  have l₄ := congrArg List.length h₄
  have d₂ := length_dropWhile_le isBlank quoted
  have d₃ := length_dropWhile_le isQuotable body
  have d₄ := length_dropWhile_le isBlank unquoted
  simp only [List.length_cons] at l₂ l₃ l₄ ⊢
  omega

theorem readNamed_length {word : String} {text rest : List Char} {node : Node}
    (h : readNamed word text = .ok (node, rest)) : rest.length ≤ text.length := by
  unfold readNamed at h
  split at h
  · split at h
    · cases h
      rename_i h
      exact Nat.le_of_lt (readArgument_length h)
    · cases h
  · split at h
    · cases h; exact Nat.le_refl _
    split at h
    · cases h; exact Nat.le_refl _
    · cases h; exact Nat.le_refl _

theorem readDirective_length {text rest : List Char} {node : Node}
    (h : readDirective text = .ok (node, rest)) : rest.length ≤ text.length := by
  unfold readDirective at h
  split at h
  · cases h; simp
  · split at h
    · cases h
      rename_i h
      exact Nat.le_succ_of_le (Nat.le_of_lt (afterComment?_length h))
    · cases h
  · cases h; simp
  · split at h
    · exact Nat.le_succ_of_le (Nat.le_trans (readNamed_length h) (length_dropWhile_le _ _))
    · cases h; exact Nat.le_refl _

/-- A node takes at least one character. -/
theorem Node.read_length {c : Char} {cs rest : List Char} {node : Node}
    (h : Node.read c cs = .ok (node, rest)) : rest.length < (c :: cs).length := by
  unfold Node.read at h
  split at h
  · exact Nat.lt_succ_of_le (readDirective_length h)
  · cases h
    exact Nat.lt_succ_of_le (length_dropWhile_le _ _)

/-- Reads nodes until the text ends. -/
def readNodes : List Char → Except (List Complaint) (List Node)
  | [] => .ok []
  | c :: cs =>
    match _h : Node.read c cs with
    | .ok (node, rest) => (readNodes rest).map (node :: ·)
    | .error complaints => .error complaints
  termination_by text => text.length
  decreasing_by exact Node.read_length _h

@[simp] theorem readNodes_nil : readNodes [] = .ok [] := by
  rw [readNodes]

theorem readNodes_of_read_ok {c : Char} {cs rest : List Char} {node : Node}
    (h : Node.read c cs = .ok (node, rest)) :
    readNodes (c :: cs) = (readNodes rest).map (node :: ·) := by
  rw [readNodes]
  split <;> simp_all

theorem readNodes_of_read_error {c : Char} {cs : List Char} {complaints : List Complaint}
    (h : Node.read c cs = .error complaints) : readNodes (c :: cs) = .error complaints := by
  rw [readNodes]
  split <;> simp_all

end ViewTemplates.Markup
