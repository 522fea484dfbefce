import ViewTemplates.Proofs.Markup.Caret
import ViewTemplates.Proofs.Markup.WholeCharacters

/-!
# Lines found among bytes

The line of a place is shown after four separate counts over the bytes of a text: where the line
begins, where it ends, which one it is, and how many characters stand before the place in it
(`block`).

* `ofText_locates`: each block of a report shows the line that holds its place, as it is in the
  text, and the caret stands after as many characters as there are before the place.

The counts agree at every place between two characters (`block_encode`), since a line break is never
a part of another character. So the report that is made from bytes is the report that is made from
characters (`ofText_bytes`).
-/

set_option autoImplicit false

namespace ViewTemplates.Markup.Bytes

open Utf8

/-! ## Blocks -/

def newline : UInt8 := '\n'.toUInt8

section
variable (source : List UInt8) (pos : Nat)

/-- Where the line begins that holds the place after `pos` bytes: after the last line break before
the place, or at the start. -/
def lineStart : Nat :=
  match (source.take pos).reverse.dropWhile (· != newline) with
  | [] => 0
  | _ :: earlier => earlier.length + 1

/-- The line that holds the place after `pos` bytes. -/
def lineText : List Char :=
  decodeLossy ((source.drop (lineStart source pos)).takeWhile (· != newline))

def lineNumber : Nat := (source.take (lineStart source pos)).count newline + 1

/-- The column of the place in its line, counted from one. -/
def column : Nat := (decodeLossy ((source.take pos).drop (lineStart source pos))).length + 1

/-- The two lines that show a message under the place after `pos` bytes. -/
def block (message : String) : String :=
  padLeft 4 (lineNumber source pos).repr ++ ":" ++ String.ofList (lineText source pos) ++
    "\n     " ++ padLeft (column source pos) "^" ++ " " ++ message ++ "\n"

end

/-- The blocks of all places, or of the start if there would be none. -/
def report (source : List UInt8) (places : List (Nat × Expectation)) : String :=
  let blocks := String.join (places.map fun place => block source place.1 place.2.message)
  if blocks = "" then block source 0 "Syntax error" else blocks

/-- The body that the bytes of a text read as. The name is only used in a fault. -/
def ofText (name : String) (source : List UInt8) : Except Fault Body :=
  (read source).mapError fun places => .unparsable name (report source places)

/-! ## The line of a place -/

theorem matches_newline : Matches (· != newline) (· ≠ '\n') := matches_ne '\n' (by decide)

theorem lineStart_eq (source : List UInt8) (pos : Nat) :
    lineStart source pos = ((source.take pos).reverse.dropWhile (· != newline)).length := by
  rw [lineStart]
  cases (source.take pos).reverse.dropWhile (· != newline) <;> rfl

/-- The bytes up to the last line break of a text are found from its end. -/
theorem dropWhile_reverse_encode {earlier left : List Char} (hleft : '\n' ∉ left)
    (hearlier : Stops (· ≠ '\n') earlier.reverse) :
    (encode (earlier ++ left)).reverse.dropWhile (· != newline) = (encode earlier).reverse := by
  have hrun : ∀ b ∈ (encode left).reverse, (b != newline) = true := by
    intro b hb
    obtain ⟨c, hc, hbyte⟩ := List.mem_flatMap.1 (List.mem_reverse.1 hb)
    have hne : c ≠ '\n' := fun heq => hleft (heq ▸ hc)
    exact (matches_newline c b hbyte).trans (decide_eq_true hne)
  rw [encode_append, List.reverse_append, List.dropWhile_append_of_pos hrun]
  rcases List.eq_nil_or_concat earlier with rfl | ⟨init, c, rfl⟩
  · rfl
  · obtain rfl : c = '\n' := by simpa using hearlier c (by simp)
    have hbreak : encode (init ++ ['\n']) = encode init ++ [newline] := encode_append _ _
    rw [List.concat_eq_append, hbreak, List.reverse_append]
    rfl

section
variable {earlier left : List Char} (hleft : '\n' ∉ left)
  (hearlier : Stops (· ≠ '\n') earlier.reverse)
include hleft hearlier

theorem lineStart_encode (rest : List Char) :
    lineStart (encode (earlier ++ left ++ rest)) (encode (earlier ++ left)).length =
      (encode earlier).length := by
  rw [lineStart_eq, take_encode, dropWhile_reverse_encode hleft hearlier, List.length_reverse]

theorem lineText_encode {right later : List Char} (hright : '\n' ∉ right)
    (hlater : Stops (· ≠ '\n') later) :
    lineText (encode (earlier ++ left ++ (right ++ later))) (encode (earlier ++ left)).length =
      left ++ right := by
  have hrun : ∀ c ∈ left ++ right, decide (c ≠ '\n') = true := by
    intro c hc
    refine decide_eq_true ?_
    rintro rfl
    exact (List.mem_append.1 hc).elim hleft hright
  rw [lineText, lineStart_encode hleft hearlier, List.append_assoc, drop_encode,
    matches_newline.takeWhile_encode, ← List.append_assoc, Markup.takeWhile_run hrun hlater,
    decodeLossy_encode]

theorem lineNumber_encode (rest : List Char) :
    lineNumber (encode (earlier ++ left ++ rest)) (encode (earlier ++ left)).length =
      earlier.count '\n' + 1 := by
  rw [lineNumber, lineStart_encode hleft hearlier, List.append_assoc, take_encode]
  exact congrArg (· + 1) (count_encode '\n' (by decide) earlier)

theorem column_encode (rest : List Char) :
    column (encode (earlier ++ left ++ rest)) (encode (earlier ++ left)).length =
      left.length + 1 := by
  rw [column, lineStart_encode hleft hearlier, take_encode, drop_encode, decodeLossy_encode]

end

/-- The lower row of a block up to its message. -/
theorem caret_row (n : Nat) (message : String) :
    "\n     " ++ (padLeft (n + 1) "^" ++ (" " ++ message)) =
      "\n" ++ (String.ofList (List.replicate (5 + n) ' ') ++ ("^ " ++ message)) := by
  have hcaret : "^".length = 1 := rfl
  rw [← String.toList_inj]
  simp [padLeft, hcaret, List.replicate_append_replicate.symm, List.replicate_succ]

/-- At every place between two characters, the block is the one of the line around the place. -/
theorem block_encode (before rest : List Char) (message : String) :
    block (encode (before ++ rest)) (encode before).length message =
      (Line.around before rest).block message := by
  obtain ⟨hleft, hright, earlier, later, hsource, hrest, hearlier, hlater, hnumber⟩ :=
    Line.around_holds before rest
  generalize Line.around before rest = line at *
  obtain rfl : before = earlier ++ line.left := List.append_cancel_right hsource
  subst hrest
  rw [block, lineText_encode hleft hearlier hright hlater, lineNumber_encode hleft hearlier,
    column_encode hleft hearlier, Line.block, hnumber]
  simp only [String.append_assoc, caret_row]

/-! ## Reports -/

/-- A complaint about a text, at the number of bytes before its place. -/
theorem block_offset {source : List Char} {c : Complaint} (h : c.rest <:+ source) :
    block (encode source) (offset source c) c.expectation.message = c.block source := by
  have hblock := block_encode (c.before source) c.rest c.expectation.message
  rwa [Complaint.before_append h] at hblock

section
variable {source : List Char} {complaints : List Complaint}
  (h : readNodes source = .error complaints)
include h

theorem join_blocks :
    String.join ((complaints.map fun c => (offset source c, c.expectation)).map fun place =>
      block (encode source) place.1 place.2.message) = Markup.report source complaints := by
  have hsuffix := (complaints_of_readNodes h).2
  rw [List.map_map, Markup.report]
  exact congrArg String.join (List.map_congr_left fun c hc => block_offset (hsuffix c hc))

/-- The report is never about the start for want of a complaint. -/
theorem report_encode :
    report (encode source) (complaints.map fun c => (offset source c, c.expectation)) =
      Markup.report source complaints := by
  have hreport : Markup.report source complaints ≠ "" := by
    obtain ⟨c, tail, rfl⟩ := List.exists_cons_of_ne_nil (complaints_of_readNodes h).1
    simp [Markup.report, Complaint.block, Line.block]
  rw [report, join_blocks h]
  exact if_neg hreport

end

/-- Reading the bytes of a text gives what reading its characters gives, down to the report. -/
theorem ofText_bytes (name source : String) :
    ofText name (bytes source) = Body.ofText name source := by
  rw [ofText, ← encode_toList, read_encode, Body.ofText]
  cases h : readNodes source.toList with
  | ok body => rfl
  | error complaints =>
    exact congrArg (fun r => Except.error (Fault.unparsable name r)) (report_encode h)

/-- If a text cannot be read, each block of the report is about the place after some number of
bytes, which is never within a character, and it shows the line that holds this place. The line goes
from the last line break before the place to the next one, its number is one more than the number of
line breaks before the place, and the blanks before the caret are five more than the characters of
the line before the place. -/
theorem ofText_locates {name source : String} {fault : Fault}
    (h : Body.ofText name source = .error fault) :
    ∃ places, read (bytes source) = .error places ∧ places ≠ [] ∧
      ofText name (bytes source) = .error fault ∧
      fault = .unparsable name
        (String.join (places.map fun place => block (bytes source) place.1 place.2.message)) ∧
      ∀ place ∈ places, ∃ (before rest : List Char) (line : Line),
        source.toList = before ++ rest ∧ (String.ofList before).utf8ByteSize = place.1 ∧
        line.Holds source.toList rest ∧ line.number = before.count '\n' + 1 ∧
        block (bytes source) place.1 place.2.message =
          padLeft 4 line.number.repr ++ ":" ++ String.ofList (line.left ++ line.right) ++ "\n" ++
            blanks (5 + line.left.length) ++ "^ " ++ place.2.message ++ "\n" := by
  have hbytes := (ofText_bytes name source).trans h
  rw [Body.ofText] at h
  cases hread : readNodes source.toList with
  | ok body =>
    rw [hread] at h
    cases h
  | error complaints =>
    rw [hread] at h
    cases h
    obtain ⟨hne, hsuffix⟩ := complaints_of_readNodes hread
    have hplaces := read_encode source.toList
    rw [hread, encode_toList] at hplaces
    refine ⟨_, hplaces, mt List.map_eq_nil_iff.1 hne, hbytes, ?_, ?_⟩
    · rw [← encode_toList, join_blocks hread]
    · intro place hplace
      obtain ⟨c, hc, rfl⟩ := List.mem_map.1 hplace
      have hsplit := Complaint.before_append (hsuffix c hc)
      have hholds := Line.around_holds (c.before source.toList) c.rest
      rw [hsplit] at hholds
      refine ⟨_, _, _, hsplit.symm, (length_encode _).symm, hholds, rfl, ?_⟩
      rw [← encode_toList]
      exact block_offset (hsuffix c hc)

/-- In the second line, after a character of three bytes, and at the end of the text. -/
theorem ofText_locates_multibyte :
    let source := "é\n日@show(\"本"
    let places := [(11, Expectation.argument .showSection), (16, .character '"')]
    Body.ofText "page" source = .error (.unparsable "page" (
        "   2:日@show(\"本\n" ++
        "           ^ Expected (\"name\") after @show\n" ++
        "   2:日@show(\"本\n" ++
        "              ^ Expected '\"'\n")) ∧
      read (bytes source) = .error places ∧
      ∀ place ∈ places, ∃ (before rest : List Char) (line : Line),
        source.toList = before ++ rest ∧ (String.ofList before).utf8ByteSize = place.1 ∧
        line.Holds source.toList rest ∧ line.number = before.count '\n' + 1 ∧
        block (bytes source) place.1 place.2.message =
          padLeft 4 line.number.repr ++ ":" ++ String.ofList (line.left ++ line.right) ++ "\n" ++
            blanks (5 + line.left.length) ++ "^ " ++ place.2.message ++ "\n" := by
  intro source places
  have hnodes : readNodes "é\n日@show(\"本".toList =
      .error [⟨"(\"本".toList, .argument .showSection⟩, ⟨[], .character '"'⟩] :=
    (readNodes_of_read_ok rfl).trans (congrArg _ (readNodes_of_read_error rfl))
  have hread := read_encode "é\n日@show(\"本".toList
  rw [hnodes, encode_toList] at hread
  have hplaces : read (bytes source) = .error places := hread.trans (by decide +kernel)
  have hfails : Body.ofText "page" source = .error (.unparsable "page" (
      "   2:日@show(\"本\n" ++
      "           ^ Expected (\"name\") after @show\n" ++
      "   2:日@show(\"本\n" ++
      "              ^ Expected '\"'\n")) := by
    rw [Body.ofText, hnodes]
    exact congrArg (fun r => Except.error (Fault.unparsable "page" r)) (by decide +kernel)
  obtain ⟨places', hread', -, -, -, hlocated⟩ := ofText_locates hfails
  cases hplaces.symm.trans hread'
  exact ⟨hfails, hplaces, hlocated⟩

end ViewTemplates.Markup.Bytes
