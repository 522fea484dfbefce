import ViewTemplates.Proofs.Markup.Failure

/-!
# The caret under a place

A complaint is shown by two rows: the line of the source that holds its place, after the number of
the line, and a caret with the expectation. `Line.Holds` says which line that is, and
`Line.around_holds` that a block shows this line.

The number is brought to four characters, but the caret always begins after five blanks. So the
caret stands under the place in the first 9999 lines, and too far to the left from then on.

* `caret_column`: how the columns of the caret and of its place are related, in every block of a
  report.
* `caret_column_late`: a text with a complaint in line 10000, where they differ.
-/

set_option autoImplicit false

namespace ViewTemplates.Markup

/-! ## The line of a place -/

/-- The line holds the place of `source` that `rest` begins at. -/
structure Line.Holds (line : Line) (source rest : List Char) : Prop where
  left : '\n' ∉ line.left
  right : '\n' ∉ line.right
  /-- The line goes from one line break to the next, and the breaks before it are counted. -/
  split : ∃ earlier later, source = earlier ++ line.left ++ rest ∧ rest = line.right ++ later ∧
    Stops (· ≠ '\n') earlier.reverse ∧ Stops (· ≠ '\n') later ∧
    line.number = earlier.count '\n' + 1

theorem notMem_takeWhile_ne (text : List Char) : '\n' ∉ text.takeWhile (· ≠ '\n') := fun h => by
  simpa using List.mem_takeWhile_imp h

theorem Line.around_holds (before rest : List Char) :
    (Line.around before rest).Holds (before ++ rest) rest where
  left := by
    rw [Line.around, List.mem_reverse]
    exact notMem_takeWhile_ne _
  right := notMem_takeWhile_ne _
  split := by
    obtain ⟨left, earlier, hbefore, hleft, hearlier⟩ := exists_run (· ≠ '\n') before.reverse
    obtain rfl : before = earlier.reverse ++ left.reverse := by
      rw [← List.reverse_append, ← hbefore, List.reverse_reverse]
    have hcount : left.count '\n' = 0 :=
      List.count_eq_zero.2 fun h => by simpa using hleft _ h
    refine ⟨earlier.reverse, rest.dropWhile (· ≠ '\n'), ?_, List.takeWhile_append_dropWhile.symm,
      by simpa using hearlier, stops_dropWhile _ _, ?_⟩
    · rw [Line.around, hbefore, takeWhile_run hleft hearlier]
    · simp [Line.around, hcount]

/-- A place is held by one line only. -/
theorem Line.Holds.eq_around {line : Line} {before rest : List Char}
    (h : line.Holds (before ++ rest) rest) : line = Line.around before rest := by
  obtain ⟨earlier, later, hsource, hrest, hearlier, hlater, hnumber⟩ := h.split
  obtain rfl : before = earlier ++ line.left := List.append_cancel_right hsource
  have hleft : ∀ c ∈ line.left.reverse, decide (c ≠ '\n') = true := by
    intro c hc
    have hne : c ≠ '\n' := fun h' => h.left (h' ▸ List.mem_reverse.1 hc)
    exact decide_eq_true hne
  have hright : ∀ c ∈ line.right, decide (c ≠ '\n') = true := by
    intro c hc
    have hne : c ≠ '\n' := fun h' => h.right (h' ▸ hc)
    exact decide_eq_true hne
  have hcount : line.left.count '\n' = 0 := List.count_eq_zero.2 h.left
  have htake : rest.takeWhile (· ≠ '\n') = line.right := by
    rw [hrest, takeWhile_run hright hlater]
  rw [Line.around, List.reverse_append, takeWhile_run hleft hearlier, List.reverse_reverse,
    List.count_append, hcount, Nat.add_zero, ← hnumber, htake]

/-! ## The rows of a block -/

/-- The upper row of a block up to the place. -/
def Line.upTo (line : Line) : String :=
  padLeft 4 line.number.repr ++ ":" ++ String.ofList line.left

/-- A row of blanks. -/
def blanks (n : Nat) : String := String.ofList (List.replicate n ' ')

theorem Line.block_eq (line : Line) (message : String) :
    line.block message = line.upTo ++ String.ofList line.right ++ "\n" ++
      blanks (5 + line.left.length) ++ "^ " ++ message ++ "\n" := by
  simp [block, upTo, blanks, String.append_assoc]

theorem length_padLeft (width : Nat) (text : String) :
    (padLeft width text).length = width - text.length + text.length := by
  simp [padLeft]

/-- The caret is as many columns before its place as the number of the line has digits more than
four. -/
theorem Line.length_upTo (line : Line) :
    line.upTo.length = 5 + line.left.length + (line.number.repr.length - 4) := by
  have hcolon : ":".length = 1 := rfl
  have hleft : (String.ofList line.left).length = line.left.length := String.length_ofList
  rw [upTo, String.length_append, String.length_append, length_padLeft]
  omega

theorem Line.length_upTo_eq_iff (line : Line) :
    line.upTo.length = 5 + line.left.length ↔ line.number < 10000 := by
  have hdigits : line.number.repr.length ≤ 4 ↔ line.number < 10 ^ 4 :=
    Nat.length_repr_le_iff (by decide)
  rw [length_upTo]
  omega

/-! ## Reports -/

/-- The block of a complaint has the line of its place in the upper row, and in the lower row
`column` blanks before the caret. -/
structure Complaint.Shown (source : List Char) (c : Complaint) (line : Line) (column : Nat) :
    Prop where
  holds : line.Holds source c.rest
  block : c.block source = line.upTo ++ String.ofList line.right ++ "\n" ++ blanks column ++ "^ " ++
    c.expectation.message ++ "\n"

theorem Complaint.shown_around {source : List Char} {c : Complaint} (h : c.rest <:+ source) :
    c.Shown source (Line.around (c.before source) c.rest)
      (5 + (Line.around (c.before source) c.rest).left.length) where
  holds := by
    have hholds := Line.around_holds (c.before source) c.rest
    rwa [Complaint.before_append h] at hholds
  block := Line.block_eq _ _

/-- The caret stands under the place of its complaint in the first 9999 lines of a text. In a later
line it stands one column before the place for each digit of the line number after the fourth. -/
theorem caret_column {name source : String} {fault : Fault}
    (h : Body.ofText name source = .error fault) :
    ∃ complaints, complaints ≠ [] ∧ fault = .unparsable name (report source.toList complaints) ∧
      ∀ c ∈ complaints, ∃ line column, c.Shown source.toList line column ∧
        line.upTo.length = column + (line.number.repr.length - 4) ∧
        (line.upTo.length = column ↔ line.number < 10000) := by
  obtain ⟨pieces, place, complaints, hscan, hblame, rfl⟩ := Body.ofText_eq_error.1 h
  refine ⟨complaints, hblame.ne_nil, rfl, fun c hc => ?_⟩
  have hshown := Complaint.shown_around ((hblame.suffix c hc).trans hscan.suffix)
  exact ⟨_, _, hshown, Line.length_upTo _, Line.length_upTo_eq_iff _⟩

/-- Line breaks, and then a helper without an argument. -/
def lateHelper (breaks : Nat) : List Char := List.replicate breaks '\n' ++ "@show".toList

/-- The complaints about the helper, both at the end of the text. -/
def lateComplaints : List Complaint := [⟨[], .argument .showSection⟩, ⟨[], .character '('⟩]

theorem ofText_lateHelper {breaks : Nat} (h : breaks ≠ 0) (name : String) :
    Body.ofText name (String.ofList (lateHelper breaks)) =
      .error (.unparsable name (report (lateHelper breaks) lateComplaints)) := by
  have hplain : IsPlain (String.ofList (List.replicate breaks '\n')) := by
    simp [IsPlain, h]
  have hbreaks := @Lexeme.plain _ "@show".toList hplain (stops_cons.2 rfl)
  have hscan := Scan.cons hbreaks .nil
  have hblame : Blame "@show".toList lateComplaints :=
    @Blame.argument .showSection [] _ stops_nil (.opening stops_nil)
  have hsource : lateHelper breaks = (String.ofList (List.replicate breaks '\n')).toList ++
      "@show".toList := by rw [String.toList_ofList, lateHelper]
  rw [← hsource, ← String.toList_ofList (l := lateHelper breaks)] at hscan
  rw [Body.ofText_eq_error.2 ⟨_, _, lateComplaints, hscan, hblame, rfl⟩, String.toList_ofList]

theorem caret_column_second_line :
    ∃ fault, Body.ofText "bad" (String.ofList (lateHelper 1)) = .error fault ∧
      ∃ complaints, complaints ≠ [] ∧
        fault = .unparsable "bad" (report (String.ofList (lateHelper 1)).toList complaints) ∧
        ∀ c ∈ complaints, ∃ line column,
          c.Shown (String.ofList (lateHelper 1)).toList line column ∧
          line.upTo.length = column + (line.number.repr.length - 4) ∧
          (line.upTo.length = column ↔ line.number < 10000) :=
  ⟨_, ofText_lateHelper (by decide) "bad", caret_column (ofText_lateHelper (by decide) "bad")⟩

theorem holds_lateHelper (breaks : Nat) :
    (Line.mk (breaks + 1) "@show".toList []).Holds (lateHelper breaks) [] := by
  have hleft : '\n' ∉ "@show".toList := by decide
  have hstops : Stops (· ≠ '\n') (List.replicate breaks '\n').reverse := by
    intro c hc
    have hmem := List.mem_of_mem_head? hc
    rw [List.mem_reverse] at hmem
    simp [List.eq_of_mem_replicate hmem]
  exact ⟨hleft, List.not_mem_nil, List.replicate breaks '\n', [], (List.append_nil _).symm, rfl,
    hstops, stops_nil, by simp⟩

/-- The complaints about the helper are shown in the last line. -/
theorem shown_lateHelper (breaks : Nat) :
    ∀ c ∈ lateComplaints, c.rest = [] ∧ c.block (lateHelper breaks) =
      (Line.mk (breaks + 1) "@show".toList []).block c.expectation.message := by
  have hholds := holds_lateHelper breaks
  rw [← List.append_nil (lateHelper breaks)] at hholds
  have hblock (e : Expectation) : Complaint.block (lateHelper breaks) ⟨[], e⟩ =
      (Line.mk (breaks + 1) "@show".toList []).block e.message := by
    rw [Complaint.block, Complaint.before, List.length_nil, Nat.sub_zero, List.take_length,
      ← hholds.eq_around]
  intro c hc
  rcases List.mem_cons.1 hc with rfl | hc
  · exact ⟨rfl, hblock _⟩
  · rw [List.mem_singleton.1 hc]
    exact ⟨rfl, hblock _⟩

/-- In line 10000 the caret stands one column to the left of its place, which is the end of the
line. -/
theorem caret_column_late :
    Body.ofText "bad" (String.ofList (lateHelper 9999)) =
        .error (.unparsable "bad" (report (lateHelper 9999) lateComplaints)) ∧
      report (lateHelper 9999) lateComplaints =
        "10000:@show\n" ++
        "          ^ Expected (\"name\") after @show\n" ++
        "10000:@show\n" ++
        "          ^ Expected '('\n" ∧
      ∀ c ∈ lateComplaints, ∃ line column, c.Shown (lateHelper 9999) line column ∧
        line.upTo = "10000:@show" ∧ line.upTo.length = column + 1 := by
  have hshown := shown_lateHelper 9999
  refine ⟨ofText_lateHelper (by decide) "bad", ?_, fun c hc => ?_⟩
  · rw [report, List.map_congr_left fun c hc => (hshown c hc).2]
    rfl
  · obtain ⟨hrest, hblock⟩ := hshown c hc
    refine ⟨⟨10000, "@show".toList, []⟩, 10, ⟨?_, ?_⟩, rfl, rfl⟩
    · rw [hrest]
      exact holds_lateHelper 9999
    · rw [hblock, Line.block_eq]
      rfl

end ViewTemplates.Markup
