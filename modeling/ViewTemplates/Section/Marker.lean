/-!
# The parent marker

A section may be closed many times in one render. The text that its first close captured stays, and
each later close fills the places where that text says `@parent`.

* `merge stored new` puts `new` in the place of every marker of `stored`. What it puts in is not
  searched for markers again.
-/

set_option autoImplicit false

namespace ViewTemplates.Section

/-- The marker that later content of a section replaces. -/
def marker : String := "@parent"

/-- Puts `new` in the place of every marker of a text, from left to right. -/
def mergeChars (new : List Char) : List Char → List Char
  | '@' :: 'p' :: 'a' :: 'r' :: 'e' :: 'n' :: 't' :: rest => new ++ mergeChars new rest
  | c :: rest => c :: mergeChars new rest
  | [] => []

@[simp] theorem mergeChars_nil (new : List Char) : mergeChars new [] = [] := rfl

theorem mergeChars_marker_append (new rest : List Char) :
    mergeChars new (marker.toList ++ rest) = new ++ mergeChars new rest := rfl

theorem mergeChars_append_of_notMem {new text : List Char} (h : '@' ∉ text) (rest : List Char) :
    mergeChars new (text ++ rest) = text ++ mergeChars new rest := by
  induction text with
  | nil => rfl
  | cons c text ih =>
    obtain ⟨hc, htext⟩ := not_or.1 (mt List.mem_cons.2 h)
    rw [List.cons_append, mergeChars.eq_2, ih htext, List.cons_append]
    -- a marker begins with the `@` that `c` is not
    exact fun _ hat _ => hc hat.symm

theorem mergeChars_of_not_infix {new text : List Char} (h : ¬ marker.toList <:+: text) :
    mergeChars new text = text := by
  fun_induction mergeChars new text with
  | case1 rest => exact absurd ⟨[], rest, rfl⟩ h
  | case2 c rest _ ih => rw [ih fun hrest => h (hrest.trans (List.suffix_cons c rest).isInfix)]
  | case3 => rfl

/-- The content of a section whose stored content is `stored`, after a close that captured `new`. -/
def merge (stored new : String) : String :=
  String.ofList (mergeChars new.toList stored.toList)

theorem toList_merge (stored new : String) :
    (merge stored new).toList = mergeChars new.toList stored.toList :=
  String.toList_ofList

theorem merge_marker_append (rest new : String) :
    merge (marker ++ rest) new = new ++ merge rest new := by
  rw [← String.toList_inj, toList_merge, String.toList_append, mergeChars_marker_append,
    String.toList_append, toList_merge]

theorem merge_append_of_notMem {text : String} (h : '@' ∉ text.toList) (rest new : String) :
    merge (text ++ rest) new = text ++ merge rest new := by
  rw [← String.toList_inj, toList_merge, String.toList_append, mergeChars_append_of_notMem h,
    String.toList_append, toList_merge]

/-- Content without a marker stays as it is. -/
theorem merge_of_not_infix {stored : String} (h : ¬ marker.toList <:+: stored.toList)
    (new : String) : merge stored new = stored := by
  rw [← String.toList_inj, toList_merge, mergeChars_of_not_infix h]

end ViewTemplates.Section
