import Mathlib.Data.List.Infix
import ViewTemplates.Section.Marker

/-!
# Where the marker stands in a text

The only `@` of the marker is its first character, so no two markers of a text overlap
(`prefix_of_prefix_append_marker`). Reading a text from the left, a marker begins where one is seen,
and any other character belongs to no marker that begins there (`marker_induction`).

* `merge_merge`: filling a text two times is filling it once with the filled text, if the
  first filling put no markers together that were not there before. That none were is said by
  counting: `occurrences` are the places of a text at which the marker stands.
* `Parted text parts`: the text is the parts with a marker between any two of them, and no part has
  a marker. Every text has exactly one such list (`exists_parted`, `Parted.unique`), and filling the
  text puts the new text between its parts (`Parted.merge_eq`).
-/

set_option autoImplicit false

namespace ViewTemplates.Section

/-- The number of places of a text at which the marker stands. -/
def occurrences (text : List Char) : Nat :=
  text.tails.countP fun rest => marker.toList <+: rest

@[simp] theorem occurrences_nil : occurrences [] = 0 := by decide

theorem occurrences_cons (c : Char) (text : List Char) :
    occurrences (c :: text) =
      occurrences text + if marker.toList <+: c :: text then 1 else 0 := by
  simp [occurrences, List.countP_cons]

theorem occurrences_cons_of_unmarked {c : Char} {text : List Char}
    (h : ¬ marker.toList <+: c :: text) : occurrences (c :: text) = occurrences text := by
  rw [occurrences_cons, if_neg h, Nat.add_zero]

/-- A text does not begin with a marker if the rest of it has as many. -/
theorem unmarked_of_occurrences_le {c : Char} {text : List Char}
    (h : occurrences (c :: text) ≤ occurrences text) : ¬ marker.toList <+: c :: text := by
  intro hp
  rw [occurrences_cons, if_pos hp] at h
  omega

theorem occurrences_eq_zero {text : List Char} :
    occurrences text = 0 ↔ ¬ marker.toList <:+: text := by
  simp [occurrences, List.countP_eq_zero, List.infix_iff_prefix_suffix, and_comm]

theorem occurrences_append_le (left right : List Char) :
    occurrences left + occurrences right ≤ occurrences (left ++ right) := by
  induction left with
  | nil => simp
  | cons c left ih =>
    rw [List.cons_append, occurrences_cons, occurrences_cons]
    by_cases hp : marker.toList <+: c :: left
    · have hp' : marker.toList <+: c :: (left ++ right) := List.prefix_append_of_prefix hp
      rw [if_pos hp, if_pos hp']
      omega
    · rw [if_neg hp]
      omega

/-! ## Reading a text from the left -/

/-- A marker does not begin inside another. -/
theorem prefix_of_prefix_append_marker {text rest : List Char} (hne : text ≠ [])
    (h : marker.toList <+: text ++ (marker.toList ++ rest)) : marker.toList <+: text := by
  rcases List.prefix_or_prefix_of_prefix h (List.prefix_append text _) with hp | ⟨tail, htail⟩
  · exact hp
  · rw [← htail, List.prefix_append_right_inj, htail] at h
    cases tail with
    | nil => rw [← htail, List.append_nil]
    | cons d tail =>
      -- the rest of the marker would begin with a second `@`
      obtain ⟨c, text, rfl⟩ := List.exists_cons_of_ne_nil hne
      obtain rfl : d = '@' := (List.cons_prefix_cons.1 h).1
      have hmem : '@' ∈ marker.toList.tail := by rw [← htail]; simp
      exact absurd hmem (by decide)

/-- What stands before the first marker of a text, and what stands after it. -/
theorem append_marker_inj {left left' rest rest' : List Char} (h : ¬ marker.toList <:+: left)
    (h' : ¬ marker.toList <:+: left')
    (heq : left ++ (marker.toList ++ rest) = left' ++ (marker.toList ++ rest')) :
    left = left' ∧ rest = rest' := by
  have hnil {front middle back back' : List Char} (hf : ¬ marker.toList <:+: front ++ middle)
      (hm : marker.toList ++ back = middle ++ (marker.toList ++ back')) : middle = [] := by
    by_contra hne
    have hp := prefix_of_prefix_append_marker hne (hm ▸ List.prefix_append marker.toList back)
    exact hf (hp.isInfix.trans List.infix_append_right)
  rcases List.append_eq_append_iff.1 heq with ⟨middle, rfl, hm⟩ | ⟨middle, rfl, hm⟩
  · obtain rfl := hnil h' hm
    simpa using hm
  · obtain rfl := hnil h hm
    simpa using hm.symm

theorem occurrences_append_marker (text rest : List Char) :
    occurrences (text ++ (marker.toList ++ rest)) =
      occurrences text + (occurrences rest + 1) := by
  induction text with
  | nil => simp [occurrences_cons, marker]
  | cons c text ih =>
    have hstart : marker.toList <+: c :: (text ++ (marker.toList ++ rest)) ↔
        marker.toList <+: c :: text :=
      ⟨prefix_of_prefix_append_marker (List.cons_ne_nil c text), List.prefix_append_of_prefix⟩
    rw [List.cons_append, occurrences_cons, occurrences_cons, ih]
    simp only [hstart]
    omega

theorem occurrences_marker_append (rest : List Char) :
    occurrences (marker.toList ++ rest) = occurrences rest + 1 := by
  rw [← List.nil_append (marker.toList ++ rest), occurrences_append_marker, occurrences_nil,
    Nat.zero_add]

/-- Reads a text from the left, marker by marker. -/
@[elab_as_elim]
theorem marker_induction {motive : List Char → Prop} (nil : motive [])
    (marked : ∀ rest, motive rest → motive (marker.toList ++ rest))
    (plain : ∀ c rest, ¬ marker.toList <+: c :: rest → motive rest → motive (c :: rest))
    (text : List Char) : motive text := by
  induction text using mergeChars.induct with
  | case1 rest ih => exact marked rest ih
  | case2 c rest h ih =>
    refine plain c rest (fun ⟨tail, htail⟩ => ?_) ih
    cases htail
    exact h tail rfl rfl
  | case3 => exact nil

theorem mergeChars_cons_of_unmarked {c : Char} {rest : List Char}
    (h : ¬ marker.toList <+: c :: rest) (new : List Char) :
    mergeChars new (c :: rest) = c :: mergeChars new rest := by
  refine mergeChars.eq_2 _ _ _ fun tail hc hrest => h ⟨tail, ?_⟩
  rw [hc, hrest]
  rfl

/-! ## Filling a text -/

/-- Two texts are filled apart if no marker is put together where they meet. -/
theorem mergeChars_append {left right : List Char}
    (h : occurrences (left ++ right) = occurrences left + occurrences right) (new : List Char) :
    mergeChars new (left ++ right) = mergeChars new left ++ mergeChars new right := by
  induction left using marker_induction with
  | nil => rfl
  | marked rest ih =>
    rw [List.append_assoc, occurrences_marker_append, occurrences_marker_append] at h
    rw [List.append_assoc, mergeChars_marker_append, mergeChars_marker_append, ih (by omega),
      List.append_assoc]
  | plain c rest hc ih =>
    rw [occurrences_cons_of_unmarked hc, List.cons_append] at h
    have hjoined : ¬ marker.toList <+: c :: (rest ++ right) :=
      unmarked_of_occurrences_le (h.trans_le (occurrences_append_le rest right))
    rw [occurrences_cons_of_unmarked hjoined] at h
    rw [List.cons_append, mergeChars_cons_of_unmarked hjoined, mergeChars_cons_of_unmarked hc,
      ih h, List.cons_append]

theorem merge_append_marker {text : String} (h : ¬ marker.toList <:+: text.toList)
    (rest new : String) :
    merge (text ++ (marker ++ rest)) new = text ++ (new ++ merge rest new) := by
  rw [← String.toList_inj, toList_merge]
  simp only [String.toList_append, toList_merge]
  rw [mergeChars_append, mergeChars_of_not_infix h, mergeChars_marker_append]
  rw [occurrences_append_marker, occurrences_marker_append]

/-- Each marker that is filled leaves those of the new text. -/
theorem occurrences_mul_le (stored new : List Char) :
    occurrences stored * occurrences new ≤ occurrences (mergeChars new stored) := by
  induction stored using marker_induction with
  | nil => simp
  | marked rest ih =>
    have hle := occurrences_append_le new (mergeChars new rest)
    rw [occurrences_marker_append, mergeChars_marker_append, Nat.succ_mul]
    omega
  | plain c rest hc ih =>
    rw [occurrences_cons_of_unmarked hc, mergeChars_cons_of_unmarked hc, occurrences_cons]
    omega

/-- Filling a text two times is filling it once with the filled text, if the first time no marker is
put together that was not there before. -/
theorem mergeChars_mergeChars {stored new : List Char}
    (h : occurrences (mergeChars new stored) = occurrences stored * occurrences new)
    (last : List Char) :
    mergeChars last (mergeChars new stored) = mergeChars (mergeChars last new) stored := by
  induction stored using marker_induction with
  | nil => rfl
  | marked rest ih =>
    -- both what the rest holds and what the seam holds is as little as it can be
    have hrest := occurrences_mul_le rest new
    have hseam := occurrences_append_le new (mergeChars new rest)
    rw [occurrences_marker_append, mergeChars_marker_append, Nat.succ_mul] at h
    rw [mergeChars_marker_append, mergeChars_marker_append, mergeChars_append (by omega),
      ih (by omega)]
  | plain c rest hc ih =>
    rw [mergeChars_cons_of_unmarked hc, occurrences_cons_of_unmarked hc] at h
    have hjoined : ¬ marker.toList <+: c :: mergeChars new rest :=
      unmarked_of_occurrences_le (h.trans_le (occurrences_mul_le rest new))
    rw [occurrences_cons_of_unmarked hjoined] at h
    rw [mergeChars_cons_of_unmarked hc, mergeChars_cons_of_unmarked hjoined,
      mergeChars_cons_of_unmarked hc, ih h]

theorem merge_merge {stored new : String}
    (h : occurrences (merge stored new).toList =
      occurrences stored.toList * occurrences new.toList) (last : String) :
    merge (merge stored new) last = merge stored (merge new last) := by
  rw [toList_merge] at h
  rw [← String.toList_inj]
  simp only [toList_merge]
  exact mergeChars_mergeChars h last.toList

theorem mergeChars_marker (stored : List Char) : mergeChars marker.toList stored = stored := by
  induction stored using marker_induction with
  | nil => rfl
  | marked rest ih => rw [mergeChars_marker_append, ih]
  | plain c rest hc ih => rw [mergeChars_cons_of_unmarked hc, ih]

/-- Filling the markers with markers changes nothing. -/
theorem merge_marker (stored : String) : merge stored marker = stored := by
  rw [← String.toList_inj, toList_merge, mergeChars_marker]

/-! ## The parts of a text -/

/-- The text is the parts with a marker between any two of them, and no part has a marker. -/
structure Parted (text : String) (parts : List String) : Prop where
  joined : marker.intercalate parts = text
  nonempty : parts ≠ []
  unmarked : ∀ part ∈ parts, ¬ marker.toList <:+: part.toList

namespace Parted

variable {text part next : String} {parts later : List String}

theorem head (h : Parted text (part :: parts)) : ¬ marker.toList <:+: part.toList :=
  h.unmarked part List.mem_cons_self

theorem eq_of_singleton (h : Parted text [part]) : text = part := by
  rw [← h.joined, String.intercalate_singleton]

theorem tail (h : Parted text (part :: next :: later)) :
    ∃ rest, text = part ++ (marker ++ rest) ∧ Parted rest (next :: later) := by
  refine ⟨marker.intercalate (next :: later), ?_, rfl, List.cons_ne_nil _ _, ?_⟩
  · rw [← h.joined, String.intercalate_cons_cons, String.append_assoc]
  · exact (List.forall_mem_cons.1 h.unmarked).2

theorem head_prefix (h : Parted text (part :: parts)) : part.toList <+: text.toList := by
  cases parts with
  | nil => rw [h.eq_of_singleton]
  | cons next later =>
    obtain ⟨rest, rfl, -⟩ := h.tail
    rw [String.toList_append]
    exact List.prefix_append _ _

/-- Goes through a text part by part. -/
@[elab_as_elim]
theorem induction {motive : (text : String) → (parts : List String) → Parted text parts → Prop}
    (last : ∀ part (h : Parted part [part]), motive part [part] h)
    (marked : ∀ part rest parts (h : Parted (part ++ (marker ++ rest)) (part :: parts))
      (hrest : Parted rest parts), motive rest parts hrest → motive _ _ h)
    {text : String} {parts : List String} (h : Parted text parts) : motive text parts h := by
  induction parts generalizing text with
  | nil => exact absurd rfl h.nonempty
  | cons part parts ih =>
    cases parts with
    | nil =>
      obtain rfl := h.eq_of_singleton
      exact last text h
    | cons next later =>
      obtain ⟨rest, rfl, hrest⟩ := h.tail
      exact marked part rest _ h hrest (ih hrest)

/-- Between any two parts is a marker, and there is no other. -/
theorem length_eq (h : Parted text parts) : parts.length = occurrences text.toList + 1 := by
  induction h using Parted.induction with
  | last part h =>
    rw [occurrences_eq_zero.2 h.head]
    rfl
  | marked part rest parts h hrest ih =>
    rw [List.length_cons, ih, String.toList_append, String.toList_append,
      occurrences_append_marker, occurrences_eq_zero.2 h.head, Nat.zero_add]

/-- Filling a text puts the new text between its parts. -/
theorem merge_eq (h : Parted text parts) (new : String) :
    merge text new = new.intercalate parts := by
  induction h using Parted.induction with
  | last part h => rw [String.intercalate_singleton, merge_of_not_infix h.head]
  | marked part rest parts h hrest ih =>
    rw [merge_append_marker h.head, ih, String.intercalate_cons_of_ne_nil hrest.nonempty,
      String.append_assoc]

theorem unique {parts' : List String} (h : Parted text parts) (h' : Parted text parts') :
    parts' = parts := by
  induction h using Parted.induction generalizing parts' with
  | last part h =>
    obtain ⟨part', rfl⟩ := List.length_eq_one_iff.1 (h'.length_eq.trans h.length_eq.symm)
    rw [← h'.eq_of_singleton]
  | marked part rest parts h hrest ih =>
    have hlength : parts'.length = parts.length + 1 := h'.length_eq.trans h.length_eq.symm
    obtain ⟨part', parts', rfl⟩ := List.exists_cons_of_ne_nil h'.nonempty
    have hmore : parts' ≠ [] := by
      rintro rfl
      exact hrest.nonempty (List.length_eq_zero_iff.1 (by simpa using hlength.symm))
    obtain ⟨next', later', rfl⟩ := List.exists_cons_of_ne_nil hmore
    obtain ⟨rest', heq, hrest'⟩ := h'.tail
    simp only [← String.toList_inj, String.toList_append] at heq
    obtain ⟨hpart, hrests⟩ := append_marker_inj h.head h'.head heq
    obtain rfl := String.toList_inj.1 hpart
    obtain rfl := String.toList_inj.1 hrests
    rw [ih hrest']

end Parted

theorem exists_parted (text : String) : ∃ parts, Parted text parts := by
  obtain ⟨chars, rfl⟩ : ∃ chars, text = String.ofList chars := ⟨_, String.ofList_toList.symm⟩
  induction chars using marker_induction with
  | nil => exact ⟨[""], by decide, by decide, by decide⟩
  | marked rest ih =>
    obtain ⟨parts, hparts⟩ := ih
    refine ⟨"" :: parts, ?_, List.cons_ne_nil _ _, ?_⟩
    · rw [String.intercalate_cons_of_ne_nil hparts.nonempty, hparts.joined]
      simp
    · exact List.forall_mem_cons.2 ⟨by decide, hparts.unmarked⟩
  | plain c rest hc ih =>
    obtain ⟨parts, hparts⟩ := ih
    obtain ⟨first, later, rfl⟩ := List.exists_cons_of_ne_nil hparts.nonempty
    obtain ⟨hfirst, hlater⟩ := List.forall_mem_cons.1 hparts.unmarked
    refine ⟨(String.singleton c ++ first) :: later, ?_, List.cons_ne_nil _ _, ?_⟩
    · rw [String.intercalate_cons_append, hparts.joined]
      simp
    · refine List.forall_mem_cons.2 ⟨?_, hlater⟩
      have hstart : first.toList <+: rest := by simpa using hparts.head_prefix
      rw [String.toList_append, String.toList_singleton, List.singleton_append, List.infix_cons_iff]
      rintro (hp | hp)
      · exact hc (hp.trans (List.cons_prefix_cons.2 ⟨rfl, hstart⟩))
      · exact hfirst hp

end ViewTemplates.Section
