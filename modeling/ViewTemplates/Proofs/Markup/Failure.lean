import ViewTemplates.Proofs.Markup.Grammar

/-!
# Texts that cannot be read

`Scan pieces text place` takes lexemes off a text up to some place. Reading fails exactly if a scan
comes to a broken place: a comment without an end, or a helper without a well-formed argument
(`IsBroken`). `Blame place complaints` has the complaints about a broken place; those about an
argument depend on what it lacks (`Lacks`).

* `Body.ofText_eq_error`: a text cannot be read exactly if a scan of it comes to a broken place, and
  the report is about this place.
* `Scan.unique`: there is at most one such place.

As for the grammar, each reading function fails exactly as its relation says
(`readArgument_eq_error`, `Node.read_eq_error`, `readNodes_eq_error`).
-/

set_option autoImplicit false

namespace ViewTemplates.Markup

/-! ## Broken places -/

/-- The lexemes of a text up to some place, and the text from this place on. -/
inductive Scan : List (Node × List Char) → List Char → List Char → Prop
  | nil {text : List Char} : Scan [] text text
  | cons {node : Node} {piece rest place : List Char} {pieces : List (Node × List Char)} :
      Lexeme node piece rest → Scan pieces rest place →
      Scan ((node, piece) :: pieces) (piece ++ rest) place

/-- No node can be read where the text begins: a comment does not end there, or a helper has no
argument. -/
inductive IsBroken : List Char → Prop
  | comment {rest : List Char} : ¬ commentEnd <:+: rest → IsBroken ('@' :: '*' :: rest)
  | argument {h : Helper} {rest : List Char} : Stops isNameRest rest →
      (¬ ∃ name argument, Argument name argument ∧ argument <+: rest) →
      IsBroken ('@' :: (h.keyword.toList ++ rest))

/-- The text begins with no argument, for want of a parenthesis or a quote at the place of the
complaint, or for want of a name. -/
inductive Lacks : List Char → Option Complaint → Prop
  | opening {rest : List Char} : Stops (· == '(') rest →
      Lacks rest (some ⟨rest, .character '('⟩)
  | openingQuote {before rest : List Char} : (∀ c ∈ before, isBlank c = true) →
      Stops isBlank rest → Stops (· == '"') rest →
      Lacks ('(' :: (before ++ rest)) (some ⟨rest, .character '"'⟩)
  | name {before rest : List Char} : (∀ c ∈ before, isBlank c = true) → Stops isQuotable rest →
      Lacks ('(' :: (before ++ '"' :: rest)) none
  | closingQuote {before rest : List Char} {name : String} : (∀ c ∈ before, isBlank c = true) →
      IsArgument name → Stops isQuotable rest → Stops (· == '"') rest →
      Lacks ('(' :: (before ++ '"' :: (name.toList ++ rest))) (some ⟨rest, .character '"'⟩)
  | closing {before after rest : List Char} {name : String} : (∀ c ∈ before, isBlank c = true) →
      IsArgument name → (∀ c ∈ after, isBlank c = true) → Stops isBlank rest →
      Stops (· == ')') rest →
      Lacks ('(' :: (before ++ '"' :: (name.toList ++ '"' :: (after ++ rest))))
        (some ⟨rest, .character ')'⟩)

/-- The complaints about a broken place. -/
inductive Blame : List Char → List Complaint → Prop
  | comment {rest : List Char} : ¬ commentEnd <:+: rest →
      Blame ('@' :: '*' :: rest) [⟨rest, .commentEnd⟩]
  | argument {h : Helper} {rest : List Char} {missing : Option Complaint} :
      Stops isNameRest rest → Lacks rest missing →
      Blame ('@' :: (h.keyword.toList ++ rest)) (⟨rest, .argument h⟩ :: missing.toList)

/-! ## Comments and arguments -/

theorem afterComment?_eq_none {text : List Char} :
    afterComment? text = none ↔ ¬ commentEnd <:+: text := by
  induction text with
  | nil => simp [afterComment?, commentEnd]
  | cons c text ih =>
    rw [List.infix_cons_iff, not_or, ← ih]
    by_cases hend : commentEnd <+: c :: text
    · obtain ⟨tail, htail⟩ := hend
      simp [← htail, afterComment?, commentEnd]
    · rw [afterComment?_cons hend]
      exact (and_iff_right hend).symm

theorem readChar_eq_error {c : Char} {text : List Char} {complaints : List Complaint} :
    readChar c text = .error complaints ↔
      Stops (· == c) text ∧ complaints = [⟨text, .character c⟩] := by
  cases text with
  | nil => simp [readChar, Stops, eq_comm (a := complaints)]
  | cons d rest =>
    rw [stops_cons, readChar]
    by_cases hd : d = c <;> simp [hd, eq_comm (a := complaints)]

theorem eq_error_of_bind {ε α β : Type} {x : Except ε α} {f : α → Except ε β} {e : ε}
    (h : (x >>= f) = .error e) : x = .error e ∨ ∃ a, x = .ok a ∧ f a = .error e := by
  cases x with
  | error e' => cases h; exact .inl rfl
  | ok a => exact .inr ⟨a, rfl, h⟩

/-- What is left to read of an argument after its first quote. -/
theorem readArgument_opened {before : List Char} (hbefore : ∀ c ∈ before, isBlank c = true)
    (body : List Char) :
    readArgument ('(' :: (before ++ '"' :: body)) =
      if body.takeWhile isQuotable = [] then .error []
      else do
        let rest ← readChar '"' (body.dropWhile isQuotable)
        let rest ← readChar ')' (rest.dropWhile isBlank)
        return (String.ofList (body.takeWhile isQuotable), rest) := by
  have hquote : (before ++ '"' :: body).dropWhile isBlank = '"' :: body :=
    dropWhile_run hbefore (stops_cons.2 rfl)
  simp only [readArgument, readChar_cons, bind, Except.bind, hquote]
  rfl

/-- After the first quote, a name, the second quote or the last parenthesis can be missing. -/
theorem exists_lacks_of_opened {before body : List Char} {complaints : List Complaint}
    (hbefore : ∀ c ∈ before, isBlank c = true)
    (h : readArgument ('(' :: (before ++ '"' :: body)) = .error complaints) :
    ∃ missing, Lacks ('(' :: (before ++ '"' :: body)) missing ∧ complaints = missing.toList := by
  obtain ⟨name, unquoted, rfl, hname, hquotable⟩ := exists_run isQuotable body
  have htake : (name ++ unquoted).takeWhile isQuotable = name := takeWhile_run hname hquotable
  rw [readArgument_opened hbefore, htake, dropWhile_run hname hquotable] at h
  split at h
  · rename_i hnil
    cases h
    exact ⟨none, .name hbefore (hnil ▸ hquotable), rfl⟩
  rename_i hne
  have hargument : IsArgument (String.ofList name) := by
    rw [← htake] at hne ⊢
    exact isArgument_takeWhile hne
  have hlist : name = (String.ofList name).toList := String.toList_ofList.symm
  rcases eq_error_of_bind h with h₁ | ⟨closed, h₁, hclosed⟩
  · obtain ⟨hstops, rfl⟩ := readChar_eq_error.1 h₁
    rw [hlist]
    exact ⟨_, .closingQuote hbefore hargument hquotable hstops, rfl⟩
  obtain rfl := readChar_ok h₁
  obtain ⟨after, closed, rfl, hafter, hblank⟩ := exists_run isBlank closed
  rw [dropWhile_run hafter hblank] at hclosed
  rcases eq_error_of_bind hclosed with h₂ | ⟨_, _, h₂⟩
  · obtain ⟨hstops, rfl⟩ := readChar_eq_error.1 h₂
    rw [hlist]
    exact ⟨_, .closing hbefore hargument hafter hblank hstops, rfl⟩
  · cases h₂

/-- A text that begins with no argument lacks a part of one. -/
theorem exists_lacks_of_readArgument {text : List Char} {complaints : List Complaint}
    (h : readArgument text = .error complaints) :
    ∃ missing, Lacks text missing ∧ complaints = missing.toList := by
  have hopening := h
  rw [readArgument] at hopening
  rcases eq_error_of_bind hopening with h₁ | ⟨quoted, h₁, hquoted⟩
  · obtain ⟨hstops, rfl⟩ := readChar_eq_error.1 h₁
    exact ⟨_, .opening hstops, rfl⟩
  obtain rfl := readChar_ok h₁
  obtain ⟨before, quoted, rfl, hbefore, hblank⟩ := exists_run isBlank quoted
  rw [dropWhile_run hbefore hblank] at hquoted
  rcases eq_error_of_bind hquoted with h₂ | ⟨body, h₂, -⟩
  · obtain ⟨hstops, rfl⟩ := readChar_eq_error.1 h₂
    exact ⟨_, .openingQuote hbefore hblank hstops, rfl⟩
  obtain rfl := readChar_ok h₂
  exact exists_lacks_of_opened hbefore h

theorem Lacks.readArgument_eq {text : List Char} {missing : Option Complaint}
    (h : Lacks text missing) : readArgument text = .error missing.toList := by
  cases h with
  | opening hstops =>
    rw [readArgument, readChar_eq_error.2 ⟨hstops, rfl⟩]
    rfl
  | openingQuote hbefore hblank hstops =>
    simp only [readArgument, readChar_cons, bind, Except.bind, dropWhile_run hbefore hblank,
      readChar_eq_error.2 ⟨hstops, rfl⟩]
    rfl
  | name hbefore hstops =>
    rw [readArgument_opened hbefore, if_pos hstops.takeWhile_eq_nil]
    rfl
  | @closingQuote _ _ name hbefore hname hquotable hstops =>
    have hne : name.toList ≠ [] := mt String.toList_eq_nil_iff.1 hname.1
    rw [readArgument_opened hbefore, takeWhile_run hname.isQuotable hquotable,
      dropWhile_run hname.isQuotable hquotable, if_neg hne, readChar_eq_error.2 ⟨hstops, rfl⟩]
    rfl
  | @closing _ after rest name hbefore hname hafter hblank hstops =>
    have hne : name.toList ≠ [] := mt String.toList_eq_nil_iff.1 hname.1
    have hquote : Stops isQuotable ('"' :: (after ++ rest)) := stops_cons.2 rfl
    rw [readArgument_opened hbefore, takeWhile_run hname.isQuotable hquote,
      dropWhile_run hname.isQuotable hquote, if_neg hne, readChar_cons]
    simp only [bind, Except.bind, dropWhile_run hafter hblank, readChar_eq_error.2 ⟨hstops, rfl⟩]
    rfl

theorem readArgument_eq_error {text : List Char} {complaints : List Complaint} :
    readArgument text = .error complaints ↔
      ∃ missing, Lacks text missing ∧ complaints = missing.toList := by
  refine ⟨exists_lacks_of_readArgument, ?_⟩
  rintro ⟨missing, hlacks, rfl⟩
  exact hlacks.readArgument_eq

/-! ## Nodes -/

section
variable {text rest : List Char} {complaints : List Complaint}

theorem readNamed_eq_error {word : String} :
    readNamed word text = .error complaints ↔
      ∃ h missing, word = Helper.keyword h ∧ Lacks text missing ∧
        complaints = ⟨text, .argument h⟩ :: missing.toList := by
  constructor
  · intro h
    rw [readNamed] at h
    split at h
    · rename_i helper hkey
      split at h <;> cases h
      rename_i hread
      obtain ⟨missing, hlacks, rfl⟩ := readArgument_eq_error.1 hread
      exact ⟨helper, missing, Helper.ofKeyword?_eq_some.1 hkey, hlacks, rfl⟩
    · split at h
      · cases h
      split at h <;> cases h
  · rintro ⟨helper, missing, rfl, hlacks, rfl⟩
    rw [readNamed, Helper.ofKeyword?_keyword]
    simp only [hlacks.readArgument_eq]

theorem readDirective_eq_error :
    readDirective text = .error complaints ↔ Blame ('@' :: text) complaints := by
  constructor
  · intro h
    rw [readDirective.eq_def] at h
    split at h
    · cases h
    · split at h <;> cases h
      rename_i hend
      exact .comment (afterComment?_eq_none.1 hend)
    · cases h
    · rename_i c cs _ _
      split at h
      · obtain ⟨helper, missing, hword, hlacks, rfl⟩ := readNamed_eq_error.1 h
        have hsplit : c :: cs = helper.keyword.toList ++ cs.dropWhile isNameRest := by
          rw [← hword, String.toList_ofList, List.cons_append, List.takeWhile_append_dropWhile]
        rw [hsplit]
        exact .argument (stops_dropWhile _ _) hlacks
      · cases h
  · intro h
    generalize ht : '@' :: text = place at h
    cases h with
    | comment hend =>
      cases ht
      rw [readDirective, afterComment?_eq_none.2 hend]
    | argument hstops hlacks =>
      cases ht
      rw [readDirective_of_name (isName_keyword _) hstops]
      exact readNamed_eq_error.2 ⟨_, _, rfl, hlacks, rfl⟩

/-- Reading a node fails exactly at a broken place. -/
theorem Node.read_eq_error {c : Char} {cs : List Char} :
    Node.read c cs = .error complaints ↔ Blame (c :: cs) complaints := by
  by_cases hc : c = '@'
  · rw [Node.read, if_pos hc, readDirective_eq_error, hc]
  · rw [Node.read, if_neg hc]
    constructor
    · intro h
      cases h
    · intro h
      generalize ht : c :: cs = place at h
      cases h <;> exact absurd (List.cons.inj ht).1 hc

/-- A place is broken exactly if there is something to complain about. -/
theorem isBroken_iff_blame : IsBroken text ↔ ∃ complaints, Blame text complaints := by
  constructor
  · rintro (⟨hend⟩ | @⟨h, rest, hstops, hnone⟩)
    · exact ⟨_, .comment hend⟩
    · cases hread : readArgument rest with
      | ok r =>
        obtain ⟨argument, ha, hrest⟩ := readArgument_eq_ok.1 hread
        exact absurd ⟨r.1, argument, ha, r.2, hrest.symm⟩ hnone
      | error e =>
        obtain ⟨missing, hlacks, -⟩ := readArgument_eq_error.1 hread
        exact ⟨_, .argument hstops hlacks⟩
  · rintro ⟨_, ⟨hend⟩ | ⟨hstops, hlacks⟩⟩
    · exact .comment hend
    · refine .argument hstops ?_
      rintro ⟨name, argument, ha, rest, rfl⟩
      have hread : readArgument (argument ++ rest) = .ok (name, rest) :=
        readArgument_eq_ok.2 ⟨argument, ha, rfl⟩
      cases hread.symm.trans hlacks.readArgument_eq

theorem Lexeme.not_blame {node : Node} {piece : List Char} (h : Lexeme node piece rest) :
    ¬ Blame (piece ++ rest) complaints := by
  obtain ⟨c, tail, rfl, -⟩ := h.head
  intro hblame
  have hread := Node.read_eq_ok.2 ⟨_, h, List.cons_append.symm⟩
  cases hread.symm.trans (Node.read_eq_error.2 hblame)

theorem Lacks.suffix {missing : Option Complaint} (h : Lacks text missing) :
    ∀ c ∈ missing, c.rest <:+ text := by
  intro c hc
  cases h with
  | opening =>
    cases hc
    exact List.suffix_rfl
  | @openingQuote before rest =>
    cases hc
    exact ⟨'(' :: before, rfl⟩
  | name => cases hc
  | @closingQuote before rest name =>
    cases hc
    exact ⟨'(' :: (before ++ '"' :: name.toList), by simp⟩
  | @closing before after rest name =>
    cases hc
    exact ⟨'(' :: (before ++ '"' :: (name.toList ++ '"' :: after)), by simp⟩

theorem Blame.ne_nil (h : Blame text complaints) : complaints ≠ [] := by
  cases h <;> exact List.cons_ne_nil _ _

/-- What is complained about a broken place is found from that place on. -/
theorem Blame.suffix (h : Blame text complaints) : ∀ c ∈ complaints, c.rest <:+ text := by
  intro c hc
  cases h with
  | @comment rest =>
    rw [List.mem_singleton.1 hc]
    exact ⟨['@', '*'], rfl⟩
  | @argument h rest missing _ hlacks =>
    have hrest : rest <:+ '@' :: (h.keyword.toList ++ rest) := ⟨'@' :: h.keyword.toList, rfl⟩
    rcases List.mem_cons.1 hc with rfl | hc
    · exact hrest
    · exact (hlacks.suffix c (Option.mem_toList.1 hc)).trans hrest

end

/-! ## Texts -/

section
variable {text place place' : List Char} {pieces pieces' : List (Node × List Char)}
  {complaints complaints' : List Complaint}

theorem Scan.suffix (h : Scan pieces text place) : place <:+ text := by
  induction h with
  | nil => exact List.suffix_rfl
  | cons _ _ ih => exact ih.trans (List.suffix_append _ _)

theorem Scan.unique (h : Scan pieces text place) (hb : Blame place complaints)
    (h' : Scan pieces' text place') (hb' : Blame place' complaints') :
    pieces = pieces' ∧ place = place' := by
  induction h generalizing pieces' with
  | nil =>
    cases h' with
    | nil => exact ⟨rfl, rfl⟩
    | cons hl _ => exact absurd hb hl.not_blame
  | @cons node piece rest place pieces hl _ ih =>
    generalize ht : piece ++ rest = text at h'
    cases h' with
    | nil => exact absurd (ht ▸ hb') hl.not_blame
    | cons hl' h' =>
      obtain ⟨rfl, rfl, rfl⟩ := hl.unique hl' ht
      obtain ⟨rfl, rfl⟩ := ih hb h'
      exact ⟨rfl, rfl⟩

/-- Reading fails exactly if a scan comes to a broken place. -/
theorem readNodes_eq_error :
    readNodes text = .error complaints ↔
      ∃ pieces place, Scan pieces text place ∧ Blame place complaints := by
  constructor
  · intro h
    fun_induction readNodes text with
    | case1 => cases h
    | case2 c cs node rest hread ih =>
      cases hrest : readNodes rest with
      | ok nodes =>
        rw [hrest] at h
        cases h
      | error e =>
        rw [hrest] at h
        cases h
        obtain ⟨piece, hpiece, heq⟩ := Node.read_eq_ok.1 hread
        obtain ⟨pieces, place, hscan, hblame⟩ := ih hrest
        rw [heq]
        exact ⟨_, place, .cons hpiece hscan, hblame⟩
    | case3 c cs e hread =>
      cases h
      exact ⟨[], _, .nil, Node.read_eq_error.1 hread⟩
  · rintro ⟨pieces, place, hscan, hblame⟩
    induction hscan with
    | @nil text =>
      cases text with
      | nil => cases hblame
      | cons c cs => exact readNodes_of_read_error (Node.read_eq_error.2 hblame)
    | cons hpiece _ ih =>
      rw [readNodes_lexeme hpiece, ih hblame]
      rfl

/-- A text that cannot be read is complained about, and each complaint has a place in it. -/
theorem complaints_of_readNodes (h : readNodes text = .error complaints) :
    complaints ≠ [] ∧ ∀ c ∈ complaints, c.rest <:+ text := by
  obtain ⟨pieces, place, hscan, hblame⟩ := readNodes_eq_error.1 h
  exact ⟨hblame.ne_nil, fun c hc => (hblame.suffix c hc).trans hscan.suffix⟩

end

theorem Complaint.before_append {source : List Char} {c : Complaint} (h : c.rest <:+ source) :
    c.before source ++ c.rest = source := by
  obtain ⟨before, rfl⟩ := h
  simp [Complaint.before]

theorem Body.ofText_eq_error {name source : String} {fault : Fault} :
    Body.ofText name source = .error fault ↔
      ∃ pieces place complaints, Scan pieces source.toList place ∧ Blame place complaints ∧
        fault = .unparsable name (report source.toList complaints) := by
  constructor
  · intro h
    unfold Body.ofText at h
    split at h <;> cases h
    rename_i complaints hread
    obtain ⟨pieces, place, hscan, hblame⟩ := readNodes_eq_error.1 hread
    exact ⟨pieces, place, complaints, hscan, hblame, rfl⟩
  · rintro ⟨pieces, place, complaints, hscan, hblame, rfl⟩
    rw [Body.ofText, readNodes_eq_error.2 ⟨pieces, place, hscan, hblame⟩]

end ViewTemplates.Markup
