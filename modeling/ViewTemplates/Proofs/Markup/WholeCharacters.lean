import ViewTemplates.Proofs.Markup.ByteReader

/-!
# A reader of bytes never cuts a character

The reader of bytes follows the grammar of texts. It takes the bytes of a lexeme off the bytes of a
text (`node_complete`), and at a broken place it fails with the complaints about that place
(`node_blame`).

* `read_bytes`: the bytes of every text are read as its characters are, and what is cut out of them
  or pointed at begins and ends between two characters.

Each parser has one lemma for the texts that it takes something off and one for those where it gives
up. The end of a comment is searched byte by byte, also at places within a character, but it is not
found there (`dropUntil?_cons`).
-/

set_option autoImplicit false

namespace ViewTemplates.Markup

/-! ## Words of nodes -/

/-- The text or the name in a node. -/
def Node.word? : Node → Option String
  | comment | close => none
  | text word | field word | extend word | beginSection word | showSection word
  | includePartial word => some word

theorem word?_node (helper : Helper) (name : String) : (helper.node name).word? = some name := by
  cases helper <;> rfl

/-- The word of a node stands in its lexeme. -/
theorem Lexeme.word_infix {node : Node} {piece rest : List Char} {word : String}
    (h : Lexeme node piece rest) (hword : word ∈ node.word?) : word.toList <:+: piece := by
  cases h with
  | comment | close => cases hword
  | plain | lone | parent =>
    cases hword
    exact List.infix_rfl
  | doubled =>
    cases hword
    exact ⟨[], ['@'], rfl⟩
  | field =>
    cases hword
    exact (List.suffix_cons _ _).isInfix
  | @helper helper name _ _ ha =>
    rw [word?_node] at hword
    cases hword
    cases ha with
    | @quoted before after _ _ _ _ =>
      exact ⟨'@' :: (helper.keyword.toList ++ '(' :: (before ++ ['"'])),
        '"' :: (after ++ [')']), by simp⟩

theorem Cut.word_infix {pieces : List (Node × List Char)} {text : List Char} {word : String}
    (h : Cut pieces text) : ∀ piece ∈ pieces, word ∈ piece.1.word? → word.toList <:+: text := by
  induction h with
  | nil => exact List.forall_mem_nil _
  | cons hpiece _ ih =>
    refine List.forall_mem_cons.2 ⟨fun hword => ?_, fun piece hpiece' hword => ?_⟩
    · exact List.infix_append_of_infix_left (hpiece.word_infix hword)
    · exact (ih piece hpiece' hword).trans (List.suffix_append _ _).isInfix

/-- The words of a body stand in the text that it is read from. -/
theorem word_infix_of_readNodes {text : List Char} {body : Body} (h : readNodes text = .ok body) :
    ∀ node ∈ body, ∀ word ∈ node.word?, word.toList <:+: text := by
  obtain ⟨pieces, hcut, rfl⟩ := readNodes_eq_ok.1 h
  exact List.forall_mem_map.2 fun piece hpiece word hword => hcut.word_infix piece hpiece hword

namespace Bytes

open Utf8

/-! ## Parsers on the bytes of a text -/

section
variable {α β : Type} {p : Parser α} {i rest : List UInt8} {a : α} {f : Failure}

theorem bind_of_ok {k : α → Parser β} (h : p i = .ok (a, rest)) : (p >>= k) i = k a rest := by
  show (p i >>= fun r => k r.1 r.2) = _
  rw [h]
  rfl

theorem bind_of_error {k : α → Parser β} (h : p i = .error f) : (p >>= k) i = .error f := by
  show (p i >>= fun r => k r.1 r.2) = _
  rw [h]
  rfl

theorem context_cut_of_ok {e : Expectation} (h : p i = .ok (a, rest)) :
    (p.cut.context e) i = .ok (a, rest) := by
  rw [Parser.context, Parser.cut, h]
  rfl

theorem firstOf_of_ok {ps : List (Parser α)} (h : p i = .ok (a, rest)) :
    firstOf (p :: ps) i = .ok (a, rest) := by
  cases ps <;> simp [firstOf, h, Except.mapError]

theorem firstOf_of_final {ps : List (Parser α)} (h : p i = .error f) (hf : f.final = true) :
    firstOf (p :: ps) i = .error f := by
  cases ps <;> simp [firstOf, h, Except.mapError, hf]

/-- No other alternative is tried after the result. -/
def Settled (r : Except Failure (α × List UInt8)) : Prop := ∀ f, r = .error f → f.final = true

theorem settled_ok (r : α × List UInt8) : Settled (.ok r) := by
  rintro _ ⟨⟩

theorem settled_error (h : f.final = true) :
    Settled (.error f : Except Failure (α × List UInt8)) := by
  rintro _ ⟨⟩
  exact h

theorem firstOf_of_settled {ps : List (Parser α)} {r : Except Failure (α × List UInt8)}
    (h : p i = r) (hr : Settled r) : firstOf (p :: ps) i = r := by
  cases r with
  | ok r => exact firstOf_of_ok h
  | error f => exact firstOf_of_final h (hr f rfl)

theorem firstOf_of_error {q : Parser α} {ps : List (Parser α)} (h : p i = .error f)
    (hf : f.final = false) : firstOf (p :: q :: ps) i = firstOf (q :: ps) i := by
  simp [firstOf, h, hf]

end

section
variable {cs rest : List Char}

theorem tag_append (word rest : List Char) :
    tag (encode word) (encode (word ++ rest)) = .ok ((), encode rest) := by
  rw [tag, encode_append, if_pos (List.prefix_append _ _), List.drop_left]

theorem tag_eq_error {word : List Char} (h : ¬ word <+: cs) :
    tag (encode word) (encode cs) = .error ⟨false, [(encode cs, none)]⟩ := by
  rw [tag, if_neg (mt encode_prefix_iff.1 h)]
  rfl

theorem expect_cons {c : Char} (h : c.toNat < 128) (rest : List Char) :
    expect c (encode (c :: rest)) = .ok ((), encode rest) := by
  rw [encode_cons, encode_char_of_lt h]
  exact if_pos rfl

theorem expect_of_stops {c : Char} (h : c.toNat < 128) (hstops : Stops (· == c) cs) :
    expect c (encode cs) = .error ⟨false, [(encode cs, some (.character c))]⟩ := by
  cases cs with
  | nil => rfl
  | cons d cs =>
    obtain ⟨b, tail, hchar⟩ := List.exists_cons_of_ne_nil (String.utf8EncodeChar_ne_nil (c := d))
    have hb : (b == c.toUInt8) = false :=
      (matches_eq c h d b (hchar ▸ List.mem_cons_self)).trans (hstops d rfl)
    rw [encode_cons, hchar, List.cons_append, expect, if_neg (ne_of_beq_false hb)]
    rfl

section
variable {q : UInt8 → Bool} {p : Char → Bool} {run : List Char} (h : Matches q p)
include h

theorem takeWhile_run (hrun : ∀ c ∈ run, p c = true) (hrest : Stops p rest) :
    takeWhile q (encode (run ++ rest)) = .ok (encode run, encode rest) := by
  rw [takeWhile, h.takeWhile_encode, h.dropWhile_encode, Markup.takeWhile_run hrun hrest,
    dropWhile_run hrun hrest]

theorem takeWhile1_run (hne : run ≠ []) (hrun : ∀ c ∈ run, p c = true) (hrest : Stops p rest) :
    takeWhile1 q (encode (run ++ rest)) = .ok (encode run, encode rest) := by
  have hencode : encode run ≠ [] := fun hnil => hne (encode_inj.1 hnil)
  rw [takeWhile1, h.takeWhile_encode, h.dropWhile_encode, Markup.takeWhile_run hrun hrest,
    dropWhile_run hrun hrest, if_neg hencode]

theorem takeWhile1_of_stops (hstops : Stops p cs) :
    takeWhile1 q (encode cs) = .error ⟨false, [(encode cs, none)]⟩ := by
  rw [takeWhile1, h.takeWhile_encode, hstops.takeWhile_eq_nil, if_pos encode_nil]
  rfl

end
end

/-! ## Failures -/

/-- A complaint with the bytes that are left at its place. -/
def encoded (c : Complaint) : List UInt8 × Expectation := (encode c.rest, c.expectation)

/-- What is shown of a failure are these complaints about a text, and all its notes, shown or not,
are about places between two characters of the text. -/
structure Failure.Tells (f : Failure) (text : List Char) (complaints : List Complaint) : Prop where
  shown : f.shown = complaints.map encoded
  places : ∀ note ∈ f.notes, ∃ rest, rest <:+ text ∧ note.1 = encode rest

theorem Failure.Tells.mono {f : Failure} {text text' : List Char} {complaints : List Complaint}
    (h : f.Tells text complaints) (hsuffix : text <:+ text') : f.Tells text' complaints where
  shown := h.shown
  places note hnote :=
    let ⟨rest, hrest, heq⟩ := h.places note hnote
    ⟨rest, hrest.trans hsuffix, heq⟩

/-- A failure with one note. -/
theorem tells_note {rest text : List Char} (final : Bool) (e : Option Expectation)
    (h : rest <:+ text) :
    Failure.Tells ⟨final, [(encode rest, e)]⟩ text (e.map (Complaint.mk rest)).toList where
  shown := by cases e <;> rfl
  places note hnote := by
    rw [List.mem_singleton.1 hnote]
    exact ⟨rest, h, rfl⟩

theorem context_cut_of_error {α : Type} {p : Parser α} {f : Failure} {text : List Char}
    {complaints : List Complaint} (h : p (encode text) = .error f) (hf : f.Tells text complaints)
    (e : Expectation) :
    ∃ f', (p.cut.context e) (encode text) = .error f' ∧ f'.final = true ∧
      f'.Tells text (⟨text, e⟩ :: complaints) := by
  refine ⟨{ f with final := true }.note (encode text) (some e), ?_, rfl, ?_, ?_⟩
  · rw [Parser.context, Parser.cut, h]
    rfl
  · have hshown := hf.shown
    simp only [Failure.shown, Failure.note] at hshown ⊢
    simp [hshown, encoded]
  · intro note hnote
    rcases List.mem_append.1 hnote with hnote | hnote
    · exact hf.places note hnote
    · rw [List.mem_singleton.1 hnote]
      exact ⟨text, List.suffix_rfl, rfl⟩

/-! ## Comments -/

theorem bytes_commentBegin : bytes "@*" = encode ['@', '*'] := (encode_toList "@*").symm

theorem bytes_commentEnd : bytes "*@" = encode commentEnd := (encode_toList "*@").symm

theorem dropUntil?_append {word : List UInt8} {b : UInt8} {bs : List UInt8}
    (h : ∀ b' ∈ bs, b' ≠ b) (rest : List UInt8) :
    dropUntil? (b :: word) (bs ++ rest) = dropUntil? (b :: word) rest := by
  induction bs with
  | nil => rfl
  | cons b' bs ih =>
    obtain ⟨hne, hbs⟩ := List.forall_mem_cons.1 h
    have hnot : ¬ b :: word <+: b' :: (bs ++ rest) := fun hp =>
      hne (List.cons_prefix_cons.1 hp).1.symm
    rw [List.cons_append, dropUntil?, if_neg hnot, ih hbs]

/-- The end of a comment is not found at a place within a character. -/
theorem dropUntil?_cons {c : Char} {cs : List Char} (h : ¬ commentEnd <+: c :: cs) :
    dropUntil? (encode commentEnd) (encode (c :: cs)) =
      dropUntil? (encode commentEnd) (encode cs) := by
  by_cases hc : c = '*'
  · subst hc
    have hnot : ¬ encode commentEnd <+: encode ('*' :: cs) := mt encode_prefix_iff.1 h
    exact if_neg hnot
  · refine dropUntil?_append (fun b hb => ?_) _
    exact ne_of_beq_false ((matches_eq '*' (by decide) c b hb).trans (beq_false_of_ne hc))

theorem dropUntil?_encode (cs : List Char) :
    dropUntil? (encode commentEnd) (encode cs) =
      (afterComment? cs).map fun rest => encode (commentEnd ++ rest) := by
  induction cs with
  | nil => rfl
  | cons c cs ih =>
    by_cases hend : commentEnd <+: c :: cs
    · obtain ⟨rest, hrest⟩ := hend
      rw [← hrest]
      rfl
    · rw [dropUntil?_cons hend, ih, afterComment?_cons hend]

theorem comment_complete {inside : List Char} (h : ¬ commentEnd <:+: inside ++ ['*'])
    (rest : List Char) :
    comment (encode ('@' :: '*' :: (inside ++ commentEnd ++ rest))) =
      .ok (.comment, encode rest) := by
  have hafter : afterComment? (inside ++ commentEnd ++ rest) = some rest :=
    afterComment?_eq_some.2 ⟨inside, h, rfl⟩
  have hskip : skipUntil (encode commentEnd) (encode (inside ++ commentEnd ++ rest)) =
      .ok ((), encode (commentEnd ++ rest)) := by
    rw [skipUntil, dropUntil?_encode, hafter]
    rfl
  have hend : (do skipUntil (encode commentEnd); tag (encode commentEnd) : Parser Unit)
      (encode (inside ++ commentEnd ++ rest)) = .ok ((), encode rest) :=
    (bind_of_ok hskip).trans (tag_append commentEnd rest)
  rw [comment, bytes_commentBegin, bytes_commentEnd]
  exact (bind_of_ok (tag_append ['@', '*'] _)).trans (bind_of_ok (context_cut_of_ok hend))

theorem comment_unended {rest : List Char} (h : ¬ commentEnd <:+: rest) :
    ∃ f, comment (encode ('@' :: '*' :: rest)) = .error f ∧ f.final = true ∧
      f.Tells rest [⟨rest, .commentEnd⟩] := by
  have hskip : skipUntil (encode commentEnd) (encode rest) =
      .error ⟨false, [(encode rest, none)]⟩ := by
    rw [skipUntil, dropUntil?_encode, afterComment?_eq_none.2 h]
    rfl
  obtain ⟨f, hf, hfinal, htells⟩ :=
    context_cut_of_error (bind_of_error hskip) (tells_note false none List.suffix_rfl) .commentEnd
  rw [comment, bytes_commentBegin, bytes_commentEnd]
  exact ⟨f, (bind_of_ok (tag_append ['@', '*'] rest)).trans (bind_of_error hf), hfinal, htells⟩

theorem comment_eq_error {cs : List Char} (h : ¬ ['@', '*'] <+: cs) :
    comment (encode cs) = .error ⟨false, [(encode cs, none)]⟩ := by
  rw [comment, bytes_commentBegin]
  exact bind_of_error (tag_eq_error h)

/-! ## Arguments -/

theorem textOf_bytes (word : String) : textOf (bytes word) = word := by
  rw [textOf, ← encode_toList, decodeLossy_encode, String.ofList_toList]

section
variable {c d : Char} {before rest : List Char} (hc : c.toNat < 128) (hd : d.toNat < 128)
include hc

theorem spaced_of_stops (d : Char) {cs : List Char} (h : Stops (· == c) cs) :
    spaced c d (encode cs) = .error ⟨false, [(encode cs, some (.character c))]⟩ :=
  bind_of_error (expect_of_stops hc h)

include hd
variable (hbefore : ∀ c ∈ before, Markup.isBlank c = true)
include hbefore

theorem spaced_run (hblank : Markup.isBlank d = false) (rest : List Char) :
    spaced c d (encode (c :: (before ++ d :: rest))) = .ok ((), encode rest) := by
  have hstops : Stops Markup.isBlank (d :: rest) := stops_cons.2 hblank
  refine (bind_of_ok (expect_cons hc _)).trans ?_
  refine (bind_of_ok (takeWhile_run matches_isBlank hbefore hstops)).trans ?_
  exact expect_cons hd rest

theorem spaced_of_run_stops (hblank : Stops Markup.isBlank rest) (h : Stops (· == d) rest) :
    spaced c d (encode (c :: (before ++ rest))) =
      .error ⟨false, [(encode rest, some (.character d))]⟩ := by
  refine (bind_of_ok (expect_cons hc _)).trans ?_
  refine (bind_of_ok (takeWhile_run matches_isBlank hbefore hblank)).trans ?_
  exact expect_of_stops hd h

end

section
variable {before after rest : List Char} {name : String}

theorem opening_run (hbefore : ∀ c ∈ before, Markup.isBlank c = true) (rest : List Char) :
    spaced '(' '"' (encode ('(' :: (before ++ '"' :: rest))) = .ok ((), encode rest) :=
  spaced_run (by decide) (by decide) hbefore rfl rest

theorem name_run (hname : IsArgument name) (hrest : Stops Markup.isQuotable rest) :
    takeWhile1 isQuotable (encode (name.toList ++ rest)) = .ok (bytes name, encode rest) := by
  have hne : name.toList ≠ [] := mt String.toList_eq_nil_iff.1 hname.1
  rw [← encode_toList]
  exact takeWhile1_run matches_isQuotable hne hname.isQuotable hrest

end

theorem argument_complete {name : String} {piece : List Char} (h : Argument name piece)
    (rest : List Char) : argument (encode (piece ++ rest)) = .ok (name, encode rest) := by
  cases h with
  | @quoted before after _ hbefore hname hafter =>
    have hpiece : '(' :: (before ++ '"' :: (name.toList ++ '"' :: (after ++ [')']))) ++ rest =
        '(' :: (before ++ '"' :: (name.toList ++ '"' :: (after ++ ')' :: rest))) := by simp
    have hquote : Stops Markup.isQuotable ('"' :: (after ++ ')' :: rest)) := stops_cons.2 rfl
    have hclosing : spaced '"' ')' (encode ('"' :: (after ++ ')' :: rest))) =
        .ok ((), encode rest) := spaced_run (by decide) (by decide) hafter rfl rest
    rw [hpiece]
    refine (bind_of_ok (opening_run hbefore _)).trans ?_
    refine (bind_of_ok (name_run hname hquote)).trans ?_
    refine (bind_of_ok hclosing).trans ?_
    rw [textOf_bytes]
    rfl

theorem argument_lacks {text : List Char} {missing : Option Complaint} (h : Lacks text missing) :
    ∃ f, argument (encode text) = .error f ∧ f.Tells text missing.toList := by
  have hsuffix := h.suffix
  cases h with
  | opening hstops =>
    exact ⟨_, bind_of_error (spaced_of_stops (by decide) _ hstops),
      tells_note _ (some _) (hsuffix _ rfl)⟩
  | openingQuote hbefore hblank hstops =>
    exact ⟨_, bind_of_error (spaced_of_run_stops (by decide) (by decide) hbefore hblank hstops),
      tells_note _ (some _) (hsuffix _ rfl)⟩
  | @name before rest hbefore hstops =>
    have hrest : rest <:+ '(' :: (before ++ '"' :: rest) :=
      ⟨'(' :: (before ++ ['"']), by simp⟩
    exact ⟨_, (bind_of_ok (opening_run hbefore _)).trans
      (bind_of_error (takeWhile1_of_stops matches_isQuotable hstops)), tells_note _ none hrest⟩
  | closingQuote hbefore hname hquotable hstops =>
    exact ⟨_, (bind_of_ok (opening_run hbefore _)).trans <|
      (bind_of_ok (name_run hname hquotable)).trans
        (bind_of_error (spaced_of_stops (by decide) _ hstops)),
      tells_note _ (some _) (hsuffix _ rfl)⟩
  | @closing before after rest name hbefore hname hafter hblank hstops =>
    have hquote : Stops Markup.isQuotable ('"' :: (after ++ rest)) := stops_cons.2 rfl
    exact ⟨_, (bind_of_ok (opening_run hbefore _)).trans <|
      (bind_of_ok (name_run hname hquote)).trans <| bind_of_error
        (spaced_of_run_stops (by decide) (by decide) hafter hblank hstops),
      tells_note _ (some _) (hsuffix _ rfl)⟩

/-! ## Directives -/

theorem helper?_bytes (word : String) : helper? (bytes word) = Helper.ofKeyword? word := by
  simp only [helper?, Helper.ofKeyword?, bytes_inj]

section
variable {node : Node} {word : String} {rest : List Char}

/-- A name is read in two parts, and they make up the whole name. -/
theorem name_word (hword : IsName word.toList) (hstops : Stops Markup.isNameRest rest) :
    name (encode (word.toList ++ rest)) = .ok (bytes word, encode rest) := by
  obtain ⟨first, more, hsplit, hfirst, hmore⟩ := exists_run Markup.isNameStart word.toList
  rw [hsplit] at hword
  cases first with
  | nil =>
    -- a name begins with a character that the first part takes
    cases more with
    | nil => cases hword
    | cons c cs => exact absurd hword.1 (Bool.eq_false_iff.1 (stops_cons.1 hmore))
  | cons c first =>
    have hrun : ∀ d ∈ more, Markup.isNameRest d = true := fun d hd =>
      hword.2 d (List.mem_append_right _ hd)
    have hstart : Stops Markup.isNameStart (more ++ rest) :=
      hmore.append fun _ => hstops.mono fun _ => isNameRest_of_isNameStart
    rw [hsplit, List.append_assoc]
    refine (bind_of_ok (takeWhile1_run matches_isNameStart (List.cons_ne_nil c first) hfirst
      hstart)).trans ?_
    refine (bind_of_ok (takeWhile_run matches_isNameRest hrun hstops)).trans ?_
    rw [← encode_append, ← hsplit, encode_toList]
    rfl

theorem named_of_stops (h : Stops Markup.isNameStart rest) :
    named (encode rest) = .error ⟨false, [(encode rest, none)]⟩ :=
  bind_of_error (bind_of_error (takeWhile1_of_stops matches_isNameStart h))

/-- A name that is no keyword of a helper. -/
theorem named_of_none (hword : IsName word.toList) (hstops : Stops Markup.isNameRest rest)
    (hkey : Helper.ofKeyword? word = none) (h : readNamed word rest = .ok (node, rest)) :
    named (encode (word.toList ++ rest)) = .ok (node, encode rest) := by
  refine (bind_of_ok (name_word hword hstops)).trans ?_
  simp only [helper?_bytes, hkey, bytes_inj, textOf_bytes]
  simp only [readNamed, hkey] at h
  split at h <;> rename_i hclose
  · cases h
    rw [if_pos hclose]
    rfl
  rw [if_neg hclose]
  split at h <;> rename_i hparent <;> cases h
  · rw [if_pos hparent]
    rfl
  · rw [if_neg hparent]
    rfl

theorem named_keyword (helper : Helper) (hstops : Stops Markup.isNameRest rest) :
    named (encode (helper.keyword.toList ++ rest)) =
      (do return helper.node (← (argument.cut).context (.argument helper)) : Parser Node)
        (encode rest) := by
  refine (bind_of_ok (name_word (isName_keyword helper) hstops)).trans ?_
  rw [helper?_bytes, Helper.ofKeyword?_keyword]

end

/-! ## Nodes -/

section
variable {node : Node} {rest : List Char} {r : Except Failure (Node × List UInt8)}

theorem node_of_stops (hstops : Stops (· == '*') rest) (h : directive (encode rest) = r)
    (hr : Settled r) : Bytes.node (encode ('@' :: rest)) = r := by
  have hcomment : ¬ ['@', '*'] <+: '@' :: rest := by
    rintro ⟨tail, htail⟩
    cases htail
    cases hstops '*' rfl
  have hplain : Stops (· ≠ '@') ('@' :: rest) := stops_cons.2 rfl
  have hno : plain (encode ('@' :: rest)) = .error ⟨false, [(encode ('@' :: rest), none)]⟩ :=
    bind_of_error (takeWhile1_of_stops matches_isPlain hplain)
  have hat : (do expect '@'; directive : Parser Node) (encode ('@' :: rest)) = r :=
    (bind_of_ok (expect_cons (by decide) rest)).trans h
  refine (firstOf_of_error (comment_eq_error hcomment) rfl).trans ?_
  exact (firstOf_of_error hno rfl).trans (firstOf_of_settled hat hr)

/-- A node that begins with a name. -/
theorem node_of_name {word : String} (hword : IsName word.toList)
    (h : named (encode (word.toList ++ rest)) = r) (hr : Settled r) :
    Bytes.node (encode ('@' :: (word.toList ++ rest))) = r := by
  have hat : Stops (· == '@') (word.toList ++ rest) := IsName.stops hword rfl rest
  refine node_of_stops (IsName.stops hword rfl rest) ?_ hr
  refine (firstOf_of_error (bind_of_error (expect_of_stops (by decide) hat)) rfl).trans ?_
  exact firstOf_of_settled h hr

end

theorem plain_complete {t : String} {rest : List Char} (ht : IsPlain t)
    (hstops : Stops (· ≠ '@') rest) :
    Bytes.node (encode (t.toList ++ rest)) = .ok (.text t, encode rest) := by
  have hne : t.toList ≠ [] := mt String.toList_eq_nil_iff.1 ht.1
  have hrun : ∀ c ∈ t.toList, decide (c ≠ '@') = true := fun c hc =>
    decide_eq_true fun heq => ht.2 (heq ▸ hc)
  have hcomment : ¬ ['@', '*'] <+: t.toList ++ rest := by
    obtain ⟨c, tail, hcons⟩ := List.exists_cons_of_ne_nil hne
    rintro ⟨rest', hrest⟩
    rw [hcons] at hrest
    exact ht.2 (hcons ▸ (List.cons.inj hrest).1 ▸ List.mem_cons_self)
  have hplain : plain (encode (t.toList ++ rest)) =
      .ok (.text (textOf (bytes t)), encode rest) := by
    rw [← encode_toList]
    exact bind_of_ok (takeWhile1_run matches_isPlain hne hrun hstops)
  rw [textOf_bytes] at hplain
  exact (firstOf_of_error (comment_eq_error hcomment) rfl).trans (firstOf_of_ok hplain)

/-- The bytes of a lexeme are read as its node. -/
theorem node_complete {node : Node} {piece rest : List Char} (h : Lexeme node piece rest) :
    Bytes.node (encode (piece ++ rest)) = .ok (node, encode rest) := by
  cases h with
  | comment hfirst => exact firstOf_of_ok (comment_complete hfirst rest)
  | plain ht hstops => exact plain_complete ht hstops
  | doubled =>
    have hat : (do expect '@'; return .text "@" : Parser Node) (encode ('@' :: rest)) =
        .ok (.text "@", encode rest) := bind_of_ok (expect_cons (by decide) rest)
    exact node_of_stops (stops_cons.2 rfl) (firstOf_of_ok hat) (settled_ok _)
  | lone hrest =>
    have hat : Stops (· == '@') rest := hrest.mono fun c hc => by simp_all [goesOnAt]
    have hstar : Stops (· == '*') rest := hrest.mono fun c hc => by simp_all [goesOnAt]
    have hname : Stops Markup.isNameStart rest := hrest.mono fun c hc => by simp_all [goesOnAt]
    refine node_of_stops hstar ?_ (settled_ok _)
    refine (firstOf_of_error (bind_of_error (expect_of_stops (by decide) hat)) rfl).trans ?_
    refine (firstOf_of_error (named_of_stops hname) rfl).trans ?_
    exact firstOf_of_ok rfl
  | field hname hw hrest =>
    have hkey := Helper.ofKeyword?_eq_none.2 (notMem_reservedWords.1 hw).1
    have hfield := named_of_none hname hrest hkey (readNamed_of_notMem hw)
    exact node_of_name hname hfield (settled_ok _)
  | close hrest =>
    have hclose : named (encode ("close".toList ++ rest)) = .ok (.close, encode rest) :=
      named_of_none (by decide) hrest rfl rfl
    exact node_of_name (by decide) hclose (settled_ok _)
  | parent hrest =>
    have hparent : named (encode ("parent".toList ++ rest)) =
        .ok (.text Section.marker, encode rest) := named_of_none (by decide) hrest rfl rfl
    exact node_of_name (by decide) hparent (settled_ok _)
  | @helper helper name argument _ ha =>
    rw [List.cons_append, List.append_assoc]
    refine node_of_name (isName_keyword helper) ?_ (settled_ok _)
    rw [named_keyword helper (ha.stops_isNameRest rest)]
    exact bind_of_ok (context_cut_of_ok (argument_complete ha rest))

/-- No node is read at a broken place. -/
theorem node_blame {text : List Char} {complaints : List Complaint} (h : Blame text complaints) :
    ∃ f, Bytes.node (encode text) = .error f ∧ f.final = true ∧ f.Tells text complaints := by
  cases h with
  | @comment rest hrest =>
    have hsuffix : rest <:+ '@' :: '*' :: rest := ⟨['@', '*'], rfl⟩
    obtain ⟨f, hf, hfinal, htells⟩ := comment_unended hrest
    exact ⟨f, firstOf_of_final hf hfinal, hfinal, htells.mono hsuffix⟩
  | @argument helper rest missing hrest hlacks =>
    have hsuffix : rest <:+ '@' :: (helper.keyword.toList ++ rest) :=
      ⟨'@' :: helper.keyword.toList, rfl⟩
    obtain ⟨f, hf, htells⟩ := argument_lacks hlacks
    obtain ⟨f', hf', hfinal, htells'⟩ := context_cut_of_error hf htells (.argument helper)
    have hnamed : named (encode (helper.keyword.toList ++ rest)) = .error f' := by
      rw [named_keyword helper hrest]
      exact bind_of_error hf'
    exact ⟨f', node_of_name (isName_keyword helper) hnamed (settled_error hfinal), hfinal,
      htells'.mono hsuffix⟩

/-! ## Texts -/

theorem length_encode_lt {node : Node} {piece rest : List Char} (h : Lexeme node piece rest) :
    (encode rest).length < (encode (piece ++ rest)).length := by
  obtain ⟨c, tail, rfl, -⟩ := h.head
  have hchar := List.length_pos_iff.2 (String.utf8EncodeChar_ne_nil (c := c))
  simp only [encode_append, encode_cons, List.length_append]
  omega

theorem nodes_of_lexeme {node : Node} {piece rest : List Char} (h : Lexeme node piece rest) :
    nodes (encode (piece ++ rest)) = (nodes (encode rest)).map (node :: ·) := by
  have hlength := length_encode_lt h
  rw [nodes, if_neg, node_complete h]
  · exact if_pos hlength
  · rintro hnil
    rw [hnil] at hlength
    exact absurd hlength (Nat.not_lt_zero _)

theorem nodes_of_cut {pieces : List (Node × List Char)} {text : List Char} (h : Cut pieces text) :
    nodes (encode text) = .ok (pieces.map Prod.fst) := by
  induction h with
  | nil => rw [nodes, if_pos encode_nil, List.map_nil]
  | cons hpiece _ ih =>
    rw [nodes_of_lexeme hpiece, ih]
    rfl

theorem nodes_of_scan {pieces : List (Node × List Char)} {text place : List Char}
    {complaints : List Complaint} (h : Scan pieces text place) (hblame : Blame place complaints) :
    ∃ f, nodes (encode text) = .error f ∧ f.final = true ∧ f.Tells text complaints := by
  induction h with
  | @nil text =>
    obtain ⟨f, hf, hfinal, htells⟩ := node_blame hblame
    have hne : encode text ≠ [] := by
      cases hblame <;> exact List.cons_ne_nil _ _
    refine ⟨f, ?_, hfinal, htells⟩
    rw [nodes, if_neg hne, hf]
    exact congrArg _ (if_pos hfinal)
  | cons hpiece _ ih =>
    obtain ⟨f, hf, hfinal, htells⟩ := ih hblame
    refine ⟨f, ?_, hfinal, htells.mono (List.suffix_append _ _)⟩
    rw [nodes_of_lexeme hpiece, hf]
    rfl

theorem nodes_of_readNodes_ok {text : List Char} {body : Body} (h : readNodes text = .ok body) :
    nodes (encode text) = .ok body := by
  obtain ⟨pieces, hcut, rfl⟩ := readNodes_eq_ok.1 h
  exact nodes_of_cut hcut

theorem nodes_of_readNodes_error {text : List Char} {complaints : List Complaint}
    (h : readNodes text = .error complaints) :
    ∃ f, nodes (encode text) = .error f ∧ f.final = true ∧ f.Tells text complaints := by
  obtain ⟨pieces, place, hscan, hblame⟩ := readNodes_eq_error.1 h
  exact nodes_of_scan hscan hblame

/-- The number of bytes before the place of a complaint. -/
def offset (source : List Char) (c : Complaint) : Nat := (encode (c.before source)).length

theorem offset_eq {source : List Char} {c : Complaint} (h : c.rest <:+ source) :
    offset source c = (encode source).length - (encode c.rest).length := by
  have hlength := congrArg List.length (encode_append (c.before source) c.rest)
  rw [Complaint.before_append h, List.length_append] at hlength
  exact (Nat.sub_eq_of_eq_add hlength).symm

/-- The place that a suffix of a text begins at is between two characters. -/
theorem isValid_of_suffix {text : String} {rest : List Char} (h : rest <:+ text.toList) :
    String.Pos.Raw.IsValid text ⟨(bytes text).length - (encode rest).length⟩ := by
  obtain ⟨before, hbefore⟩ := h
  have hsplit : text = String.ofList before ++ String.ofList rest := by
    rw [← String.ofList_append, hbefore, String.ofList_toList]
  refine String.Pos.Raw.isValid_iff_exists_append.2 ⟨_, _, hsplit, ?_⟩
  rw [← encode_toList, ← hbefore, encode_append, List.length_append, Nat.add_sub_cancel,
    length_encode]
  rfl

theorem read_encode (text : List Char) :
    read (encode text) = (readNodes text).mapError
      (·.map fun c => (offset text c, c.expectation)) := by
  cases h : readNodes text with
  | ok body =>
    rw [read, nodes_of_readNodes_ok h]
    rfl
  | error complaints =>
    obtain ⟨f, hf, -, htells⟩ := nodes_of_readNodes_error h
    rw [read, hf]
    simp only [Except.mapError, htells.shown, List.map_map]
    refine congrArg Except.error (List.map_congr_left fun c hc => ?_)
    rw [offset_eq ((complaints_of_readNodes h).2 c hc)]
    rfl

/-- The bytes of every text are read as its characters are: as the same body, or with the same
complaints, each at the place that has as many bytes before it. Every word of the body is a part of
the text, so no character of it has been replaced. No complaint is about a place within a character,
and neither is a note that is not shown. -/
theorem read_bytes (text : String) :
    read (bytes text) = (readNodes text.toList).mapError
        (·.map fun c => (offset text.toList c, c.expectation)) ∧
      (∀ body, read (bytes text) = .ok body → ∀ node ∈ body, ∀ word ∈ node.word?,
        word.toList <:+: text.toList ∧
          (replacement ∈ word.toList → replacement ∈ text.toList)) ∧
      (∀ places, read (bytes text) = .error places → places ≠ [] ∧
        ∀ place ∈ places, String.Pos.Raw.IsValid text ⟨place.1⟩) ∧
      ∀ f, nodes (bytes text) = .error f → ∀ note ∈ f.notes,
        String.Pos.Raw.IsValid text ⟨(bytes text).length - note.1.length⟩ := by
  have hread := read_encode text.toList
  rw [encode_toList] at hread
  cases h : readNodes text.toList with
  | ok body =>
    have hnodes := nodes_of_readNodes_ok h
    rw [encode_toList] at hnodes
    rw [h] at hread
    refine ⟨hread, fun body' hbody node hnode word hword => ?_, fun places hplaces => ?_,
      fun f hf => ?_⟩
    · cases hread.symm.trans hbody
      have hpart := word_infix_of_readNodes h node hnode word hword
      exact ⟨hpart, hpart.mem⟩
    · cases hread.symm.trans hplaces
    · cases hnodes.symm.trans hf
  | error complaints =>
    obtain ⟨f, hnodes, -, htells⟩ := nodes_of_readNodes_error h
    obtain ⟨hne, hsuffix⟩ := complaints_of_readNodes h
    rw [encode_toList] at hnodes
    rw [h] at hread
    refine ⟨hread, fun body hbody => ?_, fun places hplaces => ?_, fun f' hf note hnote => ?_⟩
    · cases hread.symm.trans hbody
    · cases hread.symm.trans hplaces
      refine ⟨mt List.map_eq_nil_iff.1 hne, List.forall_mem_map.2 fun c hc => ?_⟩
      rw [offset_eq (hsuffix c hc), encode_toList]
      exact isValid_of_suffix (hsuffix c hc)
    · cases hnodes.symm.trans hf
      obtain ⟨rest, hrest, heq⟩ := htells.places note hnote
      rw [heq]
      exact isValid_of_suffix hrest

/-- Characters of two and three bytes beside an `@`, quotes and a comment, and before the end of a
text that lacks a quote. -/
theorem read_bytes_multibyte :
    let body : Body := [.text "é", .text "@", .text "ñ", .comment, .showSection "日本"]
    let places := [(8, Expectation.argument .showSection), (16, .character '"')]
    read (bytes "é@ñ@*€*@@show(\"日本\")") = .ok body ∧
      (∀ node ∈ body, ∀ word ∈ node.word?, word.toList <:+: "é@ñ@*€*@@show(\"日本\")".toList ∧
        (replacement ∈ word.toList → replacement ∈ "é@ñ@*€*@@show(\"日本\")".toList)) ∧
      read (bytes "é\n@show(\"日本") = .error places ∧
      ∀ place ∈ places, String.Pos.Raw.IsValid "é\n@show(\"日本" ⟨place.1⟩ := by
  intro body places
  have hsource : "é@ñ@*€*@@show(\"日本\")".toList =
      ['é'] ++ (['@'] ++ (['ñ'] ++ ("@*€*@".toList ++ ("@show(\"日本\")".toList ++ [])))) := by
    decide
  have hshow : Lexeme (.showSection "日本") "@show(\"日本\")".toList [] :=
    @Lexeme.helper .showSection "日本" _ _ (@Argument.quoted [] [] "日本" (List.forall_mem_nil _)
      ⟨by decide, by decide, by decide⟩ (List.forall_mem_nil _))
  have hcomment : Lexeme .comment "@*€*@".toList ("@show(\"日本\")".toList ++ []) :=
    @Lexeme.comment ['€'] _ (by decide)
  have hcut : Cut [(.text "é", ['é']), (.text "@", ['@']), (.text "ñ", ['ñ']),
      (.comment, "@*€*@".toList), (.showSection "日本", "@show(\"日本\")".toList)]
      "é@ñ@*€*@@show(\"日本\")".toList := by
    rw [hsource]
    exact .cons (@Lexeme.plain "é" _ ⟨by decide, by decide⟩ (stops_cons.2 rfl)) <|
      .cons (.lone (stops_cons.2 rfl)) <|
      .cons (@Lexeme.plain "ñ" _ ⟨by decide, by decide⟩ (stops_cons.2 rfl)) <|
      .cons hcomment <| .cons hshow .nil
  have hplaces : readNodes "é\n@show(\"日本".toList =
      .error [⟨"(\"日本".toList, .argument .showSection⟩, ⟨[], .character '"'⟩] :=
    (readNodes_of_read_ok rfl).trans (congrArg _ (readNodes_of_read_error rfl))
  obtain ⟨hread, hwords, -⟩ := read_bytes "é@ñ@*€*@@show(\"日本\")"
  obtain ⟨hread', -, hboundaries, -⟩ := read_bytes "é\n@show(\"日本"
  rw [readNodes_eq_ok.2 ⟨_, hcut, rfl⟩] at hread
  rw [hplaces] at hread'
  have hfails : read (bytes "é\n@show(\"日本") = .error places := hread'.trans (by decide +kernel)
  exact ⟨hread, hwords body hread, hfails, (hboundaries places hfails).2⟩

end Bytes

end ViewTemplates.Markup
