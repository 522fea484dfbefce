import Mathlib.Data.List.TakeWhile
import Mathlib.Data.Set.Subsingleton
import ViewTemplates.Markup.Body

/-!
# The grammar of template texts

A template text is a concatenation of lexemes, one for each node. `Lexeme node piece rest` says that
`piece` is a lexeme of `node` where `rest` follows; some lexemes depend on what follows them, since
names and runs of text go on as long as they can. `Cut pieces text` cuts a text into lexemes.

* `ofText_eq_ok_iff_cut`: a text is read as a body exactly if it can be cut into lexemes of the
  nodes of the body, and there is at most one way to cut it.

Each reading function succeeds exactly on the texts that the grammar has for it
(`afterComment?_eq_some`, `readArgument_eq_ok`, `Node.read_eq_ok`, `readNodes_eq_ok`). So a text
begins with at most one lexeme (`Lexeme.unique`).
-/

set_option autoImplicit false

namespace ViewTemplates.Markup

/-! ## Lexemes -/

/-- A run of characters with the property `p` does not go on in `rest`. -/
def Stops (p : Char → Bool) (rest : List Char) : Prop := ∀ c ∈ rest.head?, p c = false

/-- A run of text without an `@`. -/
def IsPlain (t : String) : Prop := t ≠ "" ∧ '@' ∉ t.toList

/-- A letter or `_`, and then letters, digits and `_`. -/
def IsName : List Char → Prop
  | [] => False
  | c :: cs => isNameStart c = true ∧ ∀ d ∈ cs, isNameRest d = true

instance : DecidablePred IsName
  | [] => inferInstanceAs (Decidable False)
  -- by the list, and not by trying all characters
  | _ :: cs => @instDecidableAnd _ _ inferInstance (List.decidableBAll _ cs)

/-- The words that are no names of fields. -/
def reservedWords : List String := ["extend", "section", "show", "partial", "close", "parent"]

/-- A name that can stand in an argument. -/
def IsArgument (name : String) : Prop := name ≠ "" ∧ '"' ∉ name.toList ∧ '\n' ∉ name.toList

/-- A name in quotes and parentheses, with blanks around the quotes. -/
inductive Argument : String → List Char → Prop
  | quoted {before after : List Char} {name : String} : (∀ c ∈ before, isBlank c = true) →
      IsArgument name → (∀ c ∈ after, isBlank c = true) →
      Argument name ('(' :: (before ++ '"' :: (name.toList ++ '"' :: (after ++ [')']))))

/-- The end of a comment. -/
def commentEnd : List Char := ['*', '@']

/-- The characters that an `@` before them belongs to. -/
def goesOnAt (c : Char) : Bool := c == '@' || c == '*' || isNameStart c

/-- `piece` is a lexeme of the node where `rest` follows. -/
inductive Lexeme : Node → List Char → List Char → Prop
  /-- A comment ends with the first `*@`. -/
  | comment {inside rest : List Char} : ¬ commentEnd <:+: inside ++ ['*'] →
      Lexeme .comment ('@' :: '*' :: (inside ++ commentEnd)) rest
  /-- Plain text goes on up to the next `@`. -/
  | plain {t : String} {rest : List Char} : IsPlain t → Stops (· ≠ '@') rest →
      Lexeme (.text t) t.toList rest
  | doubled {rest : List Char} : Lexeme (.text "@") ['@', '@'] rest
  | lone {rest : List Char} : Stops goesOnAt rest → Lexeme (.text "@") ['@'] rest
  | field {name : String} {rest : List Char} : IsName name.toList → name ∉ reservedWords →
      Stops isNameRest rest → Lexeme (.field name) ('@' :: name.toList) rest
  | close {rest : List Char} : Stops isNameRest rest → Lexeme .close ('@' :: "close".toList) rest
  | parent {rest : List Char} : Stops isNameRest rest →
      Lexeme (.text Section.marker) ('@' :: "parent".toList) rest
  | helper {h : Helper} {name : String} {argument rest : List Char} : Argument name argument →
      Lexeme (h.node name) ('@' :: (h.keyword.toList ++ argument)) rest

/-- A text cut into lexemes, each with its node. -/
inductive Cut : List (Node × List Char) → List Char → Prop
  | nil : Cut [] []
  | cons {node : Node} {piece rest : List Char} {pieces : List (Node × List Char)} :
      Lexeme node piece rest → Cut pieces rest → Cut ((node, piece) :: pieces) (piece ++ rest)

/-! ## Runs of characters -/

section
variable {p : Char → Bool} {run rest : List Char}

theorem stops_nil : Stops p [] := by
  intro c hc
  cases hc

theorem stops_cons {c : Char} : Stops p (c :: rest) ↔ p c = false := by
  simp [Stops]

theorem stops_append (hne : run ≠ []) : Stops p (run ++ rest) ↔ Stops p run := by
  simp [Stops, hne]

theorem Stops.append {next : List Char} (h : Stops p rest) (hnext : rest = [] → Stops p next) :
    Stops p (rest ++ next) := by
  cases rest with
  | nil => exact hnext rfl
  | cons c cs => exact (stops_append (List.cons_ne_nil c cs)).2 h

theorem Stops.mono {q : Char → Bool} (h : Stops q rest) (hpq : ∀ c, p c = true → q c = true) :
    Stops p rest := fun c hc =>
  Bool.eq_false_iff.2 fun hp => by simpa [hpq c hp] using h c hc

theorem Stops.takeWhile_eq_nil (h : Stops p rest) : rest.takeWhile p = [] := by
  cases rest with
  | nil => rfl
  | cons c cs => simp [h c rfl]

theorem Stops.dropWhile_eq_self (h : Stops p rest) : rest.dropWhile p = rest := by
  cases rest with
  | nil => rfl
  | cons c cs => simp [h c rfl]

theorem stops_dropWhile (p : Char → Bool) (text : List Char) : Stops p (text.dropWhile p) := by
  intro c hc
  have h := List.head?_dropWhile_not p text
  rw [Option.mem_def.1 hc] at h
  exact h

/-- Every text begins with a run of characters with the property `p`. -/
theorem exists_run (p : Char → Bool) (text : List Char) :
    ∃ run rest, text = run ++ rest ∧ (∀ c ∈ run, p c = true) ∧ Stops p rest :=
  ⟨_, _, List.takeWhile_append_dropWhile.symm, fun _ hc => List.mem_takeWhile_imp hc,
    stops_dropWhile p text⟩

theorem takeWhile_run (hrun : ∀ c ∈ run, p c = true) (hrest : Stops p rest) :
    (run ++ rest).takeWhile p = run := by
  rw [List.takeWhile_append_of_pos hrun, hrest.takeWhile_eq_nil, List.append_nil]

theorem dropWhile_run (hrun : ∀ c ∈ run, p c = true) (hrest : Stops p rest) :
    (run ++ rest).dropWhile p = rest := by
  rw [List.dropWhile_append_of_pos hrun, hrest.dropWhile_eq_self]

end

/-! ## Comments -/

theorem afterComment?_cons {c : Char} {text : List Char} (h : ¬ commentEnd <+: c :: text) :
    afterComment? (c :: text) = afterComment? text := by
  rw [afterComment?]
  rintro rest rfl rfl
  exact h ⟨rest, rfl⟩

theorem commentEnd_prefix_cons {c : Char} {inside rest : List Char} :
    commentEnd <+: c :: (inside ++ commentEnd ++ rest) ↔ commentEnd <+: c :: (inside ++ ['*']) := by
  cases inside with
  | nil => simp [commentEnd]
  | cons d inside => simp [commentEnd]

/-- What is after a comment begins at the first end of a comment. -/
theorem afterComment?_eq_some {text rest : List Char} :
    afterComment? text = some rest ↔
      ∃ inside, ¬ commentEnd <:+: inside ++ ['*'] ∧ text = inside ++ commentEnd ++ rest := by
  constructor
  · intro h
    induction text with
    | nil => cases h
    | cons c text ih =>
      by_cases hend : commentEnd <+: c :: text
      · obtain ⟨tail, htail⟩ := hend
        rw [← htail] at h
        cases h
        exact ⟨[], by decide, htail.symm⟩
      · rw [afterComment?_cons hend] at h
        obtain ⟨inside, hfirst, rfl⟩ := ih h
        refine ⟨c :: inside, ?_, rfl⟩
        rw [commentEnd_prefix_cons] at hend
        rw [List.cons_append, List.infix_cons_iff]
        exact not_or.2 ⟨hend, hfirst⟩
  · rintro ⟨inside, hfirst, rfl⟩
    induction inside with
    | nil => rfl
    | cons c inside ih =>
      rw [List.cons_append, List.infix_cons_iff, not_or] at hfirst
      rw [List.cons_append, List.cons_append, afterComment?_cons, ih hfirst.2]
      exact mt commentEnd_prefix_cons.1 hfirst.1

/-! ## Arguments -/

theorem readChar_cons (c : Char) (rest : List Char) : readChar c (c :: rest) = .ok rest := by
  simp [readChar]

theorem isQuotable_eq_true {c : Char} : isQuotable c = true ↔ c ≠ '"' ∧ c ≠ '\n' := by
  simp [isQuotable]

theorem IsArgument.isQuotable {name : String} (h : IsArgument name) :
    ∀ c ∈ name.toList, isQuotable c = true := by
  intro c hc
  refine isQuotable_eq_true.2 ⟨?_, ?_⟩
  · rintro rfl
    exact h.2.1 hc
  · rintro rfl
    exact h.2.2 hc

theorem isArgument_takeWhile {body : List Char} (h : body.takeWhile isQuotable ≠ []) :
    IsArgument (String.ofList (body.takeWhile isQuotable)) := by
  refine ⟨by simpa using h, fun hc => ?_, fun hc => ?_⟩
  · rw [String.toList_ofList] at hc
    exact (isQuotable_eq_true.1 (List.mem_takeWhile_imp hc)).1 rfl
  · rw [String.toList_ofList] at hc
    exact (isQuotable_eq_true.1 (List.mem_takeWhile_imp hc)).2 rfl

theorem readArgument_eq_ok {text rest : List Char} {name : String} :
    readArgument text = .ok (name, rest) ↔
      ∃ argument, Argument name argument ∧ text = argument ++ rest := by
  constructor
  · intro h
    obtain ⟨quoted, body, unquoted, rfl, h₁, hne, rfl, h₂, h₃⟩ := readArgument_parts h
    have hquoted := List.takeWhile_append_dropWhile (p := isBlank) (l := quoted)
    have hbody := List.takeWhile_append_dropWhile (p := isQuotable) (l := body)
    have hunquoted := List.takeWhile_append_dropWhile (p := isBlank) (l := unquoted)
    rw [h₁] at hquoted
    rw [h₂] at hbody
    rw [h₃] at hunquoted
    have hbefore : ∀ c ∈ quoted.takeWhile isBlank, isBlank c = true := fun c hc =>
      List.mem_takeWhile_imp hc
    have hafter : ∀ c ∈ unquoted.takeWhile isBlank, isBlank c = true := fun c hc =>
      List.mem_takeWhile_imp hc
    refine ⟨_, .quoted hbefore (isArgument_takeWhile hne) hafter, ?_⟩
    simp [hunquoted, hbody, hquoted]
  · rintro ⟨_, @⟨before, after, name, hbefore, hname, hafter⟩, rfl⟩
    have hne : name.toList ≠ [] := mt String.toList_eq_nil_iff.1 hname.1
    have h₁ (tail : List Char) : (before ++ '"' :: tail).dropWhile isBlank = '"' :: tail :=
      dropWhile_run hbefore (stops_cons.2 rfl)
    have h₂ (tail : List Char) : (name.toList ++ '"' :: tail).dropWhile isQuotable = '"' :: tail :=
      dropWhile_run hname.isQuotable (stops_cons.2 rfl)
    have h₃ (tail : List Char) : (name.toList ++ '"' :: tail).takeWhile isQuotable = name.toList :=
      takeWhile_run hname.isQuotable (stops_cons.2 rfl)
    have h₄ (tail : List Char) : (after ++ ')' :: tail).dropWhile isBlank = ')' :: tail :=
      dropWhile_run hafter (stops_cons.2 rfl)
    simp only [readArgument, List.cons_append, List.append_assoc, List.nil_append, readChar_cons,
      bind, Except.bind, h₁, h₂, h₃, h₄, if_neg hne, String.ofList_toList]
    rfl

/-! ## Directives -/

theorem notMem_reservedWords {word : String} :
    word ∉ reservedWords ↔ (∀ h : Helper, word ≠ h.keyword) ∧ word ≠ "close" ∧ word ≠ "parent" := by
  constructor
  · intro hw
    simp only [reservedWords, List.mem_cons, List.not_mem_nil, or_false, not_or] at hw
    refine ⟨fun h => ?_, hw.2.2.2.2.1, hw.2.2.2.2.2⟩
    cases h <;> simp [Helper.keyword, hw]
  · rintro ⟨hkey, hclose, hparent⟩ hw
    have hextend := hkey .extend
    have hsection := hkey .beginSection
    have hshow := hkey .showSection
    have hpartial := hkey .includePartial
    simp_all [reservedWords, Helper.keyword]

section
variable {name : String} {text rest : List Char} {node : Node}

theorem readNamed_of_argument {h : Helper} {argument : List Char} (ha : Argument name argument) :
    readNamed h.keyword (argument ++ rest) = .ok (h.node name, rest) := by
  have hread : readArgument (argument ++ rest) = .ok (name, rest) :=
    readArgument_eq_ok.2 ⟨argument, ha, rfl⟩
  simp [readNamed, hread]

theorem readNamed_of_notMem (h : name ∉ reservedWords) :
    readNamed name rest = .ok (.field name, rest) := by
  obtain ⟨hkey, hclose, hparent⟩ := notMem_reservedWords.1 h
  simp [readNamed, Helper.ofKeyword?_eq_none.2 hkey, hclose, hparent]

theorem readNamed_sound (hname : IsName name.toList) (hstops : Stops isNameRest text)
    (h : readNamed name text = .ok (node, rest)) :
    ∃ piece, Lexeme node ('@' :: (name.toList ++ piece)) rest ∧ text = piece ++ rest := by
  rw [readNamed] at h
  split at h
  · rename_i helper hkey
    split at h <;> cases h
    rename_i argument hread
    obtain ⟨piece, ha, rfl⟩ := readArgument_eq_ok.1 hread
    obtain rfl := Helper.ofKeyword?_eq_some.1 hkey
    exact ⟨piece, .helper ha, rfl⟩
  · rename_i hkey
    split at h
    · rename_i hclose
      cases h
      exact ⟨[], hclose ▸ .close hstops, rfl⟩
    split at h
    · rename_i hparent
      cases h
      exact ⟨[], hparent ▸ .parent hstops, rfl⟩
    · rename_i hclose hparent
      cases h
      have hw := notMem_reservedWords.2 ⟨Helper.ofKeyword?_eq_none.1 hkey, hclose, hparent⟩
      refine ⟨[], ?_, rfl⟩
      rw [List.append_nil]
      exact .field hname hw hstops

theorem isNameRest_of_isNameStart {c : Char} (h : isNameStart c = true) : isNameRest c = true := by
  simp only [isNameStart, isNameRest, Char.isAlphanum, Bool.or_eq_true] at h ⊢
  exact h.imp_left .inl

/-- A name begins with no character that cannot begin one. -/
theorem IsName.stops {word : List Char} {c : Char} (h : IsName word) (hc : isNameStart c = false)
    (rest : List Char) : Stops (· == c) (word ++ rest) := by
  cases word with
  | nil => cases h
  | cons d cs =>
    refine stops_cons.2 (beq_false_of_ne ?_)
    rintro rfl
    exact Bool.eq_false_iff.1 hc h.1

theorem readDirective_of_name (hname : IsName name.toList) (hstops : Stops isNameRest rest) :
    readDirective (name.toList ++ rest) = readNamed name rest := by
  cases hn : name.toList with
  | nil =>
    rw [hn] at hname
    cases hname
  | cons c cs =>
    rw [hn] at hname
    obtain ⟨hc, hcs⟩ := hname
    have hstar : c ≠ '*' := by
      rintro rfl
      cases hc
    have hat : c ≠ '@' := by
      rintro rfl
      cases hc
    rw [List.cons_append, readDirective]
    · rw [if_pos hc, takeWhile_run hcs hstops, dropWhile_run hcs hstops, ← hn, String.ofList_toList]
    · exact hstar
    · exact hat

theorem readDirective_of_lone (h : Stops goesOnAt rest) :
    readDirective rest = .ok (.text "@", rest) := by
  cases rest with
  | nil => rfl
  | cons c cs =>
    rw [stops_cons] at h
    simp only [goesOnAt, Bool.or_eq_false_iff, beq_eq_false_iff_ne] at h
    obtain ⟨⟨hat, hstar⟩, hname⟩ := h
    rw [readDirective]
    · simp [hname]
    · exact hstar
    · exact hat

theorem isName_keyword (h : Helper) : IsName h.keyword.toList := by
  cases h <;> decide

theorem Argument.stops_isNameRest {argument : List Char} (h : Argument name argument)
    (rest : List Char) : Stops isNameRest (argument ++ rest) := by
  cases h
  exact stops_cons.2 rfl

theorem readDirective_complete {piece : List Char} (h : Lexeme node ('@' :: piece) rest) :
    readDirective (piece ++ rest) = .ok (node, rest) := by
  generalize hp : '@' :: piece = lexeme at h
  cases h with
  | @comment inside _ hfirst =>
    cases hp
    have hend : afterComment? (inside ++ commentEnd ++ rest) = some rest :=
      afterComment?_eq_some.2 ⟨inside, hfirst, rfl⟩
    rw [List.cons_append, readDirective, hend]
  | plain ht _ =>
    rw [IsPlain, ← hp] at ht
    exact absurd List.mem_cons_self ht.2
  | doubled =>
    cases hp
    rfl
  | lone hstops =>
    cases hp
    exact readDirective_of_lone hstops
  | field hname hw hstops =>
    cases hp
    rw [readDirective_of_name hname hstops, readNamed_of_notMem hw]
  | close hstops =>
    cases hp
    exact readDirective_of_name (by decide) hstops
  | parent hstops =>
    cases hp
    exact readDirective_of_name (by decide) hstops
  | @helper helper name argument _ ha =>
    cases hp
    rw [List.append_assoc, readDirective_of_name (isName_keyword helper) (ha.stops_isNameRest rest),
      readNamed_of_argument ha]

theorem readDirective_sound (h : readDirective text = .ok (node, rest)) :
    ∃ piece, Lexeme node ('@' :: piece) rest ∧ text = piece ++ rest := by
  rw [readDirective.eq_def] at h
  split at h
  · cases h
    exact ⟨[], .lone nofun, rfl⟩
  · split at h <;> cases h
    rename_i hend
    obtain ⟨inside, hfirst, rfl⟩ := afterComment?_eq_some.1 hend
    exact ⟨_, .comment hfirst, rfl⟩
  · cases h
    exact ⟨['@'], .doubled, rfl⟩
  · rename_i c cs hstar hat
    split at h
    · rename_i hc
      have hname : IsName (String.ofList (c :: cs.takeWhile isNameRest)).toList := by
        rw [String.toList_ofList]
        exact ⟨hc, fun d hd => List.mem_takeWhile_imp hd⟩
      obtain ⟨piece, hpiece, hcs⟩ := readNamed_sound hname (stops_dropWhile _ _) h
      refine ⟨_, hpiece, ?_⟩
      rw [List.append_assoc, ← hcs, String.toList_ofList, List.cons_append,
        List.takeWhile_append_dropWhile]
    · rename_i hc
      cases h
      refine ⟨[], .lone (stops_cons.2 ?_), rfl⟩
      simp [goesOnAt, show c ≠ '*' from hstar, show c ≠ '@' from hat, hc]

end

/-! ## Nodes -/

/-- A lexeme begins with an `@`, or it is plain text. -/
theorem Lexeme.head {node : Node} {piece rest : List Char} (h : Lexeme node piece rest) :
    ∃ c tail, piece = c :: tail ∧ (c ≠ '@' →
      node = .text (String.ofList piece) ∧ '@' ∉ piece ∧ Stops (· ≠ '@') rest) := by
  cases h with
  | @plain t _ ht hstops =>
    obtain ⟨c, tail, hcons⟩ := List.exists_cons_of_ne_nil (mt String.toList_eq_nil_iff.1 ht.1)
    exact ⟨c, tail, hcons, fun _ => ⟨by rw [String.ofList_toList], ht.2, hstops⟩⟩
  | comment | doubled | lone | field | close | parent | helper =>
    exact ⟨'@', _, rfl, absurd rfl⟩

/-- A node is read exactly if the text begins with a lexeme of it. -/
theorem Node.read_eq_ok {c : Char} {cs rest : List Char} {node : Node} :
    Node.read c cs = .ok (node, rest) ↔
      ∃ piece, Lexeme node piece rest ∧ c :: cs = piece ++ rest := by
  by_cases hc : c = '@'
  · subst hc
    rw [Node.read, if_pos rfl]
    constructor
    · intro h
      obtain ⟨piece, hpiece, rfl⟩ := readDirective_sound h
      exact ⟨_, hpiece, rfl⟩
    · rintro ⟨piece, hpiece, heq⟩
      obtain ⟨d, tail, rfl, -⟩ := hpiece.head
      obtain ⟨rfl, rfl⟩ := List.cons.inj heq
      exact readDirective_complete hpiece
  · rw [Node.read, if_neg hc]
    constructor
    · intro h
      cases h
      have hplain : IsPlain (String.ofList (c :: cs.takeWhile (· ≠ '@'))) := by
        refine ⟨by simp, fun hmem => ?_⟩
        rw [String.toList_ofList] at hmem
        rcases List.mem_cons.1 hmem with h | h
        · exact hc h.symm
        · simpa using List.mem_takeWhile_imp h
      refine ⟨_, .plain hplain (stops_dropWhile _ _), ?_⟩
      rw [String.toList_ofList, List.cons_append, List.takeWhile_append_dropWhile]
    · rintro ⟨piece, hpiece, heq⟩
      obtain ⟨d, tail, rfl, hplain⟩ := hpiece.head
      rw [List.cons_append, List.cons.injEq] at heq
      obtain ⟨rfl, rfl⟩ := heq
      obtain ⟨rfl, hrun, hstops⟩ := hplain hc
      have htail : ∀ d ∈ tail, decide (d ≠ '@') = true := by
        intro d hd
        rw [decide_eq_true_eq]
        rintro rfl
        exact hrun (List.mem_cons_of_mem _ hd)
      rw [takeWhile_run htail hstops, dropWhile_run htail hstops]

/-- Where two lexemes begin the same text, they are the same. -/
theorem Lexeme.unique {node node' : Node} {piece piece' rest rest' : List Char}
    (h : Lexeme node piece rest) (h' : Lexeme node' piece' rest')
    (heq : piece ++ rest = piece' ++ rest') : node = node' ∧ piece = piece' ∧ rest = rest' := by
  obtain ⟨c, tail, hc, -⟩ := h.head
  have hread : Node.read c (tail ++ rest) = .ok (node, rest) :=
    Node.read_eq_ok.2 ⟨piece, h, by rw [hc, List.cons_append]⟩
  have hread' : Node.read c (tail ++ rest) = .ok (node', rest') :=
    Node.read_eq_ok.2 ⟨piece', h', by rw [← heq, hc, List.cons_append]⟩
  cases hread.symm.trans hread'
  exact ⟨rfl, List.append_cancel_right heq, rfl⟩

/-! ## Texts -/

theorem readNodes_lexeme {node : Node} {piece rest : List Char} (h : Lexeme node piece rest) :
    readNodes (piece ++ rest) = (readNodes rest).map (node :: ·) := by
  obtain ⟨c, tail, rfl, -⟩ := h.head
  exact readNodes_of_read_ok (Node.read_eq_ok.2 ⟨_, h, rfl⟩)

section
variable {text : List Char} {pieces pieces' : List (Node × List Char)}

theorem Cut.flatten (h : Cut pieces text) : (pieces.map Prod.snd).flatten = text := by
  induction h with
  | nil => rfl
  | cons _ _ ih => rw [List.map_cons, List.flatten_cons, ih]

theorem Cut.unique (h : Cut pieces text) (h' : Cut pieces' text) : pieces = pieces' := by
  induction h generalizing pieces' with
  | nil =>
    generalize ht : ([] : List Char) = text at h'
    cases h' with
    | nil => rfl
    | cons hpiece _ =>
      obtain ⟨c, tail, rfl, -⟩ := hpiece.head
      cases ht
  | @cons node piece rest pieces hpiece hrest ih =>
    generalize ht : piece ++ rest = text at h'
    cases h' with
    | nil =>
      obtain ⟨c, tail, rfl, -⟩ := hpiece.head
      cases ht
    | cons hpiece' hrest' =>
      obtain ⟨rfl, rfl, rfl⟩ := hpiece.unique hpiece' ht
      rw [ih hrest']

theorem readNodes_eq_ok {nodes : List Node} :
    readNodes text = .ok nodes ↔ ∃ pieces, Cut pieces text ∧ pieces.map Prod.fst = nodes := by
  constructor
  · intro h
    fun_induction readNodes text generalizing nodes with
    | case1 =>
      cases h
      exact ⟨[], .nil, rfl⟩
    | case2 c cs node rest hread ih =>
      cases hrest : readNodes rest with
      | error e =>
        rw [hrest] at h
        cases h
      | ok nodes' =>
        rw [hrest] at h
        cases h
        obtain ⟨piece, hpiece, heq⟩ := Node.read_eq_ok.1 hread
        obtain ⟨pieces, hcut, rfl⟩ := ih hrest
        exact ⟨(node, piece) :: pieces, heq ▸ .cons hpiece hcut, rfl⟩
    | case3 => cases h
  · rintro ⟨pieces, hcut, rfl⟩
    induction hcut with
    | nil => exact readNodes_nil
    | cons hpiece _ ih =>
      rw [readNodes_lexeme hpiece, ih]
      rfl

end

/-- A text is read as a body exactly if it can be cut into lexemes of the nodes of the body, one
after the other. It can be cut in at most one way, and the pieces make up the whole text. -/
theorem ofText_eq_ok_iff_cut (name source : String) (nodes : Body) :
    (Body.ofText name source = .ok nodes ↔
      ∃ pieces, Cut pieces source.toList ∧ pieces.map Prod.fst = nodes) ∧
      {pieces | Cut pieces source.toList}.Subsingleton ∧
      ∀ pieces, Cut pieces source.toList → (pieces.map Prod.snd).flatten = source.toList := by
  refine ⟨?_, ?_, ?_⟩
  · rw [Body.ofText_eq_ok, readNodes_eq_ok]
  · intro pieces h pieces' h'
    exact Cut.unique h h'
  · intro pieces h
    exact h.flatten

/-- An escaped `@`, a comment that holds a star, a field whose name begins with a keyword, and an
`@` at the end. -/
theorem ofText_eq_ok_iff_cut_seams :
    Body.ofText "seams" "@@*@***@@closed@" =
        .ok [.text "@", .text "*", .comment, .field "closed", .text "@"] ∧
      ∃ pieces, Cut pieces "@@*@***@@closed@".toList ∧
        pieces.map Prod.fst = [.text "@", .text "*", .comment, .field "closed", .text "@"] := by
  have h : Body.ofText "seams" "@@*@***@@closed@" =
      .ok [.text "@", .text "*", .comment, .field "closed", .text "@"] := by
    have hlast : readNodes "@".toList = .ok [.text "@"] :=
      (readNodes_of_read_ok rfl).trans (congrArg _ readNodes_nil)
    have hfield : readNodes "@closed@".toList = .ok [.field "closed", .text "@"] :=
      (readNodes_of_read_ok rfl).trans (congrArg _ hlast)
    have hcomment : readNodes "@***@@closed@".toList =
        .ok [.comment, .field "closed", .text "@"] :=
      (readNodes_of_read_ok rfl).trans (congrArg _ hfield)
    have hstar : readNodes "*@***@@closed@".toList =
        .ok [.text "*", .comment, .field "closed", .text "@"] :=
      (readNodes_of_read_ok rfl).trans (congrArg _ hcomment)
    exact Body.ofText_eq_ok.2 ((readNodes_of_read_ok rfl).trans (congrArg _ hstar))
  exact ⟨h, (ofText_eq_ok_iff_cut _ _ _).1.1 h⟩

end ViewTemplates.Markup
