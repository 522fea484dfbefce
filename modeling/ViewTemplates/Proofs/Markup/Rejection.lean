import ViewTemplates.Proofs.Markup.WholeCharacters

/-!
# How reading fails

The reader of bytes tells failures after which another alternative is tried from final ones. Only
final failures come out of it, and every node that it reads takes at least one byte. So it fails on
the bytes of a text exactly when the text has a broken place, and never for want of progress.

* `ofText_eq_error_iff_broken`: a text cannot be read exactly if a scan of it comes to a broken
  place, there is at most one such place, the report is about this place, and the failure is final.

What becomes of a single node is `Node.read_cases`; a scan hands the failure of a node on unchanged
(`Bytes.nodes_of_scan`).
-/

set_option autoImplicit false

namespace ViewTemplates.Markup

open Utf8

namespace Bytes

/-- If the bytes of a text cannot be read, its characters cannot either, and the failure is
final. -/
theorem readNodes_eq_error_of_nodes {text : List Char} {f : Failure}
    (h : nodes (encode text) = .error f) :
    ∃ complaints, readNodes text = .error complaints ∧ f.final = true := by
  cases hread : readNodes text with
  | ok body => cases h.symm.trans (nodes_of_readNodes_ok hread)
  | error complaints =>
    obtain ⟨f', hf', hfinal, -⟩ := nodes_of_readNodes_error hread
    cases h.symm.trans hf'
    exact ⟨complaints, rfl, hfinal⟩

theorem exists_nodes_eq_error {text : List Char} :
    (∃ f, nodes (encode text) = .error f) ↔ ∃ complaints, readNodes text = .error complaints := by
  constructor
  · rintro ⟨f, hf⟩
    obtain ⟨complaints, hread, -⟩ := readNodes_eq_error_of_nodes hf
    exact ⟨complaints, hread⟩
  · rintro ⟨complaints, hread⟩
    obtain ⟨f, hf, -⟩ := nodes_of_readNodes_error hread
    exact ⟨f, hf⟩

theorem ne_stuck {f : Failure} (h : f.final = true) (i : List UInt8) : f ≠ stuck i := by
  rintro rfl
  cases h

end Bytes

theorem Body.exists_ofText_eq_error {name source : String} :
    (∃ fault, Body.ofText name source = .error fault) ↔
      ∃ complaints, readNodes source.toList = .error complaints := by
  unfold Body.ofText
  split <;> simp_all

/-- Both readers take the same node off a text, with at least one character and one byte, or both
fail at a broken place, for good. -/
theorem Node.read_cases (c : Char) (cs : List Char) :
    (∃ node piece rest, Node.read c cs = .ok (node, rest) ∧ Lexeme node piece rest ∧
      piece ≠ [] ∧ c :: cs = piece ++ rest ∧
      Bytes.node (encode (c :: cs)) = .ok (node, encode rest) ∧
      (encode rest).length < (encode (c :: cs)).length) ∨
    ∃ complaints f, Node.read c cs = .error complaints ∧ Blame (c :: cs) complaints ∧
      Bytes.node (encode (c :: cs)) = .error f ∧ f.final = true := by
  cases hread : Node.read c cs with
  | error complaints =>
    have hblame := Node.read_eq_error.1 hread
    obtain ⟨f, hf, hfinal, -⟩ := Bytes.node_blame hblame
    exact .inr ⟨complaints, f, rfl, hblame, hf, hfinal⟩
  | ok r =>
    obtain ⟨piece, hpiece, heq⟩ := Node.read_eq_ok.1 hread
    obtain ⟨d, tail, rfl, -⟩ := hpiece.head
    rw [heq]
    exact .inl ⟨r.1, _, r.2, rfl, hpiece, List.cons_ne_nil _ _, rfl, Bytes.node_complete hpiece,
      Bytes.length_encode_lt hpiece⟩

/-- A text is read or not depending on whether a scan of it comes to a broken place. There is at
most one such place, and the report has the blocks of the complaints about it, in order. The reader
of bytes fails on the same texts; its failure is always final, so it is never the one of a node that
takes nothing. Reading a node takes at least one character, and at least one byte, off the text, or
it fails for good with complaints about a broken place. -/
theorem ofText_eq_error_iff_broken (name source : String) :
    ((∃ fault, Body.ofText name source = .error fault) ↔
      ∃ pieces place, Scan pieces source.toList place ∧ IsBroken place) ∧
    (∀ pieces place, Scan pieces source.toList place → IsBroken place →
      (∀ pieces' place', Scan pieces' source.toList place' → IsBroken place' →
        pieces' = pieces ∧ place' = place) ∧
      (∃ complaints, Blame place complaints) ∧
      ∀ complaints, Blame place complaints →
        Body.ofText name source = .error (.unparsable name (report source.toList complaints)) ∧
        ∀ c ∈ complaints, c.before source.toList ++ c.rest = source.toList) ∧
    ((∃ fault, Body.ofText name source = .error fault) ↔
      ∃ f, Bytes.nodes (bytes source) = .error f) ∧
    (∀ f, Bytes.nodes (bytes source) = .error f →
      f.final = true ∧ ∀ i, f ≠ Bytes.stuck i) ∧
    ∀ c cs,
      (∃ node piece rest, Node.read c cs = .ok (node, rest) ∧ Lexeme node piece rest ∧
        piece ≠ [] ∧ c :: cs = piece ++ rest ∧
        Bytes.node (encode (c :: cs)) = .ok (node, encode rest) ∧
        (encode rest).length < (encode (c :: cs)).length) ∨
      ∃ complaints f, Node.read c cs = .error complaints ∧ Blame (c :: cs) complaints ∧
        Bytes.node (encode (c :: cs)) = .error f ∧ f.final = true := by
  refine ⟨⟨?_, ?_⟩, fun pieces place hscan hbroken => ⟨?_, isBroken_iff_blame.1 hbroken, ?_⟩, ?_,
    fun f hf => ?_, Node.read_cases⟩
  · rintro ⟨fault, h⟩
    obtain ⟨pieces, place, complaints, hscan, hblame, -⟩ := Body.ofText_eq_error.1 h
    exact ⟨pieces, place, hscan, isBroken_iff_blame.2 ⟨complaints, hblame⟩⟩
  · rintro ⟨pieces, place, hscan, hbroken⟩
    obtain ⟨complaints, hblame⟩ := isBroken_iff_blame.1 hbroken
    exact ⟨_, Body.ofText_eq_error.2 ⟨pieces, place, complaints, hscan, hblame, rfl⟩⟩
  · intro pieces' place' hscan' hbroken'
    obtain ⟨complaints, hblame⟩ := isBroken_iff_blame.1 hbroken
    obtain ⟨complaints', hblame'⟩ := isBroken_iff_blame.1 hbroken'
    exact hscan'.unique hblame' hscan hblame
  · intro complaints hblame
    refine ⟨Body.ofText_eq_error.2 ⟨pieces, place, complaints, hscan, hblame, rfl⟩, ?_⟩
    intro c hc
    exact Complaint.before_append ((hblame.suffix c hc).trans hscan.suffix)
  · rw [Body.exists_ofText_eq_error, ← encode_toList, Bytes.exists_nodes_eq_error]
  · rw [← encode_toList] at hf
    obtain ⟨-, -, hfinal⟩ := Bytes.readNodes_eq_error_of_nodes hf
    exact ⟨hfinal, Bytes.ne_stuck hfinal⟩

/-- A field, and then a helper whose argument is not quoted. -/
theorem ofText_eq_error_iff_broken_unquoted :
    let source := "@a\n@show( b)"
    let place := "@show( b)".toList
    Scan [(.field "a", "@a".toList), (.text "\n", ['\n'])] source.toList place ∧
      IsBroken place ∧
      Body.ofText "page" source = .error (.unparsable "page" (
        "   2:@show( b)\n" ++
        "          ^ Expected (\"name\") after @show\n" ++
        "   2:@show( b)\n" ++
        "            ^ Expected '\"'\n")) ∧
      ∃ f, Bytes.nodes (bytes source) = .error f ∧ f.final = true := by
  intro source place
  have hsource : source.toList = "@a".toList ++ (['\n'] ++ place) := by decide
  have hfield : Lexeme (.field "a") "@a".toList (['\n'] ++ place) :=
    @Lexeme.field "a" _ (by decide) (by decide) (stops_cons.2 rfl)
  have hline : Lexeme (.text "\n") ['\n'] place :=
    @Lexeme.plain "\n" _ ⟨by decide, by decide⟩ (stops_cons.2 rfl)
  have hscan : Scan [(.field "a", "@a".toList), (.text "\n", ['\n'])] source.toList place :=
    hsource ▸ .cons hfield (.cons hline .nil)
  have hlacks : Lacks ['(', ' ', 'b', ')'] (some ⟨['b', ')'], .character '"'⟩) :=
    @Lacks.openingQuote [' '] ['b', ')'] (List.forall_mem_singleton.2 rfl) (stops_cons.2 rfl)
      (stops_cons.2 rfl)
  have hblame : Blame place [⟨['(', ' ', 'b', ')'], .argument .showSection⟩,
      ⟨['b', ')'], .character '"'⟩] :=
    @Blame.argument .showSection ['(', ' ', 'b', ')'] _ (stops_cons.2 rfl) hlacks
  have hbroken := isBroken_iff_blame.2 ⟨_, hblame⟩
  obtain ⟨-, hplace, hbytes, hfinal, -⟩ := ofText_eq_error_iff_broken "page" source
  obtain ⟨-, -, hreport⟩ := hplace _ _ hscan hbroken
  obtain ⟨hfails, -⟩ := hreport _ hblame
  obtain ⟨f, hf⟩ := hbytes.1 ⟨_, hfails⟩
  refine ⟨hscan, hbroken, hfails.trans ?_, f, hf, (hfinal f hf).1⟩
  exact congrArg (fun report => Except.error (Fault.unparsable "page" report)) (by decide)

end ViewTemplates.Markup
