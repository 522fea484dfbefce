import ViewTemplates.Proofs.Markup.Grammar

/-!
# Texts one after the other

A lexeme looks at most one character ahead, and a text that is empty or begins with an `@` shows it
nothing new: names and runs of plain text end there anyway. Only an `@` of its own (`loneAt`) would
be read together with the `@` that follows.

* `ofText_append`: where such a text follows a text that does not end with an `@` of its own, the
  body of both is the body of the first and then the body of the second.

The lexemes of the first text stay the same (`Lexeme.append`), so the nodes that are read off it do
too, and reading goes on with the second text (`Cut.readNodes_append`).
-/

set_option autoImplicit false

namespace ViewTemplates.Markup

/-- The lexeme of an `@` that nothing belongs to. -/
def loneAt : Node × List Char := (.text "@", ['@'])

/-- A name does not go on with an `@`. -/
theorem Stops.isNameRest {next : List Char} (h : Stops (· ≠ '@') next) :
    Stops isNameRest next := by
  intro c hc
  obtain rfl : c = '@' := by simpa using h c hc
  rfl

/-! ## Lexemes before another text -/

section
variable {node : Node} {piece rest next : List Char} (hnext : Stops (· ≠ '@') next)
include hnext

/-- A lexeme stays one if the text goes on with an `@` or not at all. -/
theorem Lexeme.append (h : Lexeme node piece rest) (hlone : rest = [] → (node, piece) ≠ loneAt) :
    Lexeme node piece (rest ++ next) := by
  cases h with
  | comment hfirst => exact .comment hfirst
  | plain ht hstops => exact .plain ht (hstops.append fun _ => hnext)
  | doubled => exact .doubled
  | lone hstops => exact .lone (hstops.append fun hrest => absurd rfl (hlone hrest))
  | field hname hw hstops => exact .field hname hw (hstops.append fun _ => hnext.isNameRest)
  | close hstops => exact .close (hstops.append fun _ => hnext.isNameRest)
  | parent hstops => exact .parent (hstops.append fun _ => hnext.isNameRest)
  | helper ha => exact .helper ha

theorem Cut.readNodes_append {pieces : List (Node × List Char)} {text : List Char}
    (h : Cut pieces text) (hlast : pieces.getLast? ≠ some loneAt) :
    readNodes (text ++ next) = (readNodes next).map (pieces.map Prod.fst ++ ·) := by
  induction h with
  | nil =>
    rw [List.nil_append]
    cases readNodes next <;> rfl
  | @cons node piece rest pieces hpiece hrest ih =>
    have hlone : rest = [] → (node, piece) ≠ loneAt := by
      rintro rfl heq
      rw [Cut.unique hrest .nil, heq] at hlast
      exact hlast rfl
    have htail : pieces.getLast? ≠ some loneAt := by
      intro htail
      rw [List.getLast?_cons, htail] at hlast
      exact hlast rfl
    rw [List.append_assoc, readNodes_lexeme (hpiece.append hnext hlone), ih htail]
    cases readNodes next <;> rfl

end

/-! ## Bodies -/

/-- A comment ends with its first `*@`, also where a star stands before it. -/
theorem not_commentEnd_infix_append {inside : List Char} (h : ¬ commentEnd <:+: inside) :
    ¬ commentEnd <:+: inside ++ ['*'] := by
  rw [List.infix_concat_iff, not_or]
  refine ⟨?_, h⟩
  rintro ⟨before, hsuffix⟩
  have hends := congrArg List.getLast? hsuffix
  simp [commentEnd] at hends

theorem readNodes_comment {inside : List Char} (h : ¬ commentEnd <:+: inside) (rest : List Char) :
    readNodes ('@' :: '*' :: (inside ++ commentEnd ++ rest)) =
      (readNodes rest).map (.comment :: ·) :=
  readNodes_lexeme (.comment (not_commentEnd_infix_append h))

theorem map_eq_ok_iff {ε α β : Type} {f : α → β} {x : Except ε α} {b : β} :
    x.map f = .ok b ↔ ∃ a, x = .ok a ∧ b = f a := by
  cases x with
  | error e => simp [Except.map]
  | ok a => simp [Except.map, eq_comm]

/-- Where a text is empty or begins with an `@`, it is read as if it stood alone after a text that
does not end with an `@` of its own. A comment between the two adds its node and nothing else. -/
theorem ofText_append {name p q : String} {first : Body} (hp : Body.ofText name p = .ok first)
    (hlast : ∀ pieces, Cut pieces p.toList → pieces.getLast? ≠ some loneAt)
    (hq : q = "" ∨ ∃ tail, q = "@" ++ tail) :
    (∀ body, Body.ofText name (p ++ q) = .ok body ↔
      ∃ second, Body.ofText name q = .ok second ∧ body = first ++ second) ∧
    ∀ inside : String, ¬ commentEnd <:+: inside.toList → ∀ body,
      Body.ofText name (p ++ ("@*" ++ inside ++ "*@") ++ q) = .ok body ↔
        ∃ second, Body.ofText name (p ++ q) = .ok (first ++ second) ∧
          body = first ++ Node.comment :: second := by
  have hstops : Stops (· ≠ '@') q.toList := by
    rcases hq with rfl | ⟨tail, rfl⟩
    · exact stops_nil
    · rw [String.toList_append]
      exact stops_cons.2 rfl
  rw [Body.ofText_eq_ok, readNodes_eq_ok] at hp
  obtain ⟨pieces, hcut, rfl⟩ := hp
  have hafter {next : List Char} (hnext : Stops (· ≠ '@') next) :
      readNodes (p.toList ++ next) = (readNodes next).map (pieces.map Prod.fst ++ ·) :=
    hcut.readNodes_append hnext (hlast pieces hcut)
  refine ⟨fun body => ?_, fun inside hinside body => ?_⟩
  · rw [Body.ofText_eq_ok, String.toList_append, hafter hstops, map_eq_ok_iff]
    simp only [Body.ofText_eq_ok]
  · have hlist : (p ++ ("@*" ++ inside ++ "*@") ++ q).toList =
        p.toList ++ '@' :: '*' :: (inside.toList ++ commentEnd ++ q.toList) := by
      simp [commentEnd]
    have hnext : Stops (· ≠ '@') ('@' :: '*' :: (inside.toList ++ commentEnd ++ q.toList)) :=
      stops_cons.2 rfl
    have hcomment := hafter hnext
    rw [readNodes_comment hinside] at hcomment
    simp only [Body.ofText_eq_ok, hlist, hcomment, String.toList_append, hafter hstops]
    cases readNodes q.toList with
    | error e => simp [Except.map]
    | ok second => simp [Except.map, eq_comm]

/-- A comment that holds an `@`, a field and an escaped `@`, and then another field. -/
theorem ofText_append_escaped :
    Body.ofText "page" "@*@*@@f@@" = .ok [.comment, .field "f", .text "@"] ∧
      (∀ pieces, Cut pieces "@*@*@@f@@".toList → pieces.getLast? ≠ some loneAt) ∧
      ¬ commentEnd <:+: "*".toList ∧
      Body.ofText "page" ("@*@*@@f@@" ++ "@g") =
        .ok [.comment, .field "f", .text "@", .field "g"] ∧
      Body.ofText "page" ("@*@*@@f@@" ++ ("@*" ++ "*" ++ "*@") ++ "@g") =
        .ok [.comment, .field "f", .text "@", .comment, .field "g"] := by
  have hescaped : Cut [(.text "@", "@@".toList)] "@@".toList := .cons .doubled .nil
  have hfield : Cut [(.field "f", "@f".toList), (.text "@", "@@".toList)] "@f@@".toList :=
    .cons (@Lexeme.field "f" "@@".toList (by decide) (by decide) (stops_cons.2 rfl)) hescaped
  have hcut : Cut [(.comment, "@*@*@".toList), (.field "f", "@f".toList),
      (.text "@", "@@".toList)] "@*@*@@f@@".toList :=
    .cons (@Lexeme.comment ['@'] "@f@@".toList (by decide)) hfield
  have hp : Body.ofText "page" "@*@*@@f@@" = .ok [.comment, .field "f", .text "@"] :=
    Body.ofText_eq_ok.2 (readNodes_eq_ok.2 ⟨_, hcut, rfl⟩)
  have hlast : ∀ pieces, Cut pieces "@*@*@@f@@".toList → pieces.getLast? ≠ some loneAt := by
    intro pieces h
    rw [h.unique hcut]
    decide
  have hq : Body.ofText "page" "@g" = .ok [.field "g"] :=
    Body.ofText_eq_ok.2 ((readNodes_of_read_ok rfl).trans (congrArg _ readNodes_nil))
  obtain ⟨happend, hcomment⟩ := ofText_append hp hlast (.inr ⟨"g", rfl⟩)
  have hnote : ¬ commentEnd <:+: "*".toList := by decide
  have hpq := (happend _).2 ⟨_, hq, rfl⟩
  exact ⟨hp, hlast, hnote, hpq, (hcomment "*" hnote _).2 ⟨_, hpq, rfl⟩⟩

end ViewTemplates.Markup
