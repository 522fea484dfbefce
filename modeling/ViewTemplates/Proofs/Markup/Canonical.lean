import Mathlib.Data.List.Chain
import ViewTemplates.Proofs.Markup.Grammar

/-!
# Canonical bodies

Not every list of nodes is the body of some text: two runs of plain text that stand side by side
would be read as one, and so would a name and the letters after it. The lists that are bodies are
the canonical ones. `Body.print` gives a text for each of them.

* `canonical_round_trip`: a canonical body is read back from its text, and every body that was read
  is canonical.

A printed node is a lexeme of it where the rest of a canonical body follows (`Canonical.lexeme`), so
the printed nodes cut the text of a canonical body (`Canonical.cut`). Two lexemes side by side have
nodes that may stand side by side (`Lexeme.mayPrecede`), so a cut has a canonical body
(`Cut.canonical`).
-/

set_option autoImplicit false

namespace ViewTemplates.Markup

/-! ## Printing -/

/-- A directive with its argument. -/
def Helper.print (h : Helper) (name : String) : String := "@" ++ h.keyword ++ "(\"" ++ name ++ "\")"

/-- A text that is read as the node. -/
def Node.print : Node → String
  | comment => "@**@"
  | text t => if t = "@" then "@@" else t
  | field name => "@" ++ name
  | close => "@close"
  | extend parent => Helper.extend.print parent
  | beginSection name => Helper.beginSection.print name
  | showSection name => Helper.showSection.print name
  | includePartial name => Helper.includePartial.print name

/-- The texts of the nodes of a body, one after the other. -/
def Body.print (body : Body) : String := String.join (body.map Node.print)

/-! ## Canonical bodies -/

namespace Node

/-- The node can be read from a text. -/
def Readable : Node → Prop
  | comment | close => True
  | text t => t = "@" ∨ t = Section.marker ∨ Markup.IsPlain t
  | field name => IsName name.toList ∧ name ∉ reservedWords
  | extend name | beginSection name | showSection name | includePartial name => IsArgument name

def IsPlain : Node → Prop
  | text t => Markup.IsPlain t
  | _ => False

/-- Letters after the node would be read as a part of it. -/
def EndsInName : Node → Prop
  | field _ | close => True
  | text t => t = Section.marker
  | _ => False

/-- A node after the node `a` that is not read as a part of it. -/
def MayPrecede (a : Node) : Node → Prop
  | text t => Markup.IsPlain t → ¬ a.IsPlain ∧ (a.EndsInName → Stops isNameRest t.toList)
  | _ => True

end Node

/-- A list of nodes that is the body of some text. -/
structure Canonical (body : Body) : Prop where
  readable : ∀ node ∈ body, node.Readable
  seams : body.IsChain Node.MayPrecede

section
variable (p : Char → Bool)

instance : DecidablePred (Stops p)
  | [] => isTrue nofun
  | c :: _ => decidable_of_iff (p c = false) stops_cons.symm

instance : DecidablePred IsPlain := fun _ => inferInstanceAs (Decidable (_ ∧ _))

instance : DecidablePred IsArgument := fun _ => inferInstanceAs (Decidable (_ ∧ _))

instance : DecidablePred Node.Readable
  | .comment | .close => isTrue trivial
  | .text _ => inferInstanceAs (Decidable (_ ∨ _ ∨ IsPlain _))
  | .field _ => inferInstanceAs (Decidable (_ ∧ _))
  | .extend n | .beginSection n | .showSection n | .includePartial n =>
    inferInstanceAs (Decidable (IsArgument n))

instance : DecidablePred Node.IsPlain
  | .text t => inferInstanceAs (Decidable (Markup.IsPlain t))
  | .comment | .field _ | .extend _ | .beginSection _ | .close | .showSection _
  | .includePartial _ => isFalse id

instance : DecidablePred Node.EndsInName
  | .text _ => inferInstanceAs (Decidable (_ = _))
  | .field _ | .close => isTrue trivial
  | .comment | .extend _ | .beginSection _ | .showSection _ | .includePartial _ => isFalse id

instance : DecidableRel Node.MayPrecede
  | _, .text _ => inferInstanceAs (Decidable (_ → _ ∧ _))
  | _, .comment | _, .field _ | _, .extend _ | _, .beginSection _ | _, .close | _, .showSection _
  | _, .includePartial _ => isTrue trivial

instance : DecidablePred Canonical := fun _ =>
  decidable_of_iff (_ ∧ _) ⟨fun ⟨h, h'⟩ => ⟨h, h'⟩, fun ⟨h, h'⟩ => ⟨h, h'⟩⟩

end

/-- A field whose name begins with a keyword, an escaped `@` and text after it. -/
example : Canonical [.field "closed", .text "@", .text "x"] := by decide

example : ¬ Canonical [.close, .text "d"] := by decide

/-! ## Printed nodes are lexemes -/

theorem Node.IsPlain.print_eq {t : String} (h : Markup.IsPlain t) : (text t).print = t := by
  have hne : t ≠ "@" := by
    rintro rfl
    exact h.2 (by decide)
  rw [print, if_neg hne]

theorem Helper.toList_print (h : Helper) (name : String) :
    (h.print name).toList =
      '@' :: (h.keyword.toList ++ '(' :: '"' :: (name.toList ++ ['"', ')'])) := by
  simp [print]

theorem IsArgument.argument {name : String} (h : IsArgument name) :
    Argument name ('(' :: '"' :: (name.toList ++ ['"', ')'])) := by
  have harg : Argument name ('(' :: ([] ++ '"' :: (name.toList ++ '"' :: ([] ++ [')'])))) :=
    .quoted nofun h nofun
  exact harg

/-- A readable node that is not plain text begins with an `@`. -/
theorem Node.print_of_not_plain {node : Node} (hr : node.Readable) (hp : ¬ node.IsPlain) :
    ∃ tail, node.print.toList = '@' :: tail := by
  cases node with
  | text t =>
    rcases hr with rfl | rfl | h
    · exact ⟨_, rfl⟩
    · exact ⟨_, rfl⟩
    · exact absurd h hp
  | comment | close => exact ⟨_, rfl⟩
  | field name => exact ⟨name.toList, by simp [print]⟩
  | extend name | beginSection name | showSection name | includePartial name =>
    exact ⟨_, Helper.toList_print _ name⟩

/-- A printed node is a lexeme of it where `rest` does not go on with it. -/
theorem Node.lexeme_print {node : Node} {rest : List Char} (hr : node.Readable)
    (hplain : node.IsPlain → Stops (· ≠ '@') rest)
    (hname : node.EndsInName → Stops isNameRest rest) :
    Lexeme node node.print.toList rest := by
  have hhelper (h : Helper) (name : String) (ha : IsArgument name) :
      Lexeme (h.node name) (h.print name).toList rest := by
    rw [Helper.toList_print]
    exact .helper ha.argument
  cases node with
  | comment => exact @Lexeme.comment [] rest (by decide)
  | close => exact .close (hname trivial)
  | field name =>
    obtain ⟨hword, hw⟩ := hr
    have hlist : (field name).print.toList = '@' :: name.toList := by simp [print]
    rw [hlist]
    exact .field hword hw (hname trivial)
  | text t =>
    rcases hr with rfl | rfl | h
    · exact .doubled
    · exact .parent (hname rfl)
    · rw [Node.IsPlain.print_eq h]
      exact .plain h (hplain h)
  | extend name => exact hhelper .extend name hr
  | beginSection name => exact hhelper .beginSection name hr
  | showSection name => exact hhelper .showSection name hr
  | includePartial name => exact hhelper .includePartial name hr

theorem Body.toList_print_cons (node : Node) (body : Body) :
    (Body.print (node :: body)).toList = node.print.toList ++ body.print.toList := by
  simp [print]

section
variable {node : Node} {body : Body}

theorem Canonical.tail (h : Canonical (node :: body)) : Canonical body where
  readable n hn := h.readable n (List.mem_cons_of_mem _ hn)
  seams := (List.isChain_cons.1 h.seams).2

/-- The text of the nodes after a run of plain text begins with an `@`. -/
theorem Canonical.stops_of_plain (h : Canonical (node :: body)) (hp : node.IsPlain) :
    Stops (· ≠ '@') body.print.toList := by
  cases body with
  | nil => nofun
  | cons next body =>
    have hseam := (List.isChain_cons_cons.1 h.seams).1
    have hnext : ¬ next.IsPlain := by
      intro hn
      cases next with
      | text t => exact (hseam hn).1 hp
      | _ => exact hn
    obtain ⟨tail, htail⟩ := Node.print_of_not_plain (h.readable next (by simp)) hnext
    rw [Body.toList_print_cons, htail, List.cons_append, stops_cons]
    rfl

/-- The text of the nodes after a name does not go on with the name. -/
theorem Canonical.stops_of_name (h : Canonical (node :: body)) (hname : node.EndsInName) :
    Stops isNameRest body.print.toList := by
  cases body with
  | nil => nofun
  | cons next body =>
    have hseam := (List.isChain_cons_cons.1 h.seams).1
    rw [Body.toList_print_cons]
    by_cases hnext : next.IsPlain
    · cases next with
      | text t =>
        rw [Node.IsPlain.print_eq hnext, stops_append (mt String.toList_eq_nil_iff.1 hnext.1)]
        exact (hseam hnext).2 hname
      | _ => exact absurd hnext id
    · obtain ⟨tail, htail⟩ := Node.print_of_not_plain (h.readable next (by simp)) hnext
      rw [htail, List.cons_append, stops_cons]
      rfl

theorem Canonical.lexeme (h : Canonical (node :: body)) :
    Lexeme node node.print.toList body.print.toList :=
  Node.lexeme_print (h.readable node List.mem_cons_self) h.stops_of_plain h.stops_of_name

/-- The printed nodes of a canonical body cut its text. -/
theorem Canonical.cut (h : Canonical body) :
    Cut (body.map fun node => (node, node.print.toList)) body.print.toList := by
  induction body with
  | nil => exact .nil
  | cons node body ih =>
    rw [Body.toList_print_cons, List.map_cons]
    exact .cons h.lexeme (ih h.tail)

end

/-! ## Lexemes have canonical nodes -/

theorem Lexeme.readable {node : Node} {piece rest : List Char} (h : Lexeme node piece rest) :
    node.Readable := by
  cases h with
  | comment | close => trivial
  | plain ht => exact .inr (.inr ht)
  | doubled | lone => exact .inl rfl
  | parent => exact .inr (.inl rfl)
  | field hname hw => exact ⟨hname, hw⟩
  | @helper helper _ _ _ ha =>
    obtain ⟨-, hname, -⟩ := ha
    cases helper <;> exact hname

theorem Lexeme.of_plain {t : String} {piece rest : List Char} (h : Lexeme (.text t) piece rest)
    (ht : IsPlain t) : piece = t.toList ∧ Stops (· ≠ '@') rest := by
  generalize hn : Node.text t = node at h
  cases h with
  | plain _ hstops =>
    cases hn
    exact ⟨rfl, hstops⟩
  | doubled | lone | parent =>
    cases hn
    exact absurd ht (by decide)
  | comment | field | close => cases hn
  | @helper helper => cases helper <;> cases hn

theorem Lexeme.stops_of_name {node : Node} {piece rest : List Char} (h : Lexeme node piece rest)
    (hname : node.EndsInName) : Stops isNameRest rest := by
  cases h with
  | field _ _ hstops | close hstops | parent hstops => exact hstops
  | plain ht =>
    cases hname
    exact absurd ht (by decide)
  | doubled | lone => exact absurd hname (by decide)
  | comment => exact absurd hname id
  | @helper helper => cases helper <;> exact absurd hname id

theorem Lexeme.mayPrecede {a b : Node} {piece next rest : List Char}
    (ha : Lexeme a piece (next ++ rest)) (hb : Lexeme b next rest) : a.MayPrecede b := by
  cases b with
  | text t =>
    intro ht
    obtain ⟨rfl, -⟩ := hb.of_plain ht
    have hne : t.toList ≠ [] := mt String.toList_eq_nil_iff.1 ht.1
    refine ⟨fun hp => ?_, fun hname => ?_⟩
    · cases a with
      | text u =>
        -- the run `u` goes on up to an `@`, but `t` has none
        have hstops := (stops_append hne).1 (ha.of_plain hp).2
        obtain ⟨c, tail, hcons⟩ := List.exists_cons_of_ne_nil hne
        rw [hcons, stops_cons, decide_eq_false_iff_not, not_not] at hstops
        apply ht.2
        rw [hcons, hstops]
        exact List.mem_cons_self
      | _ => exact hp
    · exact (stops_append hne).1 (ha.stops_of_name hname)
  | comment | field | extend | beginSection | close | showSection | includePartial => trivial

theorem Cut.canonical {pieces : List (Node × List Char)} {text : List Char} (h : Cut pieces text) :
    Canonical (pieces.map Prod.fst) := by
  induction h with
  | nil => exact ⟨nofun, .nil⟩
  | @cons node piece rest pieces hpiece hrest ih =>
    refine ⟨List.forall_mem_cons.2 ⟨hpiece.readable, ih.readable⟩, ?_⟩
    cases hrest with
    | nil => exact .singleton _
    | cons hnext _ => exact .cons_cons (hpiece.mayPrecede hnext) ih.seams

theorem ofText_print {body : Body} (h : Canonical body) (name : String) :
    Body.ofText name body.print = .ok body := by
  rw [Body.ofText_eq_ok, readNodes_eq_ok]
  refine ⟨_, h.cut, ?_⟩
  rw [List.map_map]
  exact List.map_id body

theorem canonical_of_ofText {name text : String} {body : Body}
    (h : Body.ofText name text = .ok body) : Canonical body := by
  rw [Body.ofText_eq_ok, readNodes_eq_ok] at h
  obtain ⟨pieces, hcut, rfl⟩ := h
  exact hcut.canonical

/-- Canonical bodies are read back from their texts, and no other bodies are read. So the text of a
body that was read is read as the same body. -/
theorem canonical_round_trip (name : String) :
    (∀ body, Canonical body → Body.ofText name body.print = .ok body) ∧
      (∀ text body, Body.ofText name text = .ok body → Canonical body) ∧
      (∀ body, (∃ text, Body.ofText name text = .ok body) ↔ Canonical body) ∧
      ∀ text, (Body.ofText name text).bind (fun body => Body.ofText name body.print) =
        Body.ofText name text := by
  refine ⟨?_, ?_, ?_, ?_⟩
  · intro body h
    exact ofText_print h name
  · intro text body h
    exact canonical_of_ofText h
  · intro body
    constructor
    · rintro ⟨text, h⟩
      exact canonical_of_ofText h
    · intro h
      exact ⟨body.print, ofText_print h name⟩
  · intro text
    cases h : Body.ofText name text with
    | error e => rfl
    | ok body => exact ofText_print (canonical_of_ofText h) name

/-- A name before an escaped `@` and before a directive, the marker before a comment, and a partial
whose name holds what ends an argument. -/
def tightBody : Body :=
  [.field "closed", .text "@", .text "x", .close, .field "f", .text Section.marker, .comment,
    .text "-", .includePartial "a@b)"]

theorem canonical_round_trip_seams :
    Canonical tightBody ∧
      Body.ofText "seams" "@closed@@x@close@f@parent@**@-@partial(\"a@b)\")" = .ok tightBody := by
  have h : Canonical tightBody := by decide
  have hprint : tightBody.print = "@closed@@x@close@f@parent@**@-@partial(\"a@b)\")" := by decide
  exact ⟨h, hprint ▸ (canonical_round_trip "seams").1 tightBody h⟩

end ViewTemplates.Markup
