import ViewTemplates.Proofs.Markup.Grammar
import ViewTemplates.Proofs.Render.Stackless

/-!
# Escaped text

A text can be put into a template as it is when each `@` of it is doubled (`escape`).

* `escape_sound`: before any other text, escaped text is read whenever the other text is, and
  running what was read writes the text and then does what the other text alone would do.

An escaped text is no longer to be seen in the nodes: its runs are cut at each `@`, and the last one
goes on in the text after it. So the two bodies are compared by what they do (`WritesBefore`), for
one character of the text after the other (`prefixes_plain`, `readNodes_doubled`).
-/

set_option autoImplicit false

namespace ViewTemplates.Render

open Markup

/-! ## Escaping -/

/-- A character, doubled if it is an `@`. -/
def escapeChar (c : Char) : List Char := if c = '@' then ['@', '@'] else [c]

/-- The text with each `@` doubled. -/
def escape (text : String) : String := String.ofList (text.toList.flatMap escapeChar)

example : escape "a@b@@" = "a@@b@@@@" := by decide

/-! ## Bodies that write a text first -/

/-- From every state, `body` ends as `rest` does after `text` was written. -/
def WritesBefore (text : String) (body rest : Body) : Prop :=
  ∀ (loader : String → Run String) (fields : Fields) (s : State),
    (runBody loader fields body).run s = (runBody loader fields rest).run (s.write text)

namespace WritesBefore

variable {a b : String} {body body' rest : Body}

theorem empty (body : Body) : WritesBefore "" body body := by
  intro loader fields s
  rw [State.write_empty]

theorem text (a : String) (rest : Body) : WritesBefore a (.text a :: rest) rest :=
  fun _ _ _ => rfl

theorem trans (h : WritesBefore a body body') (h' : WritesBefore b body' rest) :
    WritesBefore (a ++ b) body rest := by
  intro loader fields s
  rw [h, h', State.write_write]

/-- Text that goes on with more text. -/
theorem run (a b : String) (rest : Body) :
    WritesBefore a (.text (a ++ b) :: rest) (.text b :: rest) := by
  intro loader fields s
  rw [text (a ++ b) rest, text b rest, State.write_write]

end WritesBefore

/-- The first reading failed as the second did, or both gave bodies of which the first writes `text`
and then does what the second does. -/
inductive Prefixes (text : String) :
    Except (List Complaint) Body → Except (List Complaint) Body → Prop
  | ok {body rest : Body} : WritesBefore text body rest → Prefixes text (.ok body) (.ok rest)
  | error (complaints : List Complaint) : Prefixes text (.error complaints) (.error complaints)

namespace Prefixes

variable {a b : String} {x y z : Except (List Complaint) Body}

theorem empty (x : Except (List Complaint) Body) : Prefixes "" x x := by
  cases x with
  | ok body => exact .ok (.empty body)
  | error complaints => exact .error complaints

theorem trans (h : Prefixes a x y) (h' : Prefixes b y z) : Prefixes (a ++ b) x z := by
  cases h with
  | ok h =>
    cases h' with
    | ok h' => exact .ok (h.trans h')
  | error =>
    cases h' with
    | error => exact .error _

/-- The first reading gives a node of `a` and then what the second gives. -/
theorem text (a : String) (x : Except (List Complaint) Body) :
    Prefixes a (x.map (.text a :: ·)) x := by
  cases x with
  | ok rest => exact .ok (.text a rest)
  | error complaints => exact .error complaints

theorem exists_ok_iff (h : Prefixes a x y) : (∃ body, x = .ok body) ↔ ∃ rest, y = .ok rest := by
  cases h <;> simp

theorem run (a b : String) (x : Except (List Complaint) Body) :
    Prefixes a (x.map (.text (a ++ b) :: ·)) (x.map (.text b :: ·)) := by
  cases x with
  | ok rest => exact .ok (.run a b rest)
  | error complaints => exact .error complaints

end Prefixes

/-! ## Reading escaped text -/

/-- Text without an `@` is read as one node. -/
theorem readNodes_plain {text rest : List Char} (hne : text ≠ []) (h : '@' ∉ text)
    (hrest : Stops (· ≠ '@') rest) :
    readNodes (text ++ rest) = (readNodes rest).map (.text (String.ofList text) :: ·) := by
  have hplain : IsPlain (String.ofList text) := by
    simpa [IsPlain] using And.intro hne h
  have hpiece := Lexeme.plain hplain hrest
  rw [String.toList_ofList] at hpiece
  exact readNodes_lexeme hpiece

theorem readNodes_doubled (rest : List Char) :
    readNodes ('@' :: '@' :: rest) = (readNodes rest).map (.text "@" :: ·) :=
  readNodes_lexeme .doubled

/-- A character of plain text is read by itself, or together with the run that it begins. -/
theorem prefixes_plain {c : Char} (hc : c ≠ '@') (text : List Char) :
    Prefixes (String.singleton c) (readNodes (c :: text)) (readNodes text) := by
  obtain ⟨run, rest, rfl, hrun, hrest⟩ := exists_run (· ≠ '@') text
  have hat : '@' ∉ run := fun h => by simpa using hrun '@' h
  have hfirst : readNodes (c :: (run ++ rest)) =
      (readNodes rest).map (.text (String.singleton c ++ String.ofList run) :: ·) := by
    have hcons : '@' ∉ c :: run := by simpa [hc.symm] using hat
    rw [← List.cons_append, readNodes_plain (List.cons_ne_nil c run) hcons hrest]
    simp
  rw [hfirst]
  cases run with
  | nil => simpa using Prefixes.text (String.singleton c) (readNodes rest)
  | cons d run =>
    rw [readNodes_plain (List.cons_ne_nil d run) hat hrest]
    exact .run _ _ _

/-- Escaped text is written, and nothing that follows it is read in another way. -/
theorem prefixes_escaped (s rest : List Char) :
    Prefixes (String.ofList s) (readNodes (s.flatMap escapeChar ++ rest)) (readNodes rest) := by
  induction s with
  | nil => exact .empty _
  | cons c s ih =>
    have hcons : String.ofList (c :: s) = String.singleton c ++ String.ofList s := by simp
    rw [List.flatMap_cons, List.append_assoc, hcons]
    refine .trans ?_ ih
    by_cases hc : c = '@'
    · subst hc
      exact readNodes_doubled _ ▸ .text "@" _
    · rw [escapeChar, if_neg hc]
      exact prefixes_plain hc _

/-! ## Rendering escaped text -/

/-- The page of a body that only writes `text` is `text`, if any template may run at all. -/
theorem render_of_writesBefore {setting : Setting} {view text : String} {body : Body}
    (hfind : setting.store.find view = .ok (.directives body)) (h : WritesBefore text body []) :
    result setting view =
      some (if setting.maxDepth = 0 then .error (.nestedTooDeep view 0) else .ok text) := by
  have hlevels : setting.maxDepth ≤ ({} : State).loading.length ↔ setting.maxDepth = 0 :=
    Nat.le_zero
  by_cases hlimit : setting.maxDepth = 0
  · have hload : (load setting view).run {} = .error (.nestedTooDeep view setting.maxDepth) {} := by
      rw [run_load, if_pos (hlevels.2 hlimit)]
    rw [result_of_render (climb_of_load_error hload), if_pos hlimit, hlimit]
    rfl
  · have hload : ∃ s, (load setting view).run {} = .ok text s ∧ s.parent = none := by
      rw [run_load, if_neg (mt hlevels.1 hlimit), hfind]
      dsimp only
      rw [Run.run_framed, runTemplate, h]
      exact ⟨_, congrArg (EStateM.Result.ok · _) String.empty_append, rfl⟩
    obtain ⟨s, hload, hparent⟩ := hload
    rw [result_of_render (climb_of_page hload hparent), if_neg hlimit]
    rfl

/-- Escaped text before another text is read exactly if the other text is. From every state of a
render, what is read does what the other text does after `text` was written. By itself, the escaped
text gives the page `text`. -/
theorem escape_sound (text other : String) :
    (∀ name, (∃ body, Body.ofText name (escape text ++ other) = .ok body) ↔
      ∃ rest, Body.ofText name other = .ok rest) ∧
    (∀ name body rest, Body.ofText name (escape text ++ other) = .ok body →
      Body.ofText name other = .ok rest → ∀ loader fields (s : State),
        (runBody loader fields body).run s =
          (runBody loader fields rest).run (s.write text)) ∧
    ∃ body, (∀ name, Body.ofText name (escape text) = .ok body) ∧
      ∀ setting view, setting.store.find view = .ok (.directives body) →
        result setting view =
          some (if setting.maxDepth = 0 then .error (.nestedTooDeep view 0) else .ok text) := by
  have hprefixes (other : String) :
      Prefixes text (readNodes (escape text ++ other).toList) (readNodes other.toList) := by
    have h := prefixes_escaped text.toList other.toList
    rwa [String.ofList_toList, ← String.toList_ofList (l := text.toList.flatMap escapeChar),
      ← String.toList_append] at h
  simp only [Body.ofText_eq_ok]
  refine ⟨fun _ => (hprefixes other).exists_ok_iff, fun _ body rest hbody hrest => ?_, ?_⟩
  · have h := hprefixes other
    rw [hbody, hrest] at h
    cases h with
    | ok h => exact h
  · have h := hprefixes ""
    rw [String.append_empty, String.toList_empty, readNodes_nil] at h
    generalize hx : readNodes (escape text).toList = x at h
    cases h with
    | @ok body _ h => exact ⟨body, fun _ => rfl, fun _ _ hfind => render_of_writesBefore hfind h⟩

/-- An escaped text that ends with an `@`, before a text that begins with a star. -/
theorem escape_sound_mail :
    let store := (MemoryStore.ofBodies [("page", [.text "mail", .text "@"])]).toStore
    Body.ofText "page" (escape "mail@" ++ "*x@f") =
        .ok [.text "mail", .text "@", .text "*x", .field "f"] ∧
      Body.ofText "page" "*x@f" = .ok [.text "*x", .field "f"] ∧
      (∀ loader fields (s : State),
        (runBody loader fields [.text "mail", .text "@", .text "*x", .field "f"]).run s =
          (runBody loader fields [.text "*x", .field "f"]).run (s.write "mail@")) ∧
      store.find "page" = .ok (.directives [.text "mail", .text "@"]) ∧
      result ⟨store, ∅, 1⟩ "page" = some (.ok "mail@") := by
  intro store
  have hfield : readNodes "@f".toList = .ok [.field "f"] :=
    (readNodes_of_read_ok rfl).trans (congrArg _ readNodes_nil)
  have hother : readNodes "*x@f".toList = .ok [.text "*x", .field "f"] :=
    (readNodes_of_read_ok rfl).trans (congrArg _ hfield)
  have hboth : readNodes "mail@@*x@f".toList =
      .ok [.text "mail", .text "@", .text "*x", .field "f"] :=
    (readNodes_of_read_ok rfl).trans (congrArg _ ((readNodes_doubled _).trans (congrArg _ hother)))
  have halone : readNodes "mail@@".toList = .ok [.text "mail", .text "@"] :=
    (readNodes_of_read_ok rfl).trans
      (congrArg _ ((readNodes_doubled _).trans (congrArg _ readNodes_nil)))
  have hfind : store.find "page" = .ok (.directives [.text "mail", .text "@"]) :=
    MemoryStore.ofBodies_hasBodies _ "page"
  have hescape : escape "mail@" = "mail@@" := by decide
  obtain ⟨-, hrun, body, hread, hpage⟩ := escape_sound "mail@" "*x@f"
  rw [hescape] at hread hrun ⊢
  obtain rfl : [.text "mail", .text "@"] = body :=
    Except.ok.inj ((Body.ofText_eq_ok.2 halone).symm.trans (hread "page"))
  exact ⟨Body.ofText_eq_ok.2 hboth, Body.ofText_eq_ok.2 hother,
    hrun "page" _ _ (Body.ofText_eq_ok.2 hboth) (Body.ofText_eq_ok.2 hother), hfind,
    hpage ⟨store, ∅, 1⟩ "page" hfind⟩

end ViewTemplates.Render
