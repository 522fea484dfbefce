import ViewTemplates.Proofs.Render.Contents
import ViewTemplates.Proofs.Section.Occurrences

/-!
# Closing a section again

A section that has content and is closed again keeps its content, with the newly captured text in
the place of the markers. `Refills stored captured content` says so for one close, in whatever state
it is made.

* `close_fills_markers`: stored content is in exactly one way a list of parts with a marker between
  any two of them, and a close puts the captured text between these parts. So every marker is
  filled, nothing else of the content changes, and the markers of the captured text stay.
* `merges_regroup`: closing the section of a child, of a layout between and of the base, in this
  order, gives what closing it for the child and then for the layout filled by the base gives, if no
  marker is put together of pieces of the first two texts.

Both rest on `Proofs.Section.Occurrences`, which reads a text marker by marker; here it only remains
to see what a close does with the filled text.
-/

set_option autoImplicit false

namespace ViewTemplates.Render

open Section

/-- A close of a section with the content `stored`, for which the innermost scope captured the text
`captured`, gives `content`, stores it and writes it to the scope around the section. -/
def Refills (stored captured content : String) : Prop :=
  ∀ (s inner : State) (o : OpenSection), s.openSection = some o → o.scope + 1 = s.height →
    s.closeScope = (captured, inner) → s.sections[o.name]? = some stored →
      ∃ u, Run.close.run s = .ok content u ∧ u.sections[o.name]? = some content ∧
        u.scopes = inner.scopes.write content

theorem refills_merge (stored captured : String) :
    Refills stored captured (merge stored captured) := by
  intro s inner o ho hscope hclose hstored
  have hcontent : s.mergedContent o.name captured = merge stored captured := by
    rw [State.mergedContent, hstored]
  simp [Run.run_close, ho, hscope, hclose, hcontent, State.write, State.record]

/-- Stored content is in exactly one way a list of parts with a marker between any two of them. A
close puts the captured text, with the markers in it, in the place of each of the markers, and
leaves the parts as they are. -/
theorem close_fills_markers (stored : String) :
    (∃! parts, Parted stored parts) ∧
      ∀ parts, Parted stored parts → parts.length = occurrences stored.toList + 1 ∧
        ∀ captured, Refills stored captured (captured.intercalate parts) := by
  obtain ⟨parts, hparts⟩ := exists_parted stored
  refine ⟨⟨parts, hparts, fun _ h => hparts.unique h⟩, fun parts' h => ⟨h.length_eq, ?_⟩⟩
  intro captured
  rw [← h.merge_eq captured]
  exact refills_merge stored captured

/-- The section `title` with the content `stored` is captured again, so far with the text
`captured`. -/
def recapturing (stored captured : String) : State where
  scopes := ⟨captured, ["-- "]⟩
  sections := (∅ : Std.ExtTreeMap String String).insert "title" stored
  openSection := some ⟨"title", 1⟩
  opened := 1

theorem close_fills_markers_nested :
    Parted "@par@parent@parent" ["@par", "", ""] ∧
      ∃ u, Run.close.run (recapturing "@par@parent@parent" "<@parent>") =
          .ok "@par<@parent><@parent>" u ∧
        u.sections["title"]? = some "@par<@parent><@parent>" ∧
        u.scopes = ⟨"-- @par<@parent><@parent>", []⟩ := by
  have hparts : Parted "@par@parent@parent" ["@par", "", ""] :=
    ⟨by decide, by decide, by decide⟩
  have hrefills := ((close_fills_markers "@par@parent@parent").2 _ hparts).2 "<@parent>"
  exact ⟨hparts, hrefills (recapturing "@par@parent@parent" "<@parent>") _ ⟨"title", 1⟩ rfl rfl rfl
    (by simp [recapturing])⟩

/-- Three closes of a section can be regrouped: the content that the first two make, filled by the
third, is that of the first filled by what the other two make. -/
theorem merges_regroup :
    (∀ stored captured, Refills stored captured (merge stored captured)) ∧
      (∀ child middle base : String,
        occurrences (merge child middle).toList =
            occurrences child.toList * occurrences middle.toList →
          merge (merge child middle) base = merge child (merge middle base) ∧
            ∀ later, contentAfter (child :: middle :: base :: later) =
              contentAfter (child :: merge middle base :: later)) ∧
      (∀ stored, merge stored marker = stored) ∧
      ∀ stored captured, ¬ marker.toList <:+: stored.toList → merge stored captured = stored := by
  refine ⟨refills_merge, fun child middle base h => ?_, merge_marker,
    fun stored captured h => merge_of_not_infix h captured⟩
  have hregroup := merge_merge h base
  refine ⟨hregroup, fun later => ?_⟩
  simp only [contentAfter, List.foldl_cons, hregroup]

theorem merges_regroup_nested :
    occurrences (merge "[@parent|@parent]" "<@parent>").toList =
        occurrences "[@parent|@parent]".toList * occurrences "<@parent>".toList ∧
      merge (merge "[@parent|@parent]" "<@parent>") "x" =
        merge "[@parent|@parent]" (merge "<@parent>" "x") ∧
      (∃ u, Run.close.run (recapturing "[@parent|@parent]" "<x>") = .ok "[<x>|<x>]" u) ∧
      ¬ marker.toList <:+: "@par".toList ∧ merge "@par" "x" = "@par" := by
  have hcount : occurrences (merge "[@parent|@parent]" "<@parent>").toList =
      occurrences "[@parent|@parent]".toList * occurrences "<@parent>".toList := by decide
  have hplain : ¬ marker.toList <:+: "@par".toList := by decide
  obtain ⟨hrefills, hregroup, -, hkept⟩ := merges_regroup
  obtain ⟨u, hclose, -⟩ := hrefills "[@parent|@parent]" "<x>"
    (recapturing "[@parent|@parent]" "<x>") _ ⟨"title", 1⟩ rfl rfl rfl (by simp [recapturing])
  exact ⟨hcount, (hregroup _ _ "x" hcount).1, ⟨u, hclose⟩, hplain, hkept _ "x" hplain⟩

/-- A marker that is put together of two texts is filled by the third only if the first two were
closed before. -/
example : merge (merge "@@parent" "parent") "x" = "x" ∧
    merge "@@parent" (merge "parent" "x") = "@parent" := by
  decide

end ViewTemplates.Render
