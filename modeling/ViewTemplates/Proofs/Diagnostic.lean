import ViewTemplates.Fault

/-!
# The levels of a diagnostic

A file that cannot be read because of another fault puts a level above those of that fault
(`Fault.levels`). The diagnostic does not look at the fault below as such: it goes down from cause
to cause (`Descent`), and a fault that is a cause stands for itself there, with its own message and
what is below it, not with the fault as one more step.

* `Fault.diagnostic_levels`: the way down comes to an end and meets each level below the fault once,
  and the diagnostic has the messages of all levels in their order. So the diagnostic of an
  unreadable file is its message and the diagnostic of what made it unreadable.
-/

set_option autoImplicit false

namespace ViewTemplates

mutual

/-- The messages of a fault and of what is below it, level by level. -/
def Fault.levels : Fault → List String
  | .unreadable path cause => (Fault.unreadable path cause).message :: cause.levels
  | fault => [fault.message]

/-- The messages of a cause and of what is below it. A fault is not a level besides itself. -/
def Cause.levels : Cause → List String
  | .plain text => [text]
  | .wrapped fault => fault.levels

end

/-- The causes that are met from one on, each below the one before it, down to the last. -/
inductive Descent : Option Cause → List Cause → Prop
  | ended : Descent none []
  | next {c : Cause} {cs : List Cause} : Descent c.next? cs → Descent (some c) (c :: cs)

/-! ## Levels -/

theorem Fault.levels_of_cause? {f : Fault} {c : Cause} (h : f.cause? = some c) :
    f.levels = f.message :: c.levels := by
  cases f <;> cases h
  rw [Fault.levels]

theorem Fault.levels_of_cause?_eq_none {f : Fault} (h : f.cause? = none) :
    f.levels = [f.message] := by
  cases f with
  | unreadable => cases h
  | _ => rfl

theorem Cause.levels_of_next? {c d : Cause} (h : c.next? = some d) :
    c.levels = c.message :: d.levels := by
  cases c with
  | plain => cases h
  | wrapped f => exact Fault.levels_of_cause? h

theorem Cause.levels_of_next?_eq_none {c : Cause} (h : c.next? = none) :
    c.levels = [c.message] := by
  cases c with
  | plain => rfl
  | wrapped f => exact Fault.levels_of_cause?_eq_none h

/-! ## The way down -/

theorem Cause.levels_eq (c : Cause) : c.levels = c.chain.map Cause.message := by
  fun_induction Cause.chain c with
  | case1 c d h ih => rw [levels_of_next? h, ih, List.map_cons]
  | case2 c h => rw [levels_of_next?_eq_none h, List.map_singleton]

theorem Cause.descent_chain (c : Cause) : Descent (some c) c.chain := by
  fun_induction Cause.chain c with
  | case1 c d h ih => exact .next (h ▸ ih)
  | case2 c h => exact .next (h ▸ .ended)

theorem Fault.levels_eq (f : Fault) : f.levels = f.message :: f.causes.map Cause.message := by
  unfold causes
  split
  · rename_i c h
    rw [levels_of_cause? h, c.levels_eq]
  · rename_i h
    exact levels_of_cause?_eq_none h

theorem Fault.descent_causes (f : Fault) : Descent f.cause? f.causes := by
  unfold causes
  split
  · rename_i c h
    exact h ▸ c.descent_chain
  · rename_i h
    exact h ▸ .ended

/-! ## Diagnostics -/

theorem foldl_append_message (out : String) (cs : List Cause) :
    cs.foldl (fun out c => out ++ ": " ++ c.message) out =
      ": ".intercalate (out :: cs.map Cause.message) := by
  induction cs generalizing out with
  | nil => simp
  | cons c cs ih =>
    rw [List.foldl_cons, ih, String.intercalate_cons_append, List.map_cons,
      String.intercalate_cons_cons]

theorem Fault.diagnostic_eq (f : Fault) : f.diagnostic = ": ".intercalate f.levels := by
  rw [diagnostic, foldl_append_message, levels_eq]

theorem Cause.levels_ne_nil (c : Cause) : c.levels ≠ [] := by
  cases c with
  | plain text => exact List.cons_ne_nil _ _
  | wrapped f =>
    rw [levels, f.levels_eq]
    exact List.cons_ne_nil _ _

theorem Fault.diagnostic_unreadable (path : String) (cause : Cause) :
    (unreadable path cause).diagnostic =
      "failed to read template " ++ path ++ ": " ++ ": ".intercalate cause.levels := by
  rw [diagnostic_eq, levels, String.intercalate_cons_of_ne_nil cause.levels_ne_nil]
  rfl

/-- Going down from cause to cause comes to an end and meets each level below a fault once. The
diagnostic has all levels, from the fault down: that of an unreadable file is its message and then
the diagnostic of the fault that made it unreadable, or the text of what did, and that of any other
fault is its message. -/
theorem Fault.diagnostic_levels (fault : Fault) :
    Descent fault.cause? fault.causes ∧
      fault.levels = fault.message :: fault.causes.map Cause.message ∧
      fault.diagnostic = ": ".intercalate fault.levels ∧
      (∀ path, (unreadable path (.wrapped fault)).diagnostic =
        "failed to read template " ++ path ++ ": " ++ fault.diagnostic) ∧
      (∀ path text, (unreadable path (.plain text)).diagnostic =
        "failed to read template " ++ path ++ ": " ++ text) ∧
      ((∀ path cause, fault ≠ unreadable path cause) → fault.diagnostic = fault.message) := by
  refine ⟨fault.descent_causes, fault.levels_eq, fault.diagnostic_eq, fun path => ?_,
    fun path text => ?_, fun h => ?_⟩
  · rw [diagnostic_unreadable, Cause.levels, fault.diagnostic_eq]
  · rw [diagnostic_unreadable, Cause.levels, String.intercalate_singleton]
  · have hcause : fault.cause? = none := by
      cases fault with
      | unreadable path cause => exact absurd rfl (h path cause)
      | _ => rfl
    rw [diagnostic_eq, levels_of_cause?_eq_none hcause, String.intercalate_singleton]

/-- A template that cannot be read because of a section that cannot be closed. -/
def unreadablePart : Fault := .unreadable "part.html" (.wrapped (.misplaced .notOpen))

theorem Fault.diagnostic_levels_nested :
    (∀ path cause, misplaced .notOpen ≠ unreadable path cause) ∧
      (misplaced .notOpen).diagnostic = "close called with no open section" ∧
      (unreadable "page.html" (.wrapped unreadablePart)).diagnostic =
        "failed to read template page.html: failed to read template part.html: " ++
          "close called with no open section" := by
  have hother (path : String) (cause : Cause) : misplaced .notOpen ≠ unreadable path cause := nofun
  obtain ⟨-, -, -, hpart, -, hmessage⟩ := (misplaced .notOpen).diagnostic_levels
  obtain ⟨-, -, -, hpage, -⟩ := unreadablePart.diagnostic_levels
  refine ⟨hother, hmessage hother, ?_⟩
  rw [hpage, unreadablePart, hpart, hmessage hother]
  rfl

end ViewTemplates
