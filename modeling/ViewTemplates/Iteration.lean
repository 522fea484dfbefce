/-!
# Steps up to a result

A computation goes from state to state until a step gives a result, and it may as well go on without
end. Where it comes to a result, `iterate` takes its steps. `iterate?` says in every state what
comes of them.
-/

set_option autoImplicit false

namespace ViewTemplates

section
variable {α β : Type} (step : α → β ⊕ α)

/-- Only finitely many steps can be taken from the state. -/
def Halts (a : α) : Prop := Acc (fun next a => step a = .inr next) a

/-- Takes steps until one gives a result. -/
def iterate (a : α) (h : Halts step a) : β :=
  match ha : step a with
  | .inl b => b
  | .inr next => iterate next (h.inv ha)
termination_by (⟨a, h⟩ : {a : α // Acc (fun next a => step a = .inr next) a})
decreasing_by exact ha

open Classical in
/-- The result of the steps from a state, if they come to one. -/
noncomputable def iterate? (a : α) : Option β :=
  if h : Halts step a then some (iterate step a h) else none

end

section
variable {α β : Type} {step : α → β ⊕ α} {a next : α} {b : β}

theorem halts_of_inl (ha : step a = .inl b) : Halts step a :=
  .intro a fun _ hnext => nomatch ha.symm.trans hnext

theorem halts_iff_of_inr (ha : step a = .inr next) : Halts step a ↔ Halts step next := by
  refine ⟨fun h => h.inv ha, fun h => .intro a fun next' hnext' => ?_⟩
  cases ha.symm.trans hnext'
  exact h

theorem iterate?_of_halts (h : Halts step a) : iterate? step a = some (iterate step a h) :=
  dif_pos h

theorem iterate?_of_inl (ha : step a = .inl b) : iterate? step a = some b := by
  rw [iterate?_of_halts (halts_of_inl ha), iterate]
  split
  · cases ha.symm.trans ‹_›
    rfl
  · cases ha.symm.trans ‹_›

theorem iterate?_of_inr (ha : step a = .inr next) : iterate? step a = iterate? step next := by
  by_cases h : Halts step next
  · rw [iterate?_of_halts h, iterate?_of_halts ((halts_iff_of_inr ha).2 h), iterate]
    split
    · cases ha.symm.trans ‹_›
    · cases ha.symm.trans ‹_›
      rfl
  · rw [iterate?, iterate?, dif_neg h, dif_neg (mt (halts_iff_of_inr ha).1 h)]

theorem isSome_iterate? : (iterate? step a).isSome ↔ Halts step a := by
  by_cases h : Halts step a <;> simp [iterate?, h]

/-- What holds of the result of the last step, and is kept by going a step back, holds of the result
of all steps. -/
theorem of_iterate? {P : α → Prop} (h : iterate? step a = some b)
    (stop : ∀ a, step a = .inl b → P a)
    (go : ∀ a next, step a = .inr next → iterate? step next = some b → P next → P a) : P a := by
  have hhalts : Halts step a := isSome_iterate?.1 (h ▸ rfl)
  induction hhalts with
  | intro a _ ih =>
    cases ha : step a with
    | inl b' =>
      rw [iterate?_of_inl ha] at h
      cases h
      exact stop a ha
    | inr next =>
      rw [iterate?_of_inr ha] at h
      exact go a next ha h (ih next ha h)

end

/-! ## Two computations in step -/

section
variable {α α' β β' : Type} {step : α → β ⊕ α} {step' : α' → β' ⊕ α'} {R : α → α' → Prop}
  {f : β → β'} (stop : ∀ a a' b, R a a' → step a = .inl b → step' a' = .inl (f b))
  (go : ∀ a a' next, R a a' → step a = .inr next → ∃ next', step' a' = .inr next' ∧ R next next')
include stop go

theorem halts_iff_of_simulation {a : α} {a' : α'} (hr : R a a') :
    Halts step a ↔ Halts step' a' := by
  constructor
  · intro h
    induction h generalizing a' with
    | intro a _ ih =>
      cases ha : step a with
      | inl b => exact halts_of_inl (stop a a' b hr ha)
      | inr next =>
        obtain ⟨next', ha', hr'⟩ := go a a' next hr ha
        exact (halts_iff_of_inr ha').2 (ih next ha hr')
  · intro h
    induction h generalizing a with
    | intro a' _ ih =>
      cases ha : step a with
      | inl b => exact halts_of_inl ha
      | inr next =>
        obtain ⟨next', ha', hr'⟩ := go a a' next hr ha
        exact (halts_iff_of_inr ha).2 (ih next' ha' hr')

/-- Of two computations that go on and stop at the same steps, one has a result exactly if the other
has. -/
theorem iterate?_of_simulation {a : α} {a' : α'} (hr : R a a') :
    iterate? step' a' = (iterate? step a).map f := by
  by_cases h : Halts step a
  · induction h generalizing a' with
    | intro a _ ih =>
      cases ha : step a with
      | inl b => rw [iterate?_of_inl ha, iterate?_of_inl (stop a a' b hr ha), Option.map_some]
      | inr next =>
        obtain ⟨next', ha', hr'⟩ := go a a' next hr ha
        rw [iterate?_of_inr ha, iterate?_of_inr ha', ih next ha hr']
  · rw [iterate?, iterate?, dif_neg h, dif_neg (mt (halts_iff_of_simulation stop go hr).2 h),
      Option.map_none]

end

end ViewTemplates
