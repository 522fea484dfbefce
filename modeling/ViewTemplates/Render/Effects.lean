import ViewTemplates.Render.Run

/-!
# What single calls change

Each lemma gives the state after a call as the state before it with the fields that the call can
change; the other fields are as they were. The texts of the scopes are left open here, they are
followed in `Proofs.Render.Draft`. Properties of the other fields, such as the history, the sections
and the view to be extended, are read off from these lemmas without opening a call. A call that
fails says that it is misplaced.
-/

set_option autoImplicit false

namespace ViewTemplates.Render

namespace State

/-! ## Scopes -/

theorem closeScope_effect (s : State) :
    ∃ scopes closed, s.closeScope.2 = { s with scopes, closed } := by
  unfold closeScope
  split
  · exact ⟨_, _, rfl⟩
  · exact ⟨s.scopes, s.closed, rfl⟩

theorem closeScopes_effect (s : State) (n : Nat) :
    ∃ scopes closed, s.closeScopes n = { s with scopes, closed } := by
  induction n generalizing s with
  | zero => exact ⟨s.scopes, s.closed, rfl⟩
  | succ n ih =>
    obtain ⟨scopes, closed, hs⟩ := s.closeScope_effect
    obtain ⟨scopes', closed', hs'⟩ := ih s.closeScope.2
    refine ⟨scopes', closed', ?_⟩
    rw [closeScopes, hs', hs]

theorem restartScope_effect (s : State) :
    ∃ scopes opened closed, s.restartScope = { s with scopes, opened, closed } := by
  unfold restartScope
  split
  · exact ⟨s.scopes, s.opened, s.closed, rfl⟩
  · obtain ⟨scopes, closed, hs⟩ := s.closeScope_effect
    rw [hs]
    exact ⟨_, _, _, rfl⟩

theorem unwind_effect (s : State) (entry : Nat) :
    ∃ scopes openSection closed, s.unwind entry = { s with scopes, openSection, closed } := by
  obtain ⟨scopes, closed, hs⟩ := s.closeScopes_effect (s.height - entry)
  rw [unwind, hs]
  exact ⟨_, _, _, rfl⟩

/-! ## Calls -/

section
variable {s s' : State}

theorem extend_effect {parent : String} (h : (Run.extend parent).run s = .ok () s') :
    ∃ scopes opened closed, s' = { s with
      scopes, opened, closed, parent := some parent,
      history := ⟨.extended parent, opened, closed⟩ :: s.history } := by
  rw [Run.run_extend] at h
  split at h
  · cases h
  · obtain ⟨scopes, opened, closed, hr⟩ := restartScope_effect { s with parent := some parent }
    rw [hr] at h
    cases h
    exact ⟨scopes, opened, closed, rfl⟩

theorem beginSection_effect {name : String} (h : (Run.beginSection name).run s = .ok () s') :
    ∃ scopes openSection opened, s' = { s with
      scopes, openSection, opened,
      history := ⟨.opened name, opened, s.closed⟩ :: s.history } := by
  rw [Run.run_beginSection] at h
  split at h
  · cases h
  · cases h
    exact ⟨_, _, _, rfl⟩

/-- A section that ends is the open one, captured by the innermost scope. Its content is stored, and
given. -/
theorem close_effect {content : String} (h : Run.close.run s = .ok content s') :
    ∃ o scopes closed, s.openSection = some o ∧ o.scope + 1 = s.height ∧
      content = s.mergedContent o.name s.closeScope.1 ∧ s' = { s with
        scopes, closed, openSection := none, sections := s.sections.insert o.name content,
        history := ⟨.closed o.name s.closeScope.1 content, s.opened, closed⟩ :: s.history } := by
  rw [Run.run_close] at h
  split at h
  · cases h
  · rename_i o ho
    split at h
    · rename_i hscope
      obtain ⟨scopes, closed, hs⟩ := s.closeScope_effect
      simp only [hs] at h
      cases h
      exact ⟨o, _, closed, ho, hscope, rfl, rfl⟩
    · cases h

/-! ## Faults -/

theorem misplaced_of_extend {parent : String} {e : Fault}
    (h : (Run.extend parent).run s = .error e s') : ∃ fault, e = .misplaced fault := by
  rw [Run.run_extend] at h
  split at h <;> cases h
  exact ⟨_, rfl⟩

theorem misplaced_of_beginSection {name : String} {e : Fault}
    (h : (Run.beginSection name).run s = .error e s') : ∃ fault, e = .misplaced fault := by
  rw [Run.run_beginSection] at h
  split at h <;> cases h
  exact ⟨_, rfl⟩

theorem misplaced_of_close {e : Fault} (h : Run.close.run s = .error e s') :
    ∃ fault, e = .misplaced fault := by
  rw [Run.run_close] at h
  split at h
  · cases h
    exact ⟨_, rfl⟩
  · split at h <;> cases h
    exact ⟨_, rfl⟩

end

end State

/-! ## Templates -/

/-- Running a template in a scope of its own changes what the template changes, and then the scopes,
the open section and the names of the running templates. -/
theorem framed_effect (name : String) (run : Run Unit) (s : State) :
    ∃ scopes openSection closed, finalState ((Run.framed name run).run s) =
      { finalState (run.run (s.enter name)) with
        scopes, openSection, closed,
        loading := (finalState (run.run (s.enter name))).loading.tail } := by
  rw [Run.run_framed]
  cases run.run (s.enter name) with
  | error e t =>
    obtain ⟨scopes, openSection, closed, hu⟩ := t.leave.unwind_effect s.height
    exact ⟨scopes, openSection, closed, hu⟩
  | ok _ t =>
    dsimp only
    split
    · obtain ⟨scopes, closed, hc⟩ := t.leave.closeScope_effect
      exact ⟨scopes, t.openSection, closed, hc⟩
    · obtain ⟨scopes, openSection, closed, hu⟩ := t.leave.unwind_effect s.height
      exact ⟨scopes, openSection, closed, hu⟩

end ViewTemplates.Render
