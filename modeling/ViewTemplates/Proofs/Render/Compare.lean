import ViewTemplates.Proofs.Render.Stackless

/-!
# Two renders compared load by load

Two renders of a view may have different sources, fields or limits. If the second one follows the
first (`Follows`), whatever an outermost load of the first gives, the second source evaluates to the
same, from the same sections. Then the second render comes to the same attempts
(`Attempt.exists_follower`) and gives the same page (`Follows.page`). If loads also fail alike, as
far as a function `f` of faults tells, then the renders have the same result as far as `f` tells
(`result_eq_of_follows`).
-/

set_option autoImplicit false

namespace ViewTemplates.Render

section
variable {setting setting' : Setting} {bodies' : Bodies} {view : String}

/-- What the outermost loads of the render give, the bodies of the other source evaluate to. -/
def Follows (setting' : Setting) (bodies' : Bodies) (setting : Setting) (view : String) : Prop :=
  ∀ name chain s output s', Attempt setting view (name :: chain) s →
    (load setting name).run s = .ok output s' →
    Stackless.load bodies' setting'.fields setting'.maxDepth 0 none name s.shared =
      .ok (output, s'.shared)

variable (h' : setting'.store.HasBodies bodies') (hok : Follows setting' bodies' setting view)
include h' hok

/-- The second render comes to the same attempts, from the same sections. -/
theorem Attempt.exists_follower {names : List String} {s : State}
    (ha : Attempt setting view names s) :
    ∃ t, Attempt setting' view names t ∧ t.shared = s.shared := by
  induction ha with
  | view => exact ⟨{}, .view, rfl⟩
  | @parent name parent output chain s s' ha hl hp hnot ih =>
    obtain ⟨t, hat, ht⟩ := ih
    have hload := hok name chain s output s' ha hl
    rw [← ht] at hload
    obtain ⟨t', hl', ht'⟩ := hat.exists_load h' hload
    have hp' : t'.parent = some parent := (congrArg Shared.parent ht').trans hp
    refine ⟨t'.takeParent, .parent hat hl' hp' hnot, ?_⟩
    exact congrArg (fun k : Shared => { k with parent := none }) ht'

/-- What the second render loads in an attempt of the first. -/
theorem Attempt.exists_follower_load {name output : String} {chain : List String} {s s' : State}
    (ha : Attempt setting view (name :: chain) s) (hl : (load setting name).run s = .ok output s') :
    ∃ t t', Attempt setting' view (name :: chain) t ∧ (load setting' name).run t = .ok output t' ∧
      t'.parent = s'.parent := by
  obtain ⟨t, hat, ht⟩ := ha.exists_follower h' hok
  have hload := hok name chain s output s' ha hl
  rw [← ht] at hload
  obtain ⟨t', hl', ht'⟩ := hat.exists_load h' hload
  exact ⟨t, t', hat, hl', congrArg Shared.parent ht'⟩

theorem Follows.page {page : String} (hr : result setting view = some (.ok page)) :
    result setting' view = some (.ok page) := by
  obtain ⟨outcome, hrender, hpage⟩ := Option.map_eq_some_iff.1 hr
  obtain ⟨name, chain, s, ha, hends⟩ := render_cases hrender
  cases hends with
  | fault hl => cases hpage
  | cycle hl hp hc => cases hpage
  | page hl hp =>
    cases hpage
    obtain ⟨t, t', hat, hl', hp'⟩ := ha.exists_follower_load h' hok hl
    exact result_of_render ((Attempt.Ends.page hl' (hp'.trans hp)).render_eq hat)

/-- If loads fail alike as well, the renders have the same result. -/
theorem result_eq_of_follows {ε : Type} (f : Fault → ε)
    (herr : ∀ name chain s e s', Attempt setting view (name :: chain) s →
      (load setting name).run s = .error e s' →
      ∃ e', f e = f e' ∧ Stackless.load bodies' setting'.fields setting'.maxDepth 0 none name
        s.shared = .error e') :
    (result setting view).map (·.mapError f) = (result setting' view).map (·.mapError f) := by
  cases hr : render setting view with
  | none =>
    have hr' : render setting' view = none := render_eq_none_of_attempts hr fun _ _ ha =>
      (ha.exists_follower h' hok).imp fun _ => And.left
    rw [result, result, hr, hr']
  | some outcome =>
    rw [result_of_render hr]
    obtain ⟨name, chain, s, ha, hends⟩ := render_cases hr
    cases hends with
    | page hl hp =>
      obtain ⟨t, t', hat, hl', hp'⟩ := ha.exists_follower_load h' hok hl
      rw [result_of_render ((Attempt.Ends.page hl' (hp'.trans hp)).render_eq hat)]
      rfl
    | cycle hl hp hc =>
      obtain ⟨t, t', hat, hl', hp'⟩ := ha.exists_follower_load h' hok hl
      rw [result_of_render ((Attempt.Ends.cycle hl' (hp'.trans hp) hc).render_eq hat)]
      rfl
    | fault hl =>
      obtain ⟨t, hat, ht⟩ := ha.exists_follower h' hok
      obtain ⟨e', hf, hload⟩ := herr name chain s _ _ ha hl
      rw [← ht] at hload
      obtain ⟨t', hl'⟩ := hat.exists_load_error h' hload
      rw [result_of_render ((Attempt.Ends.fault hl').render_eq hat)]
      exact congrArg (fun e => some (Except.error e)) hf

end

end ViewTemplates.Render
