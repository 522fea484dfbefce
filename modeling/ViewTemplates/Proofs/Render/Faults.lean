import ViewTemplates.Render.Effects

/-!
# Where the faults of a load come from

`Raised setting e`: the fault `e` comes from the limit on nested templates, from the store, from a
section call that is misplaced, from a text that a program executes, or from a program. A program
may fail with a fault of its own, and it may hand on the fault of a call; `Program.Fresh` are those
of its own. A load has no other faults (`loadWithin_failsOnly`), whatever it loads in turn. In
particular a load never says that views extend each other in a cycle, unless a program does.
-/

set_option autoImplicit false

namespace ViewTemplates

open Markup

/-- The program may fail with the fault, though none of its calls failed with it before. -/
inductive Program.Fresh (e : Fault) : Program → Prop
  | fail : Fresh e (fail e)
  | made {next : Except Fault Answer → Program} : Fresh e (call (.fail e) next)
  | later {first : Call} {next : Except Fault Answer → Program} {result : Except Fault Answer} :
      result ≠ .error e → Fresh e (next result) → Fresh e (call first next)

/-- The calls of a list only fail with a fault of their own if one of them says so. -/
theorem Program.Fresh.exists_step {e : Fault} {steps : List Step}
    (h : (Program.ofSteps steps).Fresh e) : ∃ step ∈ steps, step.call = .fail e := by
  induction steps with
  | nil => cases h
  | cons step steps ih =>
    rw [ofSteps] at h
    have hrest : (ofSteps steps).Fresh e → ∃ s ∈ step :: steps, s.call = .fail e := fun h =>
      (ih h).imp fun _ => And.imp_left (List.mem_cons_of_mem _)
    generalize hcall : step.call = call at h
    cases h with
    | made => exact ⟨step, List.mem_cons_self, hcall⟩
    | @later _ _ result hne h =>
      cases result with
      | ok answer => exact hrest h
      | error e' =>
        dsimp only at h
        split at h
        · exact hrest h
        · cases h
          exact absurd rfl hne

namespace Render

/-- The fault comes from one of the places where a load can fail. -/
inductive Raised (setting : Setting) : Fault → Prop
  /-- Templates are nested too deep. -/
  | limit (name : String) : Raised setting (.nestedTooDeep name setting.maxDepth)
  /-- The store does not give a template. -/
  | store {name : String} {e : Fault} : setting.store.find name = .error e → Raised setting e
  /-- A section call is not allowed where it is made. -/
  | misplaced (fault : SectionFault) : Raised setting (.misplaced fault)
  /-- A text that a program executes cannot be read. -/
  | text {name text : String} {e : Fault} : Body.ofText name text = .error e → Raised setting e
  /-- A program fails by itself. -/
  | program {name : String} {program : Program} {e : Fault} :
      setting.store.find name = .ok (.program program) → program.Fresh e → Raised setting e

/-! ## Runs -/

/-- The run has no faults but those in `E`. -/
def FailsOnly {α : Type} (E : Fault → Prop) (run : Run α) : Prop :=
  ∀ s e s', run.run s = .error e s' → E e

namespace FailsOnly

variable {α β : Type} {E : Fault → Prop}

theorem pure (a : α) : FailsOnly E (Pure.pure a : Run α) := nofun

theorem throw {e : Fault} (he : E e) : FailsOnly E (throw e : Run α) := by
  intro s e' s' h
  cases h
  exact he

theorem get : FailsOnly E (MonadState.get : Run State) := nofun

theorem modify (f : State → State) : FailsOnly E (modify f : Run PUnit) := nofun

theorem bind {run : Run α} {next : α → Run β} (h : FailsOnly E run)
    (hnext : ∀ a, FailsOnly E (next a)) : FailsOnly E (run >>= next) := by
  intro s e s' he
  rw [EStateM.run_bind] at he
  split at he
  · exact hnext _ _ _ _ he
  · rename_i hr
    cases he
    exact h _ _ _ hr

theorem mono {E' : Fault → Prop} {run : Run α} (h : FailsOnly E run) (hE : ∀ e, E e → E' e) :
    FailsOnly E' run :=
  fun s e s' he => hE e (h s e s' he)

theorem extend (hm : ∀ fault, E (.misplaced fault)) (parent : String) :
    FailsOnly E (Run.extend parent) := by
  intro s e s' he
  obtain ⟨fault, rfl⟩ := State.misplaced_of_extend he
  exact hm fault

theorem beginSection (hm : ∀ fault, E (.misplaced fault)) (name : String) :
    FailsOnly E (Run.beginSection name) := by
  intro s e s' he
  obtain ⟨fault, rfl⟩ := State.misplaced_of_beginSection he
  exact hm fault

theorem close (hm : ∀ fault, E (.misplaced fault)) : FailsOnly E Run.close := by
  intro s e s' he
  obtain ⟨fault, rfl⟩ := State.misplaced_of_close he
  exact hm fault

theorem framed {name : String} {run : Run Unit} (hm : ∀ fault, E (.misplaced fault))
    (h : FailsOnly E run) : FailsOnly E (Run.framed name run) := by
  intro s e s' he
  rw [Run.run_framed] at he
  split at he
  · split at he <;> cases he
    exact hm _
  · rename_i hr
    cases he
    exact h _ _ _ hr

end FailsOnly

/-! ## Loads -/

section
variable {setting : Setting} {loader : String → Run String} {fields : Fields}
  (hl : ∀ name, FailsOnly (Raised setting) (loader name))
include hl

theorem runNode_failsOnly (node : Node) :
    FailsOnly (Raised setting) (runNode loader fields node) := by
  cases node with
  | comment => exact .pure _
  | text | field | showSection => exact .modify _
  | extend parent => exact .extend .misplaced parent
  | beginSection name => exact .beginSection .misplaced name
  | close => exact .bind (.close .misplaced) fun _ => .pure _
  | includePartial name => exact .bind (hl name) fun _ => .modify _

theorem runBody_failsOnly (body : Body) :
    FailsOnly (Raised setting) (runBody loader fields body) := by
  induction body with
  | nil => exact .pure _
  | cons node body ih => exact .bind (runNode_failsOnly hl node) fun _ => ih

theorem runCall_failsOnly (call : Call) :
    FailsOnly (fun e => Raised setting e ∨ call = .fail e) (runCall loader fields call) := by
  cases call with
  | node node =>
    exact (FailsOnly.bind (runNode_failsOnly hl node) fun _ => .pure _).mono fun _ => .inl
  | close => exact (FailsOnly.bind (.close .misplaced) fun _ => .pure _).mono fun _ => .inl
  | load name => exact (FailsOnly.bind (hl name) fun _ => .pure _).mono fun _ => .inl
  | sectionContent | currentTemplate => exact .bind .get fun _ => .pure _
  | field | fields => exact .pure _
  | scopeCounts => exact .bind .get fun _ => .bind .get fun _ => .pure _
  | fail e => exact .throw (.inr rfl)
  | execute name text =>
    cases hb : Body.ofText name text with
    | error e => simpa only [runCall, hb] using .throw (.inl (.text hb))
    | ok body =>
      have hbody : FailsOnly (Raised setting) (runBody loader fields body >>= fun _ =>
        return Answer.nothing) := .bind (runBody_failsOnly hl body) fun _ => .pure _
      simpa only [runCall, hb] using hbody.mono fun _ => .inl

/-- A program hands on the fault of a call, or fails with one of its own. -/
theorem runProgram_failsOnly {template : String} {index : Nat} (program : Program) :
    FailsOnly (fun e => Raised setting e ∨ program.Fresh e)
      (runProgram loader fields template index program) := by
  induction program generalizing index with
  | done => exact .pure _
  | fail e => exact .throw (.inr .fail)
  | call call next ih =>
    intro s e s' he
    rw [run_runProgram_call] at he
    rcases ih _ _ _ _ he with hraised | hfresh
    · exact .inl hraised
    cases hr : (runCall loader fields call).run s with
    | ok answer t => exact .inr (.later (by simp [hr]) hfresh)
    | error e' t =>
      by_cases heq : e' = e
      · subst heq
        rcases runCall_failsOnly hl call _ _ _ hr with hraised | rfl
        · exact .inl hraised
        · exact .inr .made
      · exact .inr (.later (by simpa [hr] using heq) hfresh)

end

theorem loadWithin_failsOnly (setting : Setting) (levels : Nat) (name : String) :
    FailsOnly (Raised setting) (loadWithin setting levels name) := by
  induction levels generalizing name with
  | zero => exact .throw (.limit name)
  | succ levels ih =>
    rw [loadWithin]
    cases hf : setting.store.find name with
    | error e => exact .throw (.store hf)
    | ok template =>
      refine .framed .misplaced ?_
      cases template with
      | directives body => exact runBody_failsOnly ih body
      | program program =>
        exact (runProgram_failsOnly ih program).mono fun e he => he.elim id (.program hf)

end Render

end ViewTemplates
