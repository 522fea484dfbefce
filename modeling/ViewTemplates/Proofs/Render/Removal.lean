import ViewTemplates.Proofs.Render.Balance

/-!
# Calls that can be left out

A call that fails early leaves the state as it is: a section call that is misplaced, or a load that
the limit or the store refuses (`FailsEarly`, `FailsEarly.callFrom_eq`). For the section calls this
is `Run.atomic_extend`, `Run.atomic_beginSection` and `Run.atomic_close`; a close has taken the open
section out of the state before it fails, and put it back.

If a program goes on after a failure of one of its calls as if the call had not been made
(`Program.OmitsAt`), and the call fails early whenever it is made (`Executes`), then the program
does the same without the call.

Two renders, one of them with the call and one without, are compared by `Mirrors`: from a state `s`,
the second run ends as the first does, in the state that the first one ends in, but with the history
that leaves out the call and numbers the later calls of its program anew (`State.without`). The
history is never read, so each call keeps this; that the loads of a template do so is a premise for
those loads only that the template comes to make (`TemplateLoads`).

* `failed_calls_neutral`: calls that fail early change nothing, a partial that fails in any way has
  written nothing, and a call that always fails early can be left out of a program that does not
  mind.
-/

set_option autoImplicit false

namespace ViewTemplates

open Markup

/-- The call begins or ends a section, or says that the view extends another. -/
inductive Call.IsSectionCall : Call → Prop
  | beginSection (name : String) : IsSectionCall (.node (.beginSection name))
  | closeNode : IsSectionCall (.node .close)
  | close : IsSectionCall .close
  | extend (parent : String) : IsSectionCall (.node (.extend parent))

/-- The template that a call runs by itself, to answer its output or to write it. -/
def Call.loaded? : Call → Option String
  | load name => some name
  | node (.includePartial name) => some name
  | _ => none

/-- The second program is the first one without the call that is `k` calls ahead. After a failure of
that call, whatever the fault is, the first program goes on as the second does in its place. -/
inductive Program.OmitsAt : Nat → Program → Program → Prop
  | done {k : Nat} : OmitsAt k done done
  | fail {k : Nat} (e : Fault) : OmitsAt k (fail e) (fail e)
  | here {omitted : Call} {next : Except Fault Answer → Program} {rest : Program} :
      (∀ e, next (.error e) = rest) → OmitsAt 0 (call omitted next) rest
  | later {k : Nat} {made : Call} {next next' : Except Fault Answer → Program} :
      (∀ result, OmitsAt k (next result) (next' result)) →
      OmitsAt (k + 1) (call made next) (call made next')

/-- A guarded step of a list can be left out. -/
theorem Program.omitsAt_ofSteps (before after : List Step) (omitted : Call) :
    OmitsAt before.length (ofSteps (before ++ ⟨omitted, true⟩ :: after))
      (ofSteps (before ++ after)) := by
  induction before with
  | nil => exact .here fun _ => rfl
  | cons step before ih =>
    refine .later fun result => ?_
    cases result with
    | ok answer => exact ih
    | error e =>
      dsimp only
      split
      · exact ih
      · exact .fail e

namespace Render

/-! ## Calls that fail early -/

/-- A section call that fails leaves the state as it is. -/
theorem atomic_of_isSectionCall {call : Call} (hc : call.IsSectionCall)
    (loader : String → Run String) (fields : Fields) : (runCall loader fields call).Atomic := by
  intro s e u h
  cases hc with
  | beginSection name => exact Run.atomic_beginSection name (Run.error_of_bind_pure h)
  | extend parent => exact Run.atomic_extend parent (Run.error_of_bind_pure h)
  | close => exact Run.atomic_close (Run.error_of_bind_pure h)
  | closeNode => exact Run.atomic_close (Run.error_of_bind_pure (Run.error_of_bind_pure h))

/-- Makes a call in a state of a render. -/
def callFrom (setting : Setting) (s : State) (call : Call) : EStateM.Result Fault State Answer :=
  (runCall (load setting) setting.fields call).run s

/-- The call fails before it has done anything: it is a section call that fails, or the template
that it loads is refused by the limit or by the store. -/
inductive FailsEarly (setting : Setting) (s : State) : Call → Prop
  | sectionCall {call : Call} {e : Fault} {u : State} : call.IsSectionCall →
      callFrom setting s call = .error e u → FailsEarly setting s call
  | limit {call : Call} {name : String} : call.loaded? = some name →
      setting.maxDepth ≤ s.loading.length → FailsEarly setting s call
  | store {call : Call} {name : String} {e : Fault} : call.loaded? = some name →
      setting.store.find name = .error e → FailsEarly setting s call

/-- A call fails as the load that it makes does. -/
theorem run_eq_error_of_loaded? {call : Call} {name : String} (hc : call.loaded? = some name)
    {loader : String → Run String} {fields : Fields} {s u : State} {e : Fault}
    (h : (loader name).run s = .error e u) : (runCall loader fields call).run s = .error e u := by
  cases call with
  | load n =>
    cases hc
    rw [runCall, EStateM.run_bind, h]
  | node node =>
    cases node with
    | includePartial n =>
      cases hc
      rw [runCall, runNode, EStateM.run_bind, EStateM.run_bind, h]
    | comment | text | field | extend | beginSection | close | showSection => cases hc
  | close | sectionContent | field | fields | currentTemplate | scopeCounts | execute | fail =>
    cases hc

/-- A load that the limit or the store refuses leaves the state as it is. -/
theorem exists_error_of_refused {setting : Setting} {s : State} {name : String}
    (h : setting.maxDepth ≤ s.loading.length ∨ ∃ e, setting.store.find name = .error e) :
    ∃ e, (load setting name).run s = .error e s := by
  rw [run_load]
  by_cases hfull : setting.maxDepth ≤ s.loading.length
  · rw [if_pos hfull]
    exact ⟨_, rfl⟩
  · obtain ⟨e, he⟩ := h.resolve_left hfull
    rw [if_neg hfull, he]
    exact ⟨e, rfl⟩

/-- A call that fails early leaves the state as it is. -/
theorem FailsEarly.callFrom_eq {setting : Setting} {s : State} {call : Call}
    (h : FailsEarly setting s call) : ∃ e, callFrom setting s call = .error e s := by
  have hload {name : String} (hc : call.loaded? = some name)
      (h : setting.maxDepth ≤ s.loading.length ∨ ∃ e, setting.store.find name = .error e) :
      ∃ e, callFrom setting s call = .error e s :=
    (exists_error_of_refused h).imp fun e he => run_eq_error_of_loaded? hc he
  cases h with
  | @sectionCall e u hc hrun =>
    obtain rfl := atomic_of_isSectionCall hc _ _ hrun
    exact ⟨e, hrun⟩
  | limit hc hfull => exact hload hc (.inl hfull)
  | store hc hfind => exact hload hc (.inr ⟨_, hfind⟩)

/-- A partial fails only as its load does: what is then written cannot fail. -/
theorem load_eq_error_of_partial {setting : Setting} {s u : State} {p : String} {e : Fault}
    (h : callFrom setting s (.node (.includePartial p)) = .error e u) :
    (load setting p).run s = .error e u := by
  have hnode := Run.error_of_bind_pure h
  rw [runNode, EStateM.run_bind] at hnode
  split at hnode
  · cases hnode
  · cases hnode
    assumption

/-! ## The loads and the calls of a template -/

section
variable (loader : String → Run String) (fields : Fields)

/-- Run from the state `s`, the body comes to load `p` in the state `u`. -/
def BodyLoads (body : Body) (s : State) (p : String) (u : State) : Prop :=
  ∃ before after, body = before ++ .includePartial p :: after ∧
    (runBody loader fields before).run s = .ok () u

/-- Made in the state `s`, the call comes to load `p` in the state `u`. -/
inductive CallLoads : Call → State → String → State → Prop
  | direct {call : Call} {s : State} {p : String} : call.loaded? = some p → CallLoads call s p s
  | execute {name text p : String} {body : Body} {s u : State} :
      Body.ofText name text = .ok body → BodyLoads loader fields body s p u →
      CallLoads (.execute name text) s p u

/-- Run from the state `s`, with its first call at the place `index`, the program comes to make the
call at the place `place`, in the state `u`. -/
inductive Comes (template : String) : Nat → Program → State → Nat → Call → State → Prop
  | first {index : Nat} {call : Call} {next : Except Fault Answer → Program} {s : State} :
      Comes template index (.call call next) s index call s
  | later {index place : Nat} {first call : Call} {next : Except Fault Answer → Program}
      {s u : State} :
      Comes template (index + 1) (next (resultOf ((runCall loader fields first).run s)))
        (noted loader fields template index first s) place call u →
      Comes template index (.call first next) s place call u

/-- Run from the state `s`, the program comes to load `p` in the state `u`. -/
def ProgramLoads (template : String) (index : Nat) (program : Program) (s : State) (p : String)
    (u : State) : Prop :=
  ∃ place call t, Comes loader fields template index program s place call t ∧
    CallLoads loader fields call t p u

/-- Run from the state `s`, the template comes to load `p` in the state `u`. -/
def TemplateLoads (name : String) : Template → State → String → State → Prop
  | .directives body => BodyLoads loader fields body
  | .program program => ProgramLoads loader fields name 0 program

end

/-- The load of `name` from the state `s` comes to make `call`, as the call `index` of the program
`template`, in the state `u`: the program is the template that it runs, or one that is run by that
template. -/
inductive Executes (setting : Setting) (template : String) (index : Nat) :
    String → State → Call → State → Prop
  | here {program : Program} {call : Call} {s u : State} :
      s.loading.length < setting.maxDepth →
      setting.store.find template = .ok (.program program) →
      Comes (load setting) setting.fields template 0 program (s.enter template) index call u →
      Executes setting template index template s call u
  | inside {name p : String} {found : Template} {call : Call} {s t u : State} :
      s.loading.length < setting.maxDepth →
      setting.store.find name = .ok found →
      TemplateLoads (load setting) setting.fields name found (s.enter name) p t →
      Executes setting template index p t call u →
      Executes setting template index name s call u

section
variable {loader : String → Run String} {fields : Fields} {s t u : State} {p : String}

theorem BodyLoads.head (body : Body) :
    BodyLoads loader fields (.includePartial p :: body) s p s :=
  ⟨[], body, rfl, rfl⟩

theorem BodyLoads.tail {node : Node} {body : Body}
    (hn : (runNode loader fields node).run s = .ok () t)
    (h : BodyLoads loader fields body t p u) : BodyLoads loader fields (node :: body) s p u := by
  obtain ⟨before, after, rfl, hrun⟩ := h
  refine ⟨node :: before, after, rfl, ?_⟩
  rw [runBody, EStateM.run_bind, hn]
  exact hrun

theorem ProgramLoads.later {template : String} {index : Nat} {first : Call}
    {next : Except Fault Answer → Program}
    (h : ProgramLoads loader fields template (index + 1)
      (next (resultOf ((runCall loader fields first).run s)))
      (noted loader fields template index first s) p u) :
    ProgramLoads loader fields template index (.call first next) s p u := by
  obtain ⟨place, call, t, hcomes, hload⟩ := h
  exact ⟨place, call, t, .later hcomes, hload⟩

/-- A program comes to no call before its first one. -/
theorem Comes.index_le {template : String} {index place : Nat} {program : Program} {call : Call}
    (h : Comes loader fields template index program s place call u) : index ≤ place := by
  induction h with
  | first => exact Nat.le_refl _
  | later _ ih => exact Nat.le_of_succ_le ih

/-- What the calls of a program keep holds whenever it makes a call. -/
theorem Comes.keeps {P : State → Prop} {template : String} {index place : Nat} {program : Program}
    {call : Call} (h : Comes loader fields template index program s place call u)
    (hk : ∀ index call, Keeps P (tryCall loader fields template index call)) (hs : P s) : P u := by
  induction h with
  | first => exact hs
  | later _ ih => exact ih (hk _ _ _ hs)

end

section
variable {setting : Setting} {name p : String} {s t u : State} (hs : s.SectionInside)
include hs

/-- While a program runs, its name is on top of those that ran before. -/
theorem Comes.exists_within {program : Program} {place : Nat} {call : Call}
    (h : Comes (load setting) setting.fields name 0 program (s.enter name) place call u) :
    ∃ d, Within s name d u :=
  h.keeps (fun index call => (keptByCalls_within hs).tryCall
    (fun q => load_keeps_within setting name q hs) name index call) ⟨{}, .enter s name⟩

/-- While the nodes of a body run, so is the template that they belong to. -/
theorem BodyLoads.exists_within {body : Body} (ht : ∃ d, Within s name d t)
    (h : BodyLoads (load setting) setting.fields body t p u) : ∃ d, Within s name d u := by
  obtain ⟨before, after, rfl, hrun⟩ := h
  have hkeeps : Keeps (fun u => ∃ d, Within s name d u)
      (runBody (load setting) setting.fields before) :=
    (keptByCalls_within hs).runBody (fun q => load_keeps_within setting name q hs) before
  have hu := hkeeps t ht
  rwa [hrun] at hu

/-- When a template comes to load another, it is still running. -/
theorem TemplateLoads.exists_within {template : Template}
    (h : TemplateLoads (load setting) setting.fields name template (s.enter name) p u) :
    ∃ d, Within s name d u := by
  cases template with
  | directives body => exact BodyLoads.exists_within hs ⟨{}, .enter s name⟩ h
  | program program =>
    obtain ⟨place, call, t, hcomes, hload⟩ := h
    cases hload with
    | direct => exact hcomes.exists_within hs
    | execute _ hload => exact hload.exists_within hs (hcomes.exists_within hs)

end

/-! ## Histories without a call -/

section
variable (template : String) (index : Nat)

/-- The number of a call once the call `index` of the program `template` is left out. -/
def renumber (t : String) (i : Nat) : Nat := if t = template ∧ index < i then i - 1 else i

/-- An entry of the history once the call is left out, unless it is of that call. -/
def Entry.without? (entry : Entry) : Option Entry :=
  match entry.event with
  | .called t i result =>
    if t = template ∧ i = index then none
    else some { entry with event := .called t (renumber template index t i) result }
  | _ => some entry

/-- The state with a history that leaves out the call. -/
def State.without (s : State) : State :=
  { s with history := s.history.filterMap (Entry.without? template index) }

/-- The same ending, in another state. -/
def mapState {α : Type} (f : State → State) :
    EStateM.Result Fault State α → EStateM.Result Fault State α
  | .ok a s => .ok a (f s)
  | .error e s => .error e (f s)

theorem finalState_mapState {α : Type} (f : State → State) (r : EStateM.Result Fault State α) :
    finalState (mapState f r) = f (finalState r) := by
  cases r <;> rfl

theorem resultOf_mapState {α : Type} (f : State → State) (r : EStateM.Result Fault State α) :
    resultOf (mapState f r) = resultOf r := by
  cases r <;> rfl

theorem renumber_of_lt {t : String} {i : Nat} (h : i < index) : renumber template index t i = i :=
  if_neg fun hi => absurd hi.2 (Nat.not_lt_of_lt h)

/-- The numbers of the calls after one that stays go on by one. -/
theorem renumber_succ {t : String} {i : Nat} (h : ¬(t = template ∧ i = index)) :
    renumber template index t (i + 1) = renumber template index t i + 1 := by
  by_cases ht : t = template
  · have hi : i ≠ index := fun hi => h ⟨ht, hi⟩
    simp only [renumber, ht, true_and]
    split <;> split <;> omega
  · simp [renumber, ht]

namespace State

variable (s : State)

theorem without_record_called {t : String} {i : Nat} (h : ¬(t = template ∧ i = index))
    (result : Except Fault Answer) :
    (s.record (.called t i result)).without template index =
      (s.without template index).record (.called t (renumber template index t i) result) := by
  simp [without, record, Entry.without?, h]

theorem without_record_self (result : Except Fault Answer) :
    (s.record (.called template index result)).without template index =
      s.without template index := by
  simp [without, record, Entry.without?]

theorem without_closeScope :
    (s.without template index).closeScope =
      (s.closeScope.1, s.closeScope.2.without template index) := by
  unfold closeScope
  simp only [without]
  split <;> rfl

theorem without_closeScopes (n : Nat) :
    (s.without template index).closeScopes n = (s.closeScopes n).without template index := by
  induction n generalizing s with
  | zero => rfl
  | succ n ih => rw [closeScopes, closeScopes, without_closeScope, ih]

theorem without_restartScope :
    (s.without template index).restartScope = s.restartScope.without template index := by
  have hbelow : (s.without template index).scopes.below = s.scopes.below := rfl
  unfold restartScope
  rw [hbelow, without_closeScope]
  split <;> rfl

theorem without_unwind (entry : Nat) :
    (s.without template index).unwind entry = (s.unwind entry).without template index := by
  have hc := without_closeScopes template index s (s.height - entry)
  exact congrArg (fun t : State =>
    { t with openSection := s.openSection.filter fun o => o.scope < entry }) hc

end State

end

/-! ## Runs without a call -/

/-- From the state `s`, the second run ends as the first one does, but without the call in its
history. -/
def Mirrors {α : Type} (template : String) (index : Nat) (run run' : Run α) (s : State) : Prop :=
  run'.run (s.without template index) = mapState (·.without template index) (run.run s)

namespace Mirrors

variable {α β : Type} {template : String} {index : Nat} {s : State}

theorem pure (a : α) : Mirrors template index (Pure.pure a) (Pure.pure a) s := rfl

theorem throw (e : Fault) : Mirrors template index (throw e : Run α) (throw e) s := rfl

theorem modify {f : State → State}
    (hf : f (s.without template index) = (f s).without template index) :
    Mirrors template index (modify f) (modify f) s :=
  congrArg (EStateM.Result.ok ()) hf

theorem bind {run run' : Run α} {next next' : α → Run β} (h : Mirrors template index run run' s)
    (hnext : ∀ a t, run.run s = .ok a t → Mirrors template index (next a) (next' a) t) :
    Mirrors template index (run >>= next) (run' >>= next') s := by
  unfold Mirrors at h ⊢
  rw [EStateM.run_bind, EStateM.run_bind, h]
  cases hr : run.run s with
  | error e t => rfl
  | ok a t => exact hnext a t hr

theorem extend (parent : String) :
    Mirrors template index (Run.extend parent) (Run.extend parent) s := by
  have hown : (s.without template index).ownSection? = s.ownSection? := rfl
  have hr := State.without_restartScope template index { s with parent := some parent }
  unfold Mirrors
  rw [Run.run_extend, Run.run_extend, hown]
  cases s.ownSection? with
  | some o => rfl
  | none =>
    exact congrArg (fun t : State => EStateM.Result.ok () (t.record (.extended parent))) hr

theorem beginSection (name : String) :
    Mirrors template index (Run.beginSection name) (Run.beginSection name) s := by
  have ho : (s.without template index).openSection = s.openSection := rfl
  unfold Mirrors
  rw [Run.run_beginSection, Run.run_beginSection, ho]
  cases s.openSection <;> rfl

theorem close : Mirrors template index Run.close Run.close s := by
  have ho : (s.without template index).openSection = s.openSection := rfl
  have hh : (s.without template index).height = s.height := rfl
  unfold Mirrors
  rw [Run.run_close, Run.run_close, State.without_closeScope, ho, hh]
  cases s.openSection with
  | none => rfl
  | some o =>
    dsimp only
    split <;> rfl

theorem framed {name : String} {run run' : Run Unit}
    (h : Mirrors template index run run' (s.enter name)) :
    Mirrors template index (Run.framed name run) (Run.framed name run') s := by
  have henter : (s.without template index).enter name = (s.enter name).without template index := rfl
  have hunwind (t : State) : (t.without template index).leave.unwind s.height =
      (t.leave.unwind s.height).without template index :=
    State.without_unwind template index t.leave s.height
  unfold Mirrors at h ⊢
  rw [Run.run_framed, Run.run_framed, henter, h]
  cases run.run (s.enter name) with
  | error e t => exact congrArg (EStateM.Result.error e) (hunwind t)
  | ok _ t =>
    have hopen : (t.without template index).unclosed? s.height = t.unclosed? s.height := rfl
    have hclose : (t.without template index).leave.closeScope =
        (t.leave.closeScope.1, t.leave.closeScope.2.without template index) :=
      State.without_closeScope template index t.leave
    have hheight : (s.without template index).height = s.height := rfl
    simp only [mapState, hheight, hopen]
    cases t.unclosed? s.height with
    | none => simp only [hclose]
    | some o => simp only [hunwind]

end Mirrors

section
variable {template : String} {index : Nat} {loader loader' : String → Run String}
  {fields : Fields} {s : State}

theorem runNode_mirrors {node : Node}
    (hl : ∀ p, node = .includePartial p → Mirrors template index (loader p) (loader' p) s) :
    Mirrors template index (runNode loader fields node) (runNode loader' fields node) s := by
  cases node with
  | comment => exact .pure _
  | text | field | showSection => exact .modify rfl
  | extend parent => exact .extend parent
  | beginSection name => exact .beginSection name
  | close => exact .bind .close fun _ _ _ => .pure _
  | includePartial p => exact .bind (hl p rfl) fun _ _ _ => .modify rfl

theorem runBody_mirrors {body : Body}
    (hl : ∀ p u, BodyLoads loader fields body s p u →
      Mirrors template index (loader p) (loader' p) u) :
    Mirrors template index (runBody loader fields body) (runBody loader' fields body) s := by
  induction body generalizing s with
  | nil => exact .pure _
  | cons node body ih =>
    refine .bind (runNode_mirrors fun p hp => ?_) fun _ t ht => ih fun p u hu => ?_
    · exact hl p s (hp ▸ BodyLoads.head body)
    · exact hl p u (hu.tail ht)

theorem runCall_mirrors {call : Call}
    (hl : ∀ p u, CallLoads loader fields call s p u →
      Mirrors template index (loader p) (loader' p) u) :
    Mirrors template index (runCall loader fields call) (runCall loader' fields call) s := by
  cases call with
  | node node =>
    refine .bind (runNode_mirrors fun p hp => hl p s (.direct ?_)) fun _ _ _ => .pure _
    rw [hp]
    rfl
  | close => exact .bind .close fun _ _ _ => .pure _
  | load name => exact .bind (hl name s (.direct rfl)) fun _ _ _ => .pure _
  | sectionContent | field | fields | currentTemplate | scopeCounts => exact rfl
  | fail e => exact .throw e
  | execute name text =>
    cases hb : Body.ofText name text with
    | error e => simpa only [runCall, hb] using .throw e
    | ok body =>
      simpa only [runCall, hb] using
        .bind (runBody_mirrors fun p u hu => hl p u (.execute hb hu)) fun _ _ _ => .pure _

/-- A call that stays is noted under its new number. -/
theorem tryCall_mirrors {t : String} {i : Nat} {call : Call} (hne : ¬(t = template ∧ i = index))
    (hl : ∀ p u, CallLoads loader fields call s p u →
      Mirrors template index (loader p) (loader' p) u) :
    Mirrors template index (tryCall loader fields t i call)
      (tryCall loader' fields t (renumber template index t i) call) s := by
  have hcall := runCall_mirrors hl
  unfold Mirrors at hcall ⊢
  rw [run_tryCall, run_tryCall, hcall, resultOf_mapState, finalState_mapState]
  exact congrArg (EStateM.Result.ok _)
    (State.without_record_called template index _ hne _).symm

/-- A program whose calls all stay. -/
theorem runProgram_mirrors {t : String} {i : Nat} {program : Program}
    (hi : t = template → index < i)
    (hl : ∀ p u, ProgramLoads loader fields t i program s p u →
      Mirrors template index (loader p) (loader' p) u) :
    Mirrors template index (runProgram loader fields t i program)
      (runProgram loader' fields t (renumber template index t i) program) s := by
  induction program generalizing i s with
  | done => exact .pure _
  | fail e => exact .throw e
  | call call next ih =>
    have hne : ¬(t = template ∧ i = index) := fun h => absurd (hi h.1) (h.2 ▸ Nat.lt_irrefl _)
    have hcall : Mirrors template index (tryCall loader fields t i call)
        (tryCall loader' fields t (renumber template index t i) call) s :=
      tryCall_mirrors hne fun p u hu => hl p u ⟨i, call, s, .first, hu⟩
    refine hcall.bind fun r u hu => ?_
    rw [run_tryCall] at hu
    cases hu
    rw [← renumber_succ template index hne]
    exact ih _ (fun ht => Nat.lt_succ_of_lt (hi ht)) fun p u hu => hl p u hu.later

/-- A program with the call that is left out, and without it, where the call leaves the state as it
is. -/
theorem runProgram_mirrors_omitted {k i : Nat} {program program' : Program}
    (h : program.OmitsAt k program') (hk : i + k = index)
    (hfail : ∀ call u, Comes loader fields template i program s index call u →
      ∃ e, (runCall loader fields call).run u = .error e u)
    (hl : ∀ p u, ProgramLoads loader fields template i program s p u →
      Mirrors template index (loader p) (loader' p) u) :
    Mirrors template index (runProgram loader fields template i program)
      (runProgram loader' fields template i program') s := by
  induction h generalizing i s with
  | done => exact .pure _
  | fail e => exact .throw e
  | @here omitted next rest hrest =>
    obtain rfl : i = index := hk
    obtain ⟨e, he⟩ := hfail omitted s .first
    have hnoted : noted loader fields template i omitted s =
        s.record (.called template i (.error e)) := by
      rw [noted, run_tryCall, he]
      rfl
    have hgoesOn := runProgram_mirrors (t := template) (fun _ => Nat.lt_succ_self i)
      fun p u hu =>
        have hload : ProgramLoads loader fields template i (.call omitted next) s p u := .later hu
        hl p u hload
    rw [hnoted, he, resultOf_error, hrest] at hgoesOn
    unfold Mirrors at hgoesOn ⊢
    rw [State.without_record_self] at hgoesOn
    rw [run_runProgram_call, hnoted, he, resultOf_error, hrest, ← hgoesOn]
    simp [renumber]
  | @later k made next next' _ ih =>
    have hlt : i < index := by omega
    have hcall : Mirrors template index (tryCall loader fields template i made)
        (tryCall loader' fields template (renumber template index template i) made) s :=
      tryCall_mirrors (fun h => hlt.ne h.2) fun p u hu => hl p u ⟨i, made, s, .first, hu⟩
    rw [renumber_of_lt template index hlt] at hcall
    refine hcall.bind fun result u hu => ?_
    rw [run_tryCall] at hu
    cases hu
    exact ih _ (by omega) (fun call u hu => hfail call u (.later hu)) fun p u hu => hl p u hu.later

end

/-! ## Sources without a call -/

/-- The sources differ in one program, which leaves out the call `index` in the second. -/
structure DropsCall (store store' : Store) (template : String) (index : Nat) : Prop where
  program : ∃ program program', store.find template = .ok (.program program) ∧
    store'.find template = .ok (.program program') ∧ program.OmitsAt index program'
  other : ∀ name, name ≠ template → store'.find name = store.find name

section
variable {store store' : Store} {fields : Fields} {maxDepth : Nat} {template : String}
  {index : Nat} (hd : DropsCall store store' template index)
include hd

theorem load_mirrors {name : String} {s : State} (hs : s.SectionInside)
    (hfail : ∀ call u, Executes ⟨store, fields, maxDepth⟩ template index name s call u →
      FailsEarly ⟨store, fields, maxDepth⟩ u call) :
    Mirrors template index (load ⟨store, fields, maxDepth⟩ name)
      (load ⟨store', fields, maxDepth⟩ name) s := by
  have hloading : (s.without template index).loading = s.loading := rfl
  -- each template that runs leaves less room
  induction hn : maxDepth - s.loading.length generalizing name s with
  | zero =>
    have hfull : maxDepth ≤ s.loading.length := Nat.le_of_sub_eq_zero hn
    unfold Mirrors
    rw [run_load, run_load, if_pos hfull, if_pos (hloading ▸ hfull)]
    rfl
  | succ n ih =>
    have hroom : s.loading.length < maxDepth := by omega
    have hnotFull : ¬ maxDepth ≤ s.loading.length := Nat.not_le_of_lt hroom
    have hload (found : Template) (hf : store.find name = .ok found) (p : String) (u : State)
        (hu : TemplateLoads (load ⟨store, fields, maxDepth⟩) fields name found (s.enter name) p
          u) :
        Mirrors template index (load ⟨store, fields, maxDepth⟩ p)
          (load ⟨store', fields, maxDepth⟩ p) u := by
      obtain ⟨d, hw⟩ := TemplateLoads.exists_within hs hu
      have hlen : u.loading.length = s.loading.length + 1 := congrArg List.length hw.loading
      exact ih (hw.sectionInside hs) (fun call v hv => hfail call v (.inside hroom hf hu hv)) rfl
        (by omega)
    unfold Mirrors
    rw [run_load, run_load, if_neg hnotFull, if_neg (hloading ▸ hnotFull)]
    by_cases hname : name = template
    · subst hname
      obtain ⟨program, program', hf, hf', homits⟩ := hd.program
      rw [hf, hf']
      refine Mirrors.framed (runProgram_mirrors_omitted homits (Nat.zero_add _)
        (fun call u hu => ?_) (hload _ hf))
      exact (hfail call u (.here hroom hf hu)).callFrom_eq
    · rw [hd.other name hname]
      cases hf : store.find name with
      | error e => rfl
      | ok found =>
        refine Mirrors.framed ?_
        cases found with
        | directives body => exact runBody_mirrors (hload _ hf)
        | program program =>
          have hsame := runProgram_mirrors (fun ht => absurd ht hname) (hload _ hf)
          rwa [renumber, if_neg fun h => hname h.1] at hsame

variable {view : String}
  (hfail : ∀ name chain s, Attempt ⟨store, fields, maxDepth⟩ view (name :: chain) s →
    ∀ call u, Executes ⟨store, fields, maxDepth⟩ template index name s call u →
      FailsEarly ⟨store, fields, maxDepth⟩ u call)
include hfail

theorem Attempt.load_mirrors {name : String} {chain : List String} {s : State}
    (ha : Attempt ⟨store, fields, maxDepth⟩ view (name :: chain) s) :
    (load ⟨store', fields, maxDepth⟩ name).run (s.without template index) =
      mapState (·.without template index) ((load ⟨store, fields, maxDepth⟩ name).run s) :=
  Render.load_mirrors hd ha.idle.sectionInside (hfail name chain s ha)

theorem Attempt.climbStep_without {x : Climb}
    (ha : Attempt ⟨store, fields, maxDepth⟩ view (x.name :: x.before) x.state) :
    climbStep ⟨store', fields, maxDepth⟩ ⟨x.before, x.name, x.state.without template index⟩ =
      (climbStep ⟨store, fields, maxDepth⟩ x).map (mapState (·.without template index))
        fun next => { next with state := next.state.without template index } := by
  unfold climbStep
  rw [ha.load_mirrors hd hfail]
  cases (load ⟨store, fields, maxDepth⟩ x.name).run x.state with
  | error e s => rfl
  | ok output s =>
    have hparent : (s.without template index).parent = s.parent := rfl
    simp only [mapState, hparent]
    cases s.parent with
    | none => rfl
    | some parent =>
      dsimp only
      split <;> rfl

theorem render_without :
    render ⟨store', fields, maxDepth⟩ view =
      (render ⟨store, fields, maxDepth⟩ view).map (mapState (·.without template index)) := by
  have hview : Attempt ⟨store, fields, maxDepth⟩ view [view] {} := .view
  refine iterate?_of_simulation
    (R := fun x y => Attempt ⟨store, fields, maxDepth⟩ view (x.name :: x.before) x.state ∧
      y = ⟨x.before, x.name, x.state.without template index⟩) ?_ ?_ ⟨hview, rfl⟩
  · rintro x _ outcome ⟨ha, rfl⟩ hx
    rw [ha.climbStep_without hd hfail, hx]
    rfl
  · rintro x _ next ⟨ha, rfl⟩ hx
    refine ⟨_, ?_, ha.next hx, rfl⟩
    rw [ha.climbStep_without hd hfail, hx]
    rfl

end

/-- A section call that fails leaves the state as it is, and so does any call that fails early. A
partial that fails in any way has written nothing to the scopes that were there before. So if a call
of a program that does not mind its failure fails early whenever a render makes it, then without the
call the render ends in the same way, and the other calls have the same results. -/
theorem failed_calls_neutral :
    (∀ (setting : Setting) (s : State) (call : Call) (e : Fault) (u : State),
      call.IsSectionCall → callFrom setting s call = .error e u → u = s) ∧
    (∀ setting s call, FailsEarly setting s call →
      ∃ e, callFrom setting s call = .error e s) ∧
    (∀ setting s, Reachable setting s → ∀ p e u,
      callFrom setting s (.node (.includePartial p)) = .error e u → u.scopes = s.scopes) ∧
    ∀ store store' fields maxDepth template index, DropsCall store store' template index →
      ∀ view,
        (∀ name chain s, Attempt ⟨store, fields, maxDepth⟩ view (name :: chain) s →
          ∀ call u, Executes ⟨store, fields, maxDepth⟩ template index name s call u →
            FailsEarly ⟨store, fields, maxDepth⟩ u call) →
        render ⟨store', fields, maxDepth⟩ view =
          (render ⟨store, fields, maxDepth⟩ view).map (mapState (·.without template index)) := by
  refine ⟨fun setting s call e u hc h => atomic_of_isSectionCall hc _ _ h,
    fun setting s call h => h.callFrom_eq, fun setting s hs p e u h => ?_, ?_⟩
  · have hframe := (load_neutral hs p).1
    rw [load_eq_error_of_partial h] at hframe
    exact hframe.scopes
  · intro store store' fields maxDepth template index hd view hfail
    exact render_without hd hfail

/-- A page that goes on after a note that fails, and then makes the steps `steps`. -/
def pageWithFailingNote (steps : List Step) : Store :=
  ((({} : MemoryStore).add "note" (.directives [.text "b", .close])).add "page" (.script
    (⟨.node (.text "a"), false⟩ :: ⟨.node (.includePartial "note"), true⟩ :: steps))).toStore

/-- The page with a misplaced close as its third step. -/
def pageWithMisplacedClose : Setting :=
  ⟨pageWithFailingNote [⟨.close, true⟩, ⟨.scopeCounts, false⟩], ∅, 2⟩

theorem pageWithFailingNote_find_other (steps steps' : List Step) (name : String)
    (hname : name ≠ "page") :
    (pageWithFailingNote steps').find name = (pageWithFailingNote steps).find name := by
  have hne : compare "page" name ≠ .eq := by simpa using hname.symm
  simp only [pageWithFailingNote, MemoryStore.toStore, MemoryStore.find, MemoryStore.add,
    Std.TreeMap.getElem?_insert, hne, ↓reduceIte]

theorem attempt_pageWithMisplacedClose {names : List String} {s : State}
    (ha : Attempt pageWithMisplacedClose "page" names s) : names = ["page"] ∧ s = {} := by
  induction ha with
  | view => exact ⟨rfl, rfl⟩
  | parent _ hl hp _ ih =>
    obtain ⟨hnames, rfl⟩ := ih
    cases hnames
    cases hl
    cases hp

/-- The page loads the note, and the note loads nothing. -/
theorem not_executes_note {index : Nat} {call : Call} {s u : State} :
    ¬ Executes pageWithMisplacedClose "page" index "note" s call u := by
  intro h
  generalize hname : "note" = name at h
  cases h with
  | here => simp at hname
  | @inside _ p _ _ _ _ _ _ hf hload _ =>
    subst hname
    cases hf
    obtain ⟨before, after, hbody, -⟩ := hload
    have hmem : .includePartial p ∈ before ++ .includePartial p :: after := by simp
    rw [← hbody] at hmem
    simp at hmem

/-- The close is made after the note, where no section is open. -/
theorem failsEarly_of_executes {name : String} {chain : List String} {s u : State} {call : Call}
    (ha : Attempt pageWithMisplacedClose "page" (name :: chain) s)
    (h : Executes pageWithMisplacedClose "page" 2 name s call u) :
    FailsEarly pageWithMisplacedClose u call := by
  obtain ⟨hnames, rfl⟩ := attempt_pageWithMisplacedClose ha
  cases hnames
  cases h with
  | here _ hf hcomes =>
    cases hf
    obtain _ | ⟨_ | ⟨_ | hcomes⟩⟩ := hcomes
    · exact .sectionCall .close rfl
    · exact absurd hcomes.index_le (by decide)
  | inside _ hf hload hin =>
    cases hf
    obtain ⟨_, _, _, hcomes, hcall⟩ := hload
    obtain _ | ⟨_ | ⟨_ | ⟨_ | ⟨_ | _⟩⟩⟩⟩ := hcomes
    · cases hcall with | direct hc => cases hc
    · cases hcall with
      | direct hc =>
        cases hc
        exact absurd hin not_executes_note
    · cases hcall with | direct hc => cases hc
    · cases hcall with | direct hc => cases hc

theorem failed_calls_neutral_page :
    let store := pageWithFailingNote [⟨.close, true⟩, ⟨.scopeCounts, false⟩]
    let store' := pageWithFailingNote [⟨.scopeCounts, false⟩]
    let around : State := { scopes := .push {}, openSection := some ⟨"s", 0⟩ }
    DropsCall store store' "page" 2 ∧
      (∃ u, callFrom ⟨store, ∅, 2⟩ around .close =
        .error (.misplaced (.foreignClose "s")) u ∧ u = around) ∧
      (∃ t e u, Reachable ⟨store, ∅, 2⟩ t ∧
        callFrom ⟨store, ∅, 2⟩ t (.node (.includePartial "note")) = .error e u ∧
        u.scopes = t.scopes) ∧
      (∃ t e, Executes ⟨store, ∅, 2⟩ "page" 2 "page" {} .close t ∧
        FailsEarly ⟨store, ∅, 2⟩ t .close ∧
        callFrom ⟨store, ∅, 2⟩ t .close = .error e t) ∧
      (∃ s', render ⟨store, ∅, 2⟩ "page" = some (.ok "a" s')) ∧
      render ⟨store', ∅, 2⟩ "page" =
        (render ⟨store, ∅, 2⟩ "page").map (mapState (·.without "page" 2)) := by
  intro store store' around
  obtain ⟨hsection, hearly, hpartial, hdrop⟩ := failed_calls_neutral
  have hd : DropsCall store store' "page" 2 :=
    ⟨⟨_, _, rfl, rfl, Program.omitsAt_ofSteps
        [⟨.node (.text "a"), false⟩, ⟨.node (.includePartial "note"), true⟩] _ .close⟩,
      pageWithFailingNote_find_other _ _⟩
  obtain ⟨v, hforeign⟩ : ∃ v, callFrom ⟨store, ∅, 2⟩ around .close =
      .error (.misplaced (.foreignClose "s")) v := ⟨_, rfl⟩
  obtain ⟨t, e, u, hreach, hnote⟩ : ∃ t e u, Reachable ⟨store, ∅, 2⟩ t ∧
      callFrom ⟨store, ∅, 2⟩ t (.node (.includePartial "note")) = .error e u :=
    ⟨_, _, _, ⟨"page", "page", [], {}, .view, .tail _ (.tail _ (.head _))⟩, rfl⟩
  have hexec : Executes ⟨store, ∅, 2⟩ "page" 2 "page" {} .close _ :=
    .here (by decide) rfl (.later (.later .first))
  have hclose := failsEarly_of_executes .view hexec
  obtain ⟨_, hfailed⟩ := hearly _ _ _ hclose
  have hpage : ∃ s', render ⟨store, ∅, 2⟩ "page" = some (.ok "a" s') := by
    rw [render, climb_of_page rfl rfl]
    exact ⟨_, rfl⟩
  refine ⟨hd, ⟨v, hforeign, hsection _ _ _ _ _ .close hforeign⟩,
    ⟨t, e, u, hreach, hnote, hpartial _ t hreach _ e u hnote⟩,
    ⟨_, _, hexec, hclose, hfailed⟩, hpage, ?_⟩
  exact hdrop _ _ _ _ _ _ hd _ fun name chain s ha call u hu => failsEarly_of_executes ha hu

end Render

end ViewTemplates
