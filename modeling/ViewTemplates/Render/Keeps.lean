import ViewTemplates.Render.Effects

/-!
# What a run keeps

A property of states is kept by a run if it holds of the state after the run, whether the run failed
or not, whenever it holds before. A template keeps what its nodes and calls keep
(`Keeps.runTemplate`). `KeptByCalls` lists the single calls of a running template; a property that
they and the templates run by it keep is kept by the whole template (`KeptByCalls.runTemplate`).
`Kept` adds that the property is kept when a template is run in a scope of its own; then all loads
keep it (`Kept.loadWithin`).

Two properties are used here. The names of the running templates are the same after each call of a
template; so a load from any state is what `run_load` says, where the limit is tested on them. And
the view to be extended is one that a template of the store asks for (`loadWithin_parentAsked`).
-/

set_option autoImplicit false

namespace ViewTemplates.Render

open Markup

/-- The run keeps the property. -/
def Keeps {α : Type} (P : State → Prop) (run : Run α) : Prop :=
  ∀ s, P s → P (finalState (run.run s))

namespace Keeps

variable {α β : Type} {P : State → Prop}

theorem pure (a : α) : Keeps P (Pure.pure a : Run α) := fun _ h => h

theorem throw (e : Fault) : Keeps P (throw e : Run α) := fun _ h => h

theorem get : Keeps P (MonadState.get : Run State) := fun _ h => h

theorem modify {f : State → State} (hf : ∀ s, P s → P (f s)) :
    Keeps P (modify f : Run PUnit) := fun s h => hf s h

theorem bind {run : Run α} {next : α → Run β} (h : Keeps P run) (hnext : ∀ a, Keeps P (next a)) :
    Keeps P (run >>= next) := by
  intro s hs
  have h₁ := h s hs
  rw [EStateM.run_bind]
  split
  · rename_i heq
    rw [heq] at h₁
    exact hnext _ _ h₁
  · rename_i heq
    rw [heq] at h₁
    exact h₁

/-- A run that changes nothing when it fails. -/
theorem of_atomic {run : Run α} (ha : run.Atomic)
    (hok : ∀ s s' a, run.run s = .ok a s' → P s → P s') : Keeps P run := by
  intro s hs
  cases hr : run.run s with
  | ok a s' => exact hok s s' a hr hs
  | error e s' => exact ha hr ▸ hs

section
variable {loader : String → Run String} {fields : Fields}

theorem runBody {body : Body} (h : ∀ node ∈ body, Keeps P (runNode loader fields node)) :
    Keeps P (runBody loader fields body) := by
  induction body with
  | nil => exact .pure _
  | cons node body ih =>
    obtain ⟨hnode, hbody⟩ := List.forall_mem_cons.1 h
    exact .bind hnode fun _ => ih hbody

theorem runCall {call : Call} (hl : ∀ name, Keeps P (loader name)) (hclose : Keeps P Run.close)
    (h : ∀ node ∈ call.nodes, Keeps P (runNode loader fields node)) :
    Keeps P (runCall loader fields call) := by
  cases call with
  | node n => exact .bind (h n List.mem_cons_self) fun _ => .pure _
  | close => exact .bind hclose fun _ => .pure _
  | load name => exact .bind (hl name) fun _ => .pure _
  | sectionContent => exact .bind .get fun _ => .pure _
  | field => exact .pure _
  | fields => exact .pure _
  | currentTemplate => exact .bind .get fun _ => .pure _
  | scopeCounts => exact .bind .get fun _ => .bind .get fun _ => .pure _
  | fail => exact .throw _
  | execute name text =>
    cases hb : Body.ofText name text with
    | error e => simpa only [Render.runCall, hb] using .throw e
    | ok body =>
      have hbody : ∀ node ∈ body, Keeps P (runNode loader fields node) := by
        simpa only [Call.nodes, hb] using h
      simpa only [Render.runCall, hb] using .bind (.runBody hbody) fun _ => .pure _

theorem tryCall {template : String} {index : Nat} {call : Call}
    (hnote : ∀ s result, P s → P (s.record (.called template index result)))
    (h : Keeps P (Render.runCall loader fields call)) :
    Keeps P (tryCall loader fields template index call) := by
  intro s hs
  rw [run_tryCall]
  exact hnote _ _ (h s hs)

theorem runProgram {template : String} {index : Nat} {program : Program}
    (h : ∀ index call, program.Makes call →
      Keeps P (Render.tryCall loader fields template index call)) :
    Keeps P (runProgram loader fields template index program) := by
  induction program generalizing index with
  | done => exact .pure _
  | fail => exact .throw _
  | call call next ih =>
    exact .bind (h index call .first) fun result =>
      ih result fun index made hmade => h index made (.later result hmade)

/-- A template keeps what its calls and the nodes that it may run keep. -/
theorem runTemplate {name : String} {template : Template} (hl : ∀ name, Keeps P (loader name))
    (hnote : ∀ s index result, P s → P (s.record (.called name index result)))
    (hclose : Keeps P Run.close)
    (h : ∀ node, template.MayRun node → Keeps P (runNode loader fields node)) :
    Keeps P (runTemplate loader fields name template) := by
  cases template with
  | directives body => exact .runBody fun node hnode => h node (.directives hnode)
  | program g =>
    refine .runProgram fun index call hmakes => .tryCall (fun s => hnote s index) ?_
    exact .runCall hl hclose fun node hnode => h node (.program hmakes hnode)

end

end Keeps

/-- The single calls keep a property. -/
structure KeptByCalls (P : State → Prop) : Prop where
  write : ∀ s text, P s → P (s.write text)
  note : ∀ s template index result, P s → P (s.record (.called template index result))
  extend : ∀ s s' parent, (Run.extend parent).run s = .ok () s' → P s → P s'
  beginSection : ∀ s s' name, (Run.beginSection name).run s = .ok () s' → P s → P s'
  close : ∀ s s' content, Run.close.run s = .ok content s' → P s → P s'

namespace KeptByCalls

variable {P : State → Prop} {loader : String → Run String} {fields : Fields}

theorem keeps_close (h : KeptByCalls P) : Keeps P Run.close := .of_atomic Run.atomic_close h.close

theorem runNode (h : KeptByCalls P) (hl : ∀ name, Keeps P (loader name)) (node : Node) :
    Keeps P (runNode loader fields node) := by
  cases node with
  | comment => exact .pure _
  | text => exact .modify fun s => h.write s _
  | field => exact .modify fun s => h.write s _
  | extend p => exact .of_atomic (Run.atomic_extend p) fun s s' _ => h.extend s s' p
  | beginSection n =>
    exact .of_atomic (Run.atomic_beginSection n) fun s s' _ => h.beginSection s s' n
  | close => exact .bind h.keeps_close fun _ => .pure _
  | showSection => exact .modify fun s => h.write s _
  | includePartial name => exact .bind (hl name) fun _ => .modify fun s => h.write s _

theorem runBody (h : KeptByCalls P) (hl : ∀ name, Keeps P (loader name)) (body : Body) :
    Keeps P (runBody loader fields body) :=
  .runBody fun node _ => h.runNode hl node

theorem runCall (h : KeptByCalls P) (hl : ∀ name, Keeps P (loader name)) (call : Call) :
    Keeps P (runCall loader fields call) :=
  .runCall hl h.keeps_close fun node _ => h.runNode hl node

theorem tryCall (h : KeptByCalls P) (hl : ∀ name, Keeps P (loader name)) (template : String)
    (index : Nat) (call : Call) : Keeps P (tryCall loader fields template index call) :=
  .tryCall (fun s => h.note s template index) (h.runCall hl call)

theorem runTemplate (h : KeptByCalls P) (hl : ∀ name, Keeps P (loader name)) (name : String)
    (template : Template) : Keeps P (runTemplate loader fields name template) :=
  .runTemplate hl (fun s => h.note s name) h.keeps_close fun node _ => h.runNode hl node

end KeptByCalls

/-- The single calls keep a property, and so does a template run in a scope of its own if the
template itself keeps it. -/
structure Kept (P : State → Prop) : Prop extends KeptByCalls P where
  framed : ∀ name (run : Run Unit), Keeps P run → Keeps P (Run.framed name run)

theorem Kept.loadWithin {setting : Setting} {P : State → Prop} (h : Kept P) (levels : Nat)
    (name : String) : Keeps P (loadWithin setting levels name) := by
  induction levels generalizing name with
  | zero => exact .throw _
  | succ levels ih =>
    cases hf : setting.store.find name with
    | error e => simpa only [Render.loadWithin, hf] using .throw e
    | ok template =>
      simpa only [Render.loadWithin, hf] using h.framed _ _ (h.runTemplate ih name template)

/-! ## The running templates -/

theorem keptByCalls_loading (names : List String) : KeptByCalls fun s => s.loading = names where
  write _ _ h := h
  note _ _ _ _ h := h
  extend s s' parent he h := by
    obtain ⟨_, _, _, rfl⟩ := State.extend_effect he
    exact h
  beginSection s s' name hb h := by
    obtain ⟨_, _, _, rfl⟩ := State.beginSection_effect hb
    exact h
  close s s' content hc h := by
    obtain ⟨_, _, _, -, -, -, rfl⟩ := State.close_effect hc
    exact h

/-- A load comes back to the templates that ran before it. -/
theorem loadWithin_loading (setting : Setting) (levels : Nat) (name : String) (s : State) :
    (finalState ((loadWithin setting levels name).run s)).loading = s.loading := by
  induction levels generalizing name s with
  | zero => rfl
  | succ levels ih =>
    rw [loadWithin]
    cases hf : setting.store.find name with
    | error e => rfl
    | ok template =>
      have hl : ∀ p, Keeps (fun u => u.loading = name :: s.loading) (loadWithin setting levels p) :=
        fun p u hu => (ih p u).trans hu
      have hrun : Keeps (fun u => u.loading = name :: s.loading)
          (runTemplate (loadWithin setting levels) setting.fields name template) :=
        (keptByCalls_loading _).runTemplate hl name template
      obtain ⟨_, _, _, hframed⟩ := framed_effect name
        (runTemplate (loadWithin setting levels) setting.fields name template) s
      rw [hframed, hrun (s.enter name) rfl]
      rfl

theorem keeps_loading (setting : Setting) (levels : Nat) (names : List String) (name : String) :
    Keeps (fun s => s.loading = names) (loadWithin setting levels name) :=
  fun s hs => (loadWithin_loading setting levels name s).trans hs

/-! ## Loads from any state -/

section
variable {P : State → Prop} {loader loader' : String → Run String} {fields : Fields}
  (hk : KeptByCalls P) (hl : ∀ name, Keeps P (loader name))
  (heq : ∀ name s, P s → (loader' name).run s = (loader name).run s)
include heq

theorem runNode_congr (node : Node) {s : State} (hs : P s) :
    (runNode loader' fields node).run s = (runNode loader fields node).run s := by
  cases node with
  | includePartial name =>
    rw [runNode, runNode, EStateM.run_bind, EStateM.run_bind, heq name s hs]
  | comment | text | field | extend | beginSection | close | showSection => rfl

include hk hl

theorem runBody_congr (body : Body) {s : State} (hs : P s) :
    (runBody loader' fields body).run s = (runBody loader fields body).run s := by
  induction body generalizing s with
  | nil => rfl
  | cons node body ih =>
    have hnode : P (finalState ((runNode loader fields node).run s)) := hk.runNode hl node s hs
    rw [runBody, runBody, EStateM.run_bind, EStateM.run_bind, runNode_congr heq node hs]
    cases hr : (runNode loader fields node).run s with
    | error e s' => rfl
    | ok _ s' =>
      rw [hr] at hnode
      exact ih hnode

theorem runCall_congr (call : Call) {s : State} (hs : P s) :
    (runCall loader' fields call).run s = (runCall loader fields call).run s := by
  cases call with
  | node n =>
    rw [runCall, runCall, EStateM.run_bind, EStateM.run_bind, runNode_congr heq n hs]
  | load name => rw [runCall, runCall, EStateM.run_bind, EStateM.run_bind, heq name s hs]
  | execute name text =>
    cases hb : Body.ofText name text with
    | error e => simp only [runCall, hb]
    | ok body =>
      simp only [runCall, hb, EStateM.run_bind, runBody_congr hk hl heq body hs]
  | close | sectionContent | field | fields | currentTemplate | scopeCounts | fail => rfl

theorem runProgram_congr (template : String) (index : Nat) (program : Program) {s : State}
    (hs : P s) :
    (runProgram loader' fields template index program).run s =
      (runProgram loader fields template index program).run s := by
  induction program generalizing index s with
  | done | fail => rfl
  | call call next ih =>
    have hcall : P (noted loader fields template index call s) :=
      hk.tryCall hl template index call s hs
    rw [run_runProgram_call, run_runProgram_call, noted, run_tryCall,
      runCall_congr hk hl heq call hs]
    exact ih _ _ hcall

/-- A template does the same with loaders that do the same in the states that it goes through. -/
theorem runTemplate_congr (name : String) (template : Template) {s : State} (hs : P s) :
    (runTemplate loader' fields name template).run s =
      (runTemplate loader fields name template).run s := by
  cases template with
  | directives body => exact runBody_congr hk hl heq body hs
  | program program => exact runProgram_congr hk hl heq name 0 program hs

end

theorem Keeps.load {setting : Setting} {name : String} {P : State → Prop}
    (h : ∀ levels, Keeps P (loadWithin setting levels name)) : Keeps P (load setting name) :=
  fun s => h (s.levelsLeft setting) s

/-- With as many levels as are left, a load is one from the state. -/
theorem run_load_of_loading {setting : Setting} {names : List String} {levels : Nat}
    (hlevels : setting.maxDepth - names.length = levels) (name : String) {s : State}
    (hs : s.loading = names) :
    (load setting name).run s = (loadWithin setting levels name).run s := by
  rw [run_load_eq_loadWithin, State.levelsLeft, hs, hlevels]

/-- A load fails if as many templates run as may run inside each other. Otherwise it looks for the
template and runs it in a scope of its own, with the loads that it makes in turn. -/
theorem run_load (setting : Setting) (name : String) (s : State) :
    (load setting name).run s =
      if setting.maxDepth ≤ s.loading.length then .error (.nestedTooDeep name setting.maxDepth) s
      else
        match setting.store.find name with
        | .ok template =>
          (Run.framed name (runTemplate (load setting) setting.fields name template)).run s
        | .error e => .error e s := by
  rw [run_load_eq_loadWithin]
  cases hn : s.levelsLeft setting with
  | zero =>
    rw [if_pos (Nat.le_of_sub_eq_zero hn)]
    rfl
  | succ levels =>
    have hroom : ¬ setting.maxDepth ≤ s.loading.length := fun hle => by
      rw [State.levelsLeft, Nat.sub_eq_zero_of_le hle] at hn
      cases hn
    rw [if_neg hroom, loadWithin]
    cases hf : setting.store.find name with
    | error e => rfl
    | ok template =>
      have hlevels : setting.maxDepth - (name :: s.loading).length = levels := by
        rw [State.levelsLeft] at hn
        rw [List.length_cons]
        omega
      have hrun : (runTemplate (load setting) setting.fields name template).run (s.enter name) =
          (runTemplate (loadWithin setting levels) setting.fields name template).run
            (s.enter name) :=
        runTemplate_congr (keptByCalls_loading (name :: s.loading)) (keeps_loading setting levels _)
          (fun p u hu => run_load_of_loading hlevels p hu) name template rfl
      exact Run.framed_congr hrun.symm

/-! ## The view to be extended -/

/-- The view to be extended, if there is one, was asked for by a template of the store. -/
def ParentAsked (store : Store) (s : State) : Prop := ∀ p ∈ s.parent, store.Asks p

theorem ParentAsked.of_eq {store : Store} {s t : State} (h : ParentAsked store s)
    (heq : t.parent = s.parent) : ParentAsked store t :=
  fun p hp => h p (heq ▸ hp)

theorem parentAsked_of_none {store : Store} {s : State} (h : s.parent = none) :
    ParentAsked store s := by
  intro p hp
  rw [h] at hp
  cases hp

theorem keeps_close_parentAsked (store : Store) : Keeps (ParentAsked store) Run.close := by
  refine .of_atomic Run.atomic_close fun s s' content hc h => ?_
  obtain ⟨_, _, _, -, -, -, rfl⟩ := State.close_effect hc
  exact h

theorem runNode_parentAsked {store : Store} {loader : String → Run String} {fields : Fields}
    (hl : ∀ name, Keeps (ParentAsked store) (loader name)) {node : Node}
    (hnode : ∀ p, node = .extend p → store.Asks p) :
    Keeps (ParentAsked store) (runNode loader fields node) := by
  cases node with
  | comment => exact .pure _
  | text | field | showSection => exact .modify fun s h => h
  | extend p =>
    refine .of_atomic (Run.atomic_extend p) fun s s' _ he _ => ?_
    obtain ⟨_, _, _, rfl⟩ := State.extend_effect he
    rintro q ⟨⟩
    exact hnode p rfl
  | beginSection n =>
    refine .of_atomic (Run.atomic_beginSection n) fun s s' _ hb h => ?_
    obtain ⟨_, _, _, rfl⟩ := State.beginSection_effect hb
    exact h
  | close => exact .bind (keeps_close_parentAsked store) fun _ => .pure _
  | includePartial name => exact .bind (hl name) fun _ => .modify fun s h => h

theorem loadWithin_parentAsked (setting : Setting) (levels : Nat) (name : String) :
    Keeps (ParentAsked setting.store) (loadWithin setting levels name) := by
  induction levels generalizing name with
  | zero => exact .throw _
  | succ levels ih =>
    cases hf : setting.store.find name with
    | error e => simpa only [loadWithin, hf] using .throw e
    | ok template =>
      intro s hs
      have hrun : Keeps (ParentAsked setting.store)
          (runTemplate (loadWithin setting levels) setting.fields name template) :=
        .runTemplate ih (fun _ _ _ h => h) (keeps_close_parentAsked _) fun node hrun =>
          runNode_parentAsked ih fun p hp => ⟨name, template, hf, hp ▸ hrun⟩
      obtain ⟨_, _, _, hframed⟩ := framed_effect name
        (runTemplate (loadWithin setting levels) setting.fields name template) s
      rw [loadWithin, hf]
      exact (hrun (s.enter name) hs).of_eq (by rw [hframed])

end ViewTemplates.Render
