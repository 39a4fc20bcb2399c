import MengXia.Numbered
import MengXia.Store.ExternalSteps
/-!
# Runs of the store

A library starts as the empty migrated database and is changed by one
transaction after another, each in some process of some owner. `Reachable`
are the databases such runs lead to; a property that every `Change` keeps
holds in all of them.
-/

namespace MengXia.Store

open Common Txn

variable {d d' : Database} {schedule : List (Database × ℕ)}

variable {P : Tables → Prop}

/-- The databases that admitted calls lead to from the empty library. A
call that fails rolls its transaction back. -/
inductive Reachable (allowed : Call → Prop) : Database → Prop where
  | empty : Reachable allowed Database.empty
  | step {d : Database} (context : StoreContext) (call : Call) (reachable : Reachable allowed d)
      (admitted : allowed call) : Reachable allowed ((call.exec context).run d).2

/-- The databases that further admitted calls lead to. -/
inductive Later (allowed : Call → Prop) (d : Database) : Database → Prop where
  | refl : Later allowed d d
  | step {d' : Database} (context : StoreContext) (call : Call) (later : Later allowed d d')
      (admitted : allowed call) : Later allowed d ((call.exec context).run d').2

theorem Later.trans {allowed : Call → Prop} {d'' : Database} (h : Later allowed d d')
    (h' : Later allowed d' d'') : Later allowed d d'' := by
  induction h' with
  | refl => exact h
  | step context call _ admitted ih => exact .step context call ih admitted

theorem Later.reachable {allowed : Call → Prop} (h : Later allowed d d') (hd : Reachable allowed d)
    : Reachable allowed d' := by
  induction h with
  | refl => exact hd
  | step context call _ admitted ih => exact .step context call ih admitted

/-- States in which a reader asks for its pages, each reached from the one
before by further calls, and the sizes of the pages. -/
inductive Schedule (allowed : Call → Prop) : Database → List (Database × ℕ) → Prop where
  | nil {d : Database} : Schedule allowed d []
  | cons {d d' : Database} {pageSize : ℕ} {rest : List (Database × ℕ)}
      (later : Later allowed d d') (size : 1 ≤ pageSize ∧ pageSize ≤ 64)
      (next : Schedule allowed d' rest) : Schedule allowed d ((d', pageSize) :: rest)

theorem Schedule.later {allowed : Call → Prop} (h : Schedule allowed d schedule)
    {step : Database × ℕ} (hstep : step ∈ schedule) :
    Later allowed d step.1 := by
  induction h with
  | nil => cases hstep
  | cons later _ _ ih =>
    rcases List.mem_cons.1 hstep with rfl | hstep
    · exact later
    · exact later.trans (ih hstep)

theorem Schedule.size {allowed : Call → Prop} (h : Schedule allowed d schedule)
    {step : Database × ℕ} (hstep : step ∈ schedule) :
    1 ≤ step.2 ∧ step.2 ≤ 64 := by
  induction h with
  | nil => cases hstep
  | cons _ size _ ih =>
    rcases List.mem_cons.1 hstep with rfl | hstep
    · exact size
    · exact ih hstep

/-- The schedule as the queries see it. -/
def tablesOf (schedule : List (Database × ℕ)) : List (Tables × ℕ) :=
  schedule.map fun step => (step.1.toTables, step.2)

/-- A state in which a later page is asked for, and the size of the page. -/
def LaterStep (allowed : Call → Prop) (d : Database) (step : Tables × ℕ) : Prop :=
  ∃ d', Later allowed d d' ∧ step.1 = d'.toTables ∧ 1 ≤ step.2 ∧ step.2 ≤ 64

theorem laterStep_of_schedule {allowed : Call → Prop} (h : Schedule allowed d schedule)
    {step : Tables × ℕ} (hstep : step ∈ tablesOf schedule) :
    LaterStep allowed d step := by
  obtain ⟨x, hx, rfl⟩ := List.mem_map.1 hstep
  exact ⟨x.1, h.later hx, rfl, h.size hx⟩

/-- The store of a first process. -/
def firstProcess : StoreContext := ⟨1000, .numbered 0⟩

/-- The library after a list of calls of the first process. -/
def afterCalls (d : Database) : List Call → Database
  | [] => d
  | call :: calls => afterCalls ((call.exec firstProcess).run d).2 calls

/-- What every call of a list keeps holds after the list. -/
theorem afterCalls_keeps {P : Database → Prop} {calls : List Call} (hd : P d)
    (h : ∀ call ∈ calls, ∀ d, P d → P ((call.exec firstProcess).run d).2) :
    P (afterCalls d calls) := by
  induction calls generalizing d with
  | nil => exact hd
  | cons call calls ih =>
    exact ih (h call List.mem_cons_self d hd) fun c hc => h c (List.mem_cons_of_mem call hc)

theorem reachable_afterCalls {allowed : Call → Prop} (hd : Reachable allowed d) {calls : List Call}
    (h : ∀ call ∈ calls, allowed call) :
    Reachable allowed (afterCalls d calls) :=
  afterCalls_keeps hd fun call hcall _ hd => .step firstProcess call hd (h call hcall)

/-- The library after one ingest. -/
def oneAsset : Database :=
  afterCalls Database.empty [.claimExternal (.numbered 100),
    .completeExternal (.numbered 100 (.numbered 1) (by decide))]

theorem reachable_oneAsset : Reachable (fun _ => True) oneAsset :=
  reachable_afterCalls .empty fun _ _ => trivial

/-- The library of one project. -/
def onlyProject : Database :=
  afterCalls Database.empty [.execute (.createProject (.numbered 10))]

variable {allowed : Call → Prop}

namespace PureCall

/-- A revision that passes every check when no event number is left: the
one rejection that comes after a write. -/
def Late (t : Tables) : PureCall → Prop
  | .reviseProjectSpec request => ProjectRevisionLate t request
  | .reviseWork request => WorkRevisionLate t request
  | _ => False

/-- **Every pure command is a pure step.** -/
theorem post_mutate (pure : PureCall) (context : StoreContext) (d : Database)
    (hcall : allowed (.execute pure)) :
    post (pure.mutate context)
      (PureStep allowed context pure.binding (pure.Late d) d) d := by
  cases pure with
  | createRevision request => exact post_createRevision context request d
  | createRevisionDeferred request => exact post_createRevisionDeferred context request d
  | changeAssetLifecycle request => exact post_changeAssetLifecycle context request d
  | changeAssetLifecycleDeferred request =>
    exact post_changeAssetLifecycleDeferred context request d
  | recordLocation request => exact post_recordLocation context request d
  | createProject request => exact post_createProject context request d hcall
  | reviseProjectSpec request => exact post_reviseProjectSpec context request d hcall
  | createSubject request => exact post_createSubject context request d hcall
  | createWork request => exact post_createWork context request d hcall
  | reviseWork request => exact post_reviseWork context request d hcall
  | createTake request => exact post_createTake context request d hcall
  | transitionTake request => exact post_transitionTake context request d hcall
  | reopenTake request => exact post_reopenTake context request d hcall

/-- The answer of a pure command with what it committed. -/
theorem step_of_answer {pure : PureCall} {context : StoreContext} {d : Database}
    {outcome : MutationOutcome} (h : ((pure.mutate context).run d).1 = .ok outcome) :
    PureStep (fun _ => True) context pure.binding (pure.Late d) d outcome
      ((pure.mutate context).run d).2 :=
  post_answer (pure.post_mutate context d trivial) h

end PureCall

/-- **The three kinds of calls**: pure commands, the completion of an
ingest, and the calls that only touch the ledger. -/
theorem Call.kinds (call : Call) (allowed : Call → Prop) :
    (∃ pure : PureCall, call = .execute pure) ∨ (∃ request, call = .completeExternal request) ∨
      ∀ context d, OwnedCall allowed context d ((call.exec context).run d).2 := by
  have hledger : ∀ {α : Type} {f : Tx α} {Q : α → Database → Prop} {context : StoreContext}
      {d : Database}, post f Q d → (∀ a d', Q a d' → OwnedCall allowed context d d') →
        OwnedCall allowed context d ((f.void).run d).2 :=
    fun h hQ => post_run_state (post_void (post_mono h hQ)) (.refl _ _)
  cases call with
  | execute pure => exact Or.inl ⟨pure, rfl⟩
  | completeExternal request => exact Or.inr (Or.inl ⟨request, rfl⟩)
  | claimExternal request =>
    exact Or.inr (Or.inr fun context d =>
      hledger (post_claimExternal context request d) fun _ _ h => h.call)
  | finishExternal request =>
    exact Or.inr (Or.inr fun context d =>
      hledger (post_finishExternal context request d) fun _ _ h => h.call)
  | observeMaterialization command =>
    exact Or.inr (Or.inr fun context d =>
      hledger (post_observeMaterialization context command d) fun _ d' h => by
        rw [h.same]
        exact .refl context d)
  | claimNewMaterialization transition =>
    exact Or.inr (Or.inr fun context d => post_run_state
      (post_claimNewMaterialization context transition d) (.refl context d))
  | reacquireMaterialization transition expected =>
    exact Or.inr (Or.inr fun context d => post_run_state
      (post_reacquireMaterialization context transition expected d) (.refl context d))
  | completeMaterialization transition =>
    exact Or.inr (Or.inr fun context d =>
      hledger (post_completeMaterialization context transition d) fun _ _ h => h.1)
  | finishMaterialization request =>
    exact Or.inr (Or.inr fun context d =>
      hledger (post_finishMaterialization context request d) fun _ _ h => h.call)
  | classifyStartupMutationPage request =>
    exact Or.inr (Or.inr fun context d =>
      hledger (post_classifyStartupMutationPage context request d) fun _ _ h => h)

theorem run_advances (context : StoreContext) (call : Call) (d : Database)
    (hcall : allowed call) :
    Relation.ReflTransGen (Advances allowed) d ((call.exec context).run d).2 := by
  rcases call.kinds allowed with ⟨pure, rfl⟩ | ⟨request, rfl⟩ | hledger
  · exact post_run_state (post_void (post_mono (pure.post_mutate context d hcall)
      fun _ _ h => .single h.tables)) .refl
  · exact post_run_state (post_void (post_mono
      (post_completeExternal context request d) fun _ _ h => .single h.advances)) .refl
  · exact (hledger context d).advances

/-- **What a call does**: nothing, a pure step of a new command, the
registration of a claimed ingest, or a step of the ledger alone. -/
theorem Call.run_cases (call : Call) (context : StoreContext) (d : Database) (same : P d)
    (step : ∀ (pure : PureCall) outcome row d', call = .execute pure →
      PureStep (fun _ => True) context pure.binding (pure.Late d) d outcome d' →
      d'.commands = d.commands ++ [row] →
      Answers context pure.binding d' outcome row → P d')
    (registers : ∀ request row d' result blobs locations location,
      call = .completeExternal request → Bound d request.binding context.ownerUid row →
      Registers context request row d result blobs locations location d' → P d')
    (ledger : ∀ d', OwnedCall (fun _ => True) context d d' → P d') :
    P ((call.exec context).run d).2.toTables := by
  rcases call.kinds fun _ => True with ⟨pure, rfl⟩ | ⟨request, rfl⟩ | hledger
  · rw [Call.exec, run_void]
    cases hanswer : ((pure.mutate context).run d).1 with
    | error e =>
      rw [run_error hanswer]
      exact same
    | ok outcome =>
      have hstep := PureCall.step_of_answer hanswer
      by_cases hfresh : FreshCommand d pure.binding.commandId
      · obtain ⟨row, hcommands, hrow⟩ := hstep.stored hfresh
        exact step pure outcome row _ rfl hstep hcommands hrow
      · rw [hstep.known hfresh]
        exact same
  · refine post_run_state (P := fun d' : Database => P d') (post_void
      (post_completeExternal_cases (fun _ _ => same) (fun _ => same) ?_)) same
    exact fun row d' result blobs locations location hbound _ _ hregisters =>
      registers request row d' result blobs locations location rfl hbound hregisters
  · exact ledger _ (hledger context d)

/-- **Invariants of the store.** What holds of the empty tables and is kept
by every change holds in every reachable database. -/
theorem Reachable.induct (empty : P Tables.empty)
    (step : ∀ d d' : Database, P d → Change allowed d d' →
      P d') (h : Reachable allowed d) : P d := by
  induction h with
  | empty => exact empty
  | @step d context call _ hcall ih =>
    have hsteps := run_advances context call d hcall
    generalize ((call.exec context).run d).2 = d' at hsteps
    induction hsteps with
    | refl => exact ih
    | tail _ h ih' =>
      rcases h with h | h
      · rwa [h]
      · exact step _ _ ih' h

end MengXia.Store
