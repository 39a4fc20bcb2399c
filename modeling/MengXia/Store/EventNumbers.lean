import MengXia.Store.TakeProgress
/-!
# Event numbers

Which calls take numbers from the event sequence, and in which order. Only
an applied command takes any; a selection that replaces the selected take
is the one change with two events, and the superseded take comes first.
-/

namespace MengXia.Store

open Common Txn

variable {allowed : Call → Prop}

variable {d : Database} {context : StoreContext}

/-! ## Calls that take no number -/

/-- No event was recorded and no number taken. -/
def SameNumbers (d d' : Database) : Prop :=
  d'.lastSequence = d.lastSequence ∧ d'.domainEvents = d.domainEvents

theorem SameNumbers.of_tables {d' : Database} (h : d'.toTables = d.toTables) :
    SameNumbers d d' := by
  unfold SameNumbers
  rw [h]
  exact ⟨rfl, rfl⟩

theorem LedgerCall.sameNumbers {d' : Database} (h : LedgerCall allowed context d d') :
    SameNumbers d d' := by
  unfold SameNumbers
  rw [h.tables]
  exact ⟨rfl, rfl⟩

/-- **A pure command that is not applied takes no number**, whether it
failed, replayed or was rejected. -/
theorem PureCall.sameNumbers {pure : PureCall}
    (h : ∀ result, ((pure.mutate context).run d).1 ≠ .ok (.applied result)) :
    SameNumbers d ((pure.mutate context).run d).2 := by
  cases hanswer : ((pure.mutate context).run d).1 with
  | error e => exact .of_tables (by rw [run_error hanswer])
  | ok outcome =>
    have hstep := step_of_answer hanswer
    by_cases hfresh : FreshCommand d pure.binding.commandId
    · obtain ⟨row, -, hrow⟩ := hstep.stored hfresh
      rcases hrow.answer with ⟨result, rfl, -⟩ | ⟨code, rfl, -⟩
      · exact absurd hanswer (h result)
      · rcases hstep.rejected hfresh code rfl with ⟨-, htables⟩ | ⟨-, hleft⟩
        · unfold SameNumbers
          rw [htables]
          exact ⟨rfl, rfl⟩
        · exact ⟨hleft.sequence, hleft.events⟩
    · exact .of_tables (hstep.known hfresh)

/-- The same for the completion of an ingest. -/
theorem completeExternal_sameNumbers {request : ExternalIngestCompletion}
    (h : ∀ result, ((completeExternal context request).run d).1 ≠ .ok (.applied result)) :
    SameNumbers d ((completeExternal context request).run d).2 := by
  cases hanswer : ((completeExternal context request).run d).1 with
  | error e => exact .of_tables (by rw [run_error hanswer])
  | ok outcome =>
    have hstep := post_answer
      (@post_completeExternal (fun _ => True) context request d) hanswer
    exact .of_tables (hstep.unapplied fun result hresult => h result (hresult ▸ hanswer))

/-! ## Selecting a take -/

/-- The events of the change that puts a take in place of the selected one. -/
structure ReplacementEvents (d d' : Database) (selected taken : Id .take) (e e' : EventRow) :
    Prop where
  events : d'.domainEvents = d.domainEvents ++ [e, e']
  sequence : d'.lastSequence = d.lastSequence + 2
  first : e.commitSequence = d.lastSequence + 1
  superseded : e.eventType = .takeSuperseded ∧ e.aggregateId = .uuid selected.uuid
  second : e'.commitSequence = d.lastSequence + 2
  taken : e'.eventType = .takeSelected ∧ e'.aggregateId = .uuid taken.uuid

theorem involvement_ne_alone {t : Tables} {request : TransitionTakeCommand} {selected : TakeRow}
    (hselect : request.transition = .select) (hmem : selected ∈ t.takes)
    (hstate : selected.state = .selected)
    (hplace : selected.workRevisionId = request.workRevisionId)
    (hne : selected.takeId ≠ request.takeId) : involvement t request ≠ .ok .alone := by
  unfold involvement
  rw [hselect]
  cases hother : selectedOther t request.workRevisionId request.takeId with
  | none =>
    have hnone := List.find?_eq_none.1 hother selected hmem
    simp [hstate, hplace, hne] at hnone
  | some other =>
    cases hrelated : request.relatedTake with
    | none => exact fun h => by cases h
    | some supplied =>
      obtain ⟨suppliedId, suppliedRevision⟩ := supplied
      simp only
      split
      · exact fun h => by cases h
      · cases checkedNext other.revision with
        | none => exact fun h => by cases h
        | some next => exact fun h => by cases h

/-- **Selecting a take supersedes the selected one first**: the event of
the superseded take has the number before that of the selected one. -/
theorem select_events {request : TransitionTakeCommand} {result : CommandResult}
    (hanswer : ((transitionTake context request).run d).1 = .ok (.applied result))
    (hselect : request.transition = .select) {selected : TakeRow} (hmem : selected ∈ d.takes)
    (hstate : selected.state = .selected)
    (hplace : selected.workRevisionId = request.workRevisionId)
    (hne : selected.takeId ≠ request.takeId) :
    ∃ e e', ReplacementEvents d ((transitionTake context request).run d).2 selected.takeId
      request.takeId e e' := by
  have hstep := post_answer
    (@post_transitionTake (fun call => call = .execute (.transitionTake request)) context request d
      rfl) hanswer
  have hfresh := hstep.applied result rfl
  obtain ⟨row, hcommands, hrow⟩ := hstep.stored hfresh
  have hcompleted : row.state = .completed := by
    rcases hrow.answer with ⟨_, -, h, -⟩ | ⟨_, h, -⟩
    · exact h
    · cases h
  have hoperation : row.operationId = .takeTransition :=
    hrow.operation.trans request.operation
  generalize ((transitionTake context request).run d).2 = d' at hstep hcommands ⊢
  have hchange := hstep.tables.resolve_left fun h => by
    rw [h] at hcommands
    exact absurd (congrArg List.length hcommands) (by simp)
  have hlast : ∀ row', d'.commands = d.commands ++ [row'] → row = row' := fun row' h =>
    List.singleton_inj.1 (List.append_cancel_left (hcommands.symm.trans h))
  generalize ht : d'.toTables = t' at hchange
  cases hchange with
  | claimed | rejected =>
    rw [hlast _ (by rw [ht])] at hcompleted
    cases hcompleted
  | moved | registered =>
    rw [ht] at hcommands
    exact absurd (congrArg List.length hcommands) (by simp)
  | revisionCreated _ request' | locationRecorded _ request' =>
    rw [hlast _ (by rw [ht])] at hoperation
    exact absurd (request'.operation.symm.trans hoperation) (by decide)
  | lifecycleChanged _ request' =>
    rw [hlast _ (by rw [ht])] at hoperation
    have hop := request'.operation.symm.trans hoperation
    cases htarget : request'.target <;> rw [htarget] at hop <;> cases hop
  | projectCreated _ _ _ _ _ _ call | projectRevised _ _ _ _ _ _ call
  | projectRevisionLeft _ _ _ _ _ call | subjectCreated _ _ _ _ _ call
  | workCreated _ _ _ _ _ _ _ call | workRevised _ _ _ _ _ _ _ call
  | workRevisionLeft _ _ _ _ _ _ call | takeCreated _ _ _ _ _ _ call
  | takeReopened _ _ _ _ _ _ _ _ _ call => cases call
  | takeMoved _ request' _ _ _ _ call _ _ _ _ alone =>
    cases call
    exact absurd alone (involvement_ne_alone hselect hmem hstate hplace hne)
  | takeSuperseded _ request' _ _ _ _ call _ _ _ supersedes =>
    cases call
    rw [hselect] at supersedes
    cases supersedes
  | takeReplaced _ request' take other draw payload payload' call _ _ _ _ _ _ hother hotherState
      hotherPlace =>
    cases call
    have hsame : other = selected := by
      refine d.consistent.takeOneSelected.eq_of_mem (List.mem_filter.2 ⟨hother, ?_⟩)
        (List.mem_filter.2 ⟨hmem, ?_⟩) (hotherPlace.trans hplace.symm)
      · simpa using hotherState
      · simpa using hstate
    subst hsame
    exact ⟨_, _, by rw [ht], by rw [ht], rfl, ⟨rfl, rfl⟩, rfl, ⟨rfl, rfl⟩⟩

/-! ## The event sequence -/

/-- **Events are numbered 1 to the allocator, in commit order.** Only an
applied command takes numbers: what fails, replays or is rejected takes
none. A selection that supersedes the selected take records two events with
consecutive numbers, that of the superseded take first. -/
theorem event_numbers {d : Database} (h : Reachable allowed d) :
    d.domainEvents.map EventRow.commitSequence = (List.range d.lastSequence).map (· + 1) ∧
      (∀ (context : StoreContext) (pure : PureCall),
        (∀ result, ((pure.mutate context).run d).1 ≠ .ok (.applied result)) →
          SameNumbers d ((pure.mutate context).run d).2) ∧
      (∀ (context : StoreContext) (request : ExternalIngestCompletion),
        (∀ result, ((completeExternal context request).run d).1 ≠ .ok (.applied result)) →
          SameNumbers d ((completeExternal context request).run d).2) ∧
      (∀ (context : StoreContext) (call : Call), (∀ pure : PureCall, call ≠ .execute pure) →
        (∀ request, call ≠ .completeExternal request) →
          SameNumbers d ((call.exec context).run d).2) ∧
      ∀ (context : StoreContext) (request : TransitionTakeCommand) (result : CommandResult)
        (selected : TakeRow),
        ((transitionTake context request).run d).1 = .ok (.applied result) →
        request.transition = .select → selected ∈ d.takes → selected.state = .selected →
        selected.workRevisionId = request.workRevisionId → selected.takeId ≠ request.takeId →
          ∃ e e', ReplacementEvents d ((transitionTake context request).run d).2 selected.takeId
            request.takeId e e' := by
  refine ⟨h.eventsNumbered, fun _ _ => PureCall.sameNumbers,
    fun _ _ => completeExternal_sameNumbers, fun context call hpure hcomplete => ?_,
    fun _ _ _ _ hanswer hselect hmem hstate hplace hne =>
      select_events hanswer hselect hmem hstate hplace hne⟩
  rcases call.kinds fun _ => True with ⟨pure, hcall⟩ | ⟨request, hcall⟩ | hledger
  · exact absurd hcall (hpure pure)
  · exact absurd hcall (hcomplete request)
  · exact (hledger context d).sameNumbers

theorem transitionShape_select (related : Option (Id .take × RevisionNo)) :
    transitionShape .select false related.isSome = true := by
  cases related <;> rfl

/-- Command `n`: a candidate of `threeTakes` is selected. -/
def selectOfThree (n : ℕ) (takeId : Id .take) (related : Option (Id .take × RevisionNo)) :
    TransitionTakeCommand where
  binding := .numbered .takeTransition n
  projectId := .numbered 301
  workItemId := .numbered 311
  workRevisionId := .numbered 312
  takeId := takeId
  expectedRevision := 1
  transition := .select
  reason := none
  relatedTake := related
  values := .numbered (n + 1)
  operation := CommandBinding.numbered_operationId .takeTransition n
  shape := transitionShape_select related

/-- The library after its first take was selected. -/
def oneSelected : Database :=
  afterCalls threeTakes [.execute (.transitionTake (selectOfThree 350 (.numbered 321) none))]

/-- Selecting the second take supersedes the first one, before it. -/
theorem second_selection_events : ∃ e e', ReplacementEvents oneSelected
    ((transitionTake firstProcess (selectOfThree 360 (.numbered 331)
      (some (.numbered 321, 2)))).run oneSelected).2 (.numbered 321) (.numbered 331) e e' := by
  have hreachable : Reachable (fun _ => True) oneSelected :=
    reachable_afterCalls reachable_threeTakes fun _ _ => trivial
  obtain ⟨selected, hmem, hid, hstate, hplace⟩ : ∃ x ∈ oneSelected.takes,
      x.takeId = .numbered 321 ∧ x.state = .selected ∧ x.workRevisionId = .numbered 312 := by
    decide +kernel
  obtain ⟨result, hanswer⟩ : ∃ result, ((transitionTake firstProcess (selectOfThree 360
      (.numbered 331) (some (.numbered 321, 2)))).run oneSelected).1 = .ok (.applied result) :=
    ⟨.versioned (.numbered 331) (.take 2 2 .selected (.numbered 101) (some (.numbered 321)))
      .epoch, by decide +kernel⟩
  have hevents := (event_numbers hreachable).2.2.2.2 firstProcess _ result selected hanswer rfl
    hmem hstate hplace (by rw [hid]; decide)
  rwa [hid] at hevents

end MengXia.Store
