import MengXia.Store.History
/-!
# The history of specifications and work revisions

A project counts its specification rows and a work item its revision rows;
both point to the last one. As long as event numbers are left, counter,
pointer and rows agree, and a revision against another counter value is
refused before it writes anything.
-/

namespace MengXia.Store

open Common Txn

variable {allowed : Call → Prop} {d : Database}

/-! ## Runs that leave event numbers -/

/-- The databases that calls lead to which each found an event number left. -/
inductive Unexhausted : Database → Prop where
  | empty : Unexhausted Database.empty
  | step {d : Database} (context : StoreContext) (call : Call) (before : Unexhausted d)
      (left : SequencesLeft d 1) : Unexhausted ((call.exec context).run d).2

/-- The calls that add a revision to a project or a work item. -/
def Call.Revises : Call → Prop
  | .execute (.reviseProjectSpec _) => True
  | .execute (.reviseWork _) => True
  | _ => False

/-- The databases that admitted calls lead to, where every call that adds a
revision to a project or a work item finds an event number left. -/
inductive Supplied (allowed : Call → Prop) : Database → Prop where
  | empty : Supplied allowed Database.empty
  | step {d : Database} (context : StoreContext) (call : Call) (before : Supplied allowed d)
      (admitted : allowed call) (left : call.Revises → SequencesLeft d 1) :
      Supplied allowed ((call.exec context).run d).2

theorem Supplied.reachable (h : Supplied allowed d) : Reachable allowed d := by
  induction h with
  | empty => exact .empty
  | step context call _ admitted _ ih => exact .step context call ih admitted

theorem Unexhausted.supplied (h : Unexhausted d) : Supplied (fun _ => True) d := by
  induction h with
  | empty => exact .empty
  | step context call _ left ih => exact .step context call ih trivial fun _ => left

/-- **A call is one change at most**, or it only touches the ledger. -/
theorem Call.advances (call : Call) (context : StoreContext)
    (d : Database) (hcall : allowed call) :
    Advances allowed d ((call.exec context).run d).2 ∨
      ((call.exec context).run d).2.toTables =
        { d.toTables with commands := ((call.exec context).run d).2.commands } := by
  rcases call.kinds fun _ => True with ⟨pure, rfl⟩ | ⟨request, rfl⟩ | hledger
  · exact Or.inl (post_run_state (post_void (post_mono
      (@PureCall.post_mutate allowed pure context d hcall) fun _ _ h => h.tables))
      (Or.inl rfl))
  · exact Or.inl (post_run_state (post_void (post_mono
      (@post_completeExternal allowed context request d)
      fun _ _ h => h.advances)) (Or.inl rfl))
  · exact Or.inr (hledger context d).tables

/-! ## Counters, pointers and rows -/

/-- Projects and work items agree with their rows. -/
structure RevisionsNumbered (t : Tables) : Prop where
  projects : projectVersions.Numbered t.projects t.specRevisions
  works : workVersions.Numbered t.workItems t.workRevisions

theorem RevisionsNumbered.change {d' : Database}
    (h : RevisionsNumbered d) (hkeys : DeferredKeys d)
    (hleft : ∀ call, allowed call → call.Revises → SequencesLeft d 1)
    (hchange : Change allowed d d') :
    RevisionsNumbered d' := by
  have hprojects := d'.consistent.projectKeys
  have hworks := d'.consistent.workKeys
  generalize ht : d'.toTables = t' at hchange
  rw [ht] at hprojects hworks
  cases hchange with
  | claimed | moved | rejected | registered | revisionCreated | lifecycleChanged
  | locationRecorded | subjectCreated | takeCreated | takeMoved | takeReplaced | takeSuperseded
  | takeReopened => exact ⟨h.projects, h.works⟩
  | projectRevisionLeft _ _ _ _ _ call _ _ _ _ exhausted
  | workRevisionLeft _ _ _ _ _ _ call _ _ _ _ _ _ exhausted =>
    exact absurd (hleft _ call trivial) exhausted
  | projectCreated =>
    have hfresh := (distinct_append_singleton.1 hprojects).2
    exact ⟨h.projects.create rfl rfl rfl rfl hfresh fun r hr =>
      hkeys.specProjects.ne_of_fresh hfresh hr, h.works⟩
  | workCreated =>
    have hfresh := (distinct_append_singleton.1 hworks).2
    exact ⟨h.projects, h.works.create rfl rfl rfl rfl hfresh fun r hr =>
      hkeys.workRevisionItems.ne_of_fresh hfresh hr⟩
  | projectRevised context request project specId eventId at_ call fresh mem id =>
    refine ⟨h.projects.revise (r := specRevisionRow specId request.projectId (project.revision + 1)
      request.binding.commandId at_ request.specification) (fun _ => rfl) fun y hy hyid => ?_,
      h.works⟩
    obtain rfl := d.consistent.projectKeys.eq_of_mem hy mem (hyid.trans id.symm)
    exact ⟨rfl, rfl, rfl⟩
  | workRevised context request work revisionId eventId relationshipIds at_ call fresh mem id =>
    refine ⟨h.projects, h.works.revise (r := workRevisionRow revisionId request.workItemId
      (work.revision + 1) request.binding at_ request.specification) (fun _ => rfl)
      fun y hy hyid => ?_⟩
    obtain rfl := d.consistent.workKeys.eq_of_mem hy mem (hyid.trans id.symm)
    exact ⟨rfl, rfl, rfl⟩

theorem Supplied.revisionsNumbered (h : Supplied allowed d) :
    RevisionsNumbered d := by
  induction h with
  | empty =>
    refine ⟨⟨?_, ?_⟩, ⟨?_, ?_⟩⟩
    all_goals exact fun x hx => by cases hx
  | @step d context call before admitted left ih =>
    rcases @Call.advances (fun c => c = call) call context d rfl with (hsame | hchange) | htables
    · rw [hsame]
      exact ih
    · refine ih.change before.reachable.deferredKeys (fun c hc => ?_) hchange
      rw [hc]
      exact left
    · rw [htables]
      exact ⟨ih.projects, ih.works⟩

theorem Unexhausted.revisionsNumbered (h : Unexhausted d) : RevisionsNumbered d :=
  h.supplied.revisionsNumbered

/-! ## Stale revisions -/

/-- The tables are as before, but for the row of one command. -/
def AtMostItsRow (d d' : Database) (binding : CommandBinding) : Prop :=
  d'.toTables = d.toTables ∨ OnlyItsRow d d' binding

/-- A rejection right after the claim leaves the row alone. -/
theorem post_rejectClaim {d1 : Database} {context : StoreContext} {binding : CommandBinding}
    {code : ErrorCode} {at_ : Timestamp} (hfresh : FreshCommand d binding.commandId)
    (h1 : d1.toTables = { d.toTables with
      commands := d.commands ++ [claimRow context binding at_] }) :
    post (commitRejection binding code at_) (fun _ d' => OnlyItsRow d d' binding) d1 :=
  wp_commitRejection (by rw [h1]) hfresh (Or.inr trivial) fun _ hd' => ⟨_, rfl, by rw [hd', h1]⟩

/-- A command that leaves at most its row when it is new does so always. -/
theorem atMostItsRow_unlessKnown {context : StoreContext} {binding : CommandBinding}
    {kind : ResultKind} {execute : Tx MutationOutcome}
    (hnew : FreshCommand d binding.commandId →
      post execute (fun _ d' => OnlyItsRow d d' binding) d) :
    AtMostItsRow d ((unlessKnown context binding kind execute).run d).2 binding := by
  refine post_run_state (P := fun d' => AtMostItsRow d d' binding) ?_ (Or.inl rfl)
  unfold unlessKnown
  simp only [post_bind, post_read, post_lift]
  intro known hknown
  cases known with
  | some outcome => exact Or.inl rfl
  | none => exact post_mono (hnew (replayExisting_eq_none hknown)) fun _ _ h => Or.inr h

/-- **A stale revision of a project** leaves at most its own row. -/
theorem stale_project_revision (context : StoreContext) {request : ReviseProjectSpecCommand}
    {project : ProjectRow} (hmem : project ∈ d.projects)
    (hid : project.projectId = request.projectId)
    (hstale : project.revision ≠ request.expectedRevision) :
    AtMostItsRow d ((reviseProjectSpec context request).run d).2 request.binding := by
  refine atMostItsRow_unlessKnown fun hfresh => ?_
  unfold reviseProjectSpecNew
  rw [post_bind, post_lift]
  rintro ⟨specId, eventId, at_⟩ -
  simp only [post_bind]
  refine wp_insertClaim hfresh fun d1 h1 => ?_
  have hfind : d1.projects.find? (fun p => p.projectId = request.projectId) = some project := by
    rw [h1, ← hid]
    exact d.consistent.projectKeys.find?_eq hmem
  rw [post_read, hfind]
  simp only [nextRevision, hstale, ne_eq, not_false_eq_true, if_true]
  exact post_rejectClaim hfresh h1

/-- **A stale revision of a work item** leaves at most its own row. -/
theorem stale_work_revision (context : StoreContext) {request : ReviseWorkCommand}
    {work : WorkItemRow} (hmem : work ∈ d.workItems) (hid : work.workItemId = request.workItemId)
    (hstale : work.revision ≠ request.expectedRevision) :
    AtMostItsRow d ((reviseWork context request).run d).2 request.binding := by
  refine atMostItsRow_unlessKnown fun hfresh => ?_
  unfold reviseWorkNew
  rw [post_bind, post_lift]
  rintro ⟨revisionId, eventId, relationshipIds, at_⟩ -
  simp only [post_bind]
  refine wp_insertClaim hfresh fun d1 h1 => ?_
  rw [post_read]
  split
  · exact post_rejectClaim hfresh h1
  · rename_i w next hchecks
    obtain ⟨hfind, hexpected, -⟩ := nextRevision_eq_ok.1 hchecks
    have hw := List.mem_of_find?_eq_some hfind
    rw [h1] at hw
    have hwid := List.find?_some hfind
    rw [Bool.and_eq_true, decide_eq_true_eq] at hwid
    rw [d.consistent.workKeys.eq_of_mem hw hmem (hwid.1.trans hid.symm)] at hexpected
    exact absurd hexpected hstale

/-! ## Specifications and work revisions in order -/

/-- **Counters, pointers and rows agree.** In every library reached with
event numbers left, a project's revision is the number of its specification
rows and the sequence of the one it points to, and the sequences are 1 to
n; the same holds of work items. No such row is changed or removed by later
calls, and a stale revision leaves at most its own row. -/
theorem revisions_in_order {d : Database} (h : Unexhausted d) :
    (∀ p ∈ d.projects,
      (d.specRevisions.filter fun s => s.projectId = p.projectId).length = p.revision ∧
      (d.specRevisions.filter fun s => s.projectId = p.projectId).map SpecRevisionRow.sequence =
        (List.range p.revision).map (· + 1) ∧
      ∃ s ∈ d.specRevisions, s.projectId = p.projectId ∧
        s.projectSpecRevisionId = p.currentSpecRevisionId ∧ s.sequence = p.revision) ∧
    (∀ w ∈ d.workItems,
      (d.workRevisions.filter fun x => x.workItemId = w.workItemId).length = w.revision ∧
      (d.workRevisions.filter fun x => x.workItemId = w.workItemId).map WorkRevisionRow.sequence =
        (List.range w.revision).map (· + 1) ∧
      ∃ x ∈ d.workRevisions, x.workItemId = w.workItemId ∧
        x.workRevisionId = w.currentWorkRevisionId ∧ x.sequence = w.revision) ∧
    (∀ d', Later (fun _ => True) d d' → (∀ s ∈ d.specRevisions, s ∈ d'.specRevisions) ∧
      ∀ x ∈ d.workRevisions, x ∈ d'.workRevisions) ∧
    (∀ (context : StoreContext) (request : ReviseProjectSpecCommand), ∀ p ∈ d.projects,
      p.projectId = request.projectId → p.revision ≠ request.expectedRevision →
        AtMostItsRow d ((reviseProjectSpec context request).run d).2 request.binding) ∧
    ∀ (context : StoreContext) (request : ReviseWorkCommand), ∀ w ∈ d.workItems,
      w.workItemId = request.workItemId → w.revision ≠ request.expectedRevision →
        AtMostItsRow d ((reviseWork context request).run d).2 request.binding := by
  have hnumbered := h.revisionsNumbered
  refine ⟨fun p hp => ⟨hnumbered.projects.length_eq hp, hnumbered.projects.sequences p hp,
    hnumbered.projects.current p hp⟩, fun w hw => ⟨hnumbered.works.length_eq hw,
    hnumbered.works.sequences w hw, hnumbered.works.current w hw⟩, fun d' hlater => ?_,
    fun context request p hp hid hstale => stale_project_revision context hp hid hstale,
    fun context request w hw hid hstale => stale_work_revision context hw hid hstale⟩
  exact ⟨fun s hs => hlater.grows.specRevisions.subset hs,
    fun x hx => hlater.grows.workRevisions.subset hx⟩

/-- The project of `onlyProject` has one specification, and a revision of it
against counter 2 leaves at most its own row. -/
theorem onlyProject_in_order : ∃ p ∈ onlyProject.projects,
    (onlyProject.specRevisions.filter fun s => s.projectId = p.projectId).length = p.revision ∧
    AtMostItsRow onlyProject ((reviseProjectSpec firstProcess
      (.numbered 20 (.numbered 11) 2)).run onlyProject).2 (.numbered .projectSpecRevise 20) := by
  have hreached : Unexhausted onlyProject := .step firstProcess _ .empty (by decide)
  obtain ⟨p, hp, hid, hrevision⟩ : ∃ p ∈ onlyProject.projects,
      p.projectId = .numbered 11 ∧ p.revision = 1 := by
    decide +kernel
  have horder := revisions_in_order hreached
  exact ⟨p, hp, (horder.1 p hp).1, horder.2.2.2.1 firstProcess _ p hp hid
    (by rw [hrevision]; decide)⟩

end MengXia.Store
