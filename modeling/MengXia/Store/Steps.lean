import MengXia.Store.Change
/-!
# Every call is a change

The step lemmas of the store: whatever a transaction returns, the tables
it commits are the ones before it or one `Change` away. For the pure
commands the outcome is described as well: a rejection carries one of four
codes (`PureOutcome`), and a result is what the stored row replays
(`Answers`).
-/

namespace MengXia.Store

open Common Txn

variable {allowed : Call → Prop}

variable {d d1 : Database} {context : StoreContext} {binding : CommandBinding} {at_ : Timestamp}
  {request : TransitionTakeCommand} {kind : ResultKind} {take : TakeRow} {r : CommandRow}
  {Q : Unit → Database → Prop} {revision : RevisionNo}

/-! ## Outcomes of pure commands -/

/-- What a pure command returns and commits. -/
structure PureOutcome (allowed : Call → Prop) (d : Database) (outcome : MutationOutcome)
    (d' : Database) : Prop where
  tables : d'.toTables = d.toTables ∨ Change allowed d d'
  code : ∀ code, outcome = .terminalRejected code → isPureRejectionCode code = true

/-- The row of a new pure command, with its binding and its answer. -/
structure Answers (context : StoreContext) (binding : CommandBinding) (t : Tables)
    (outcome : MutationOutcome) (row : CommandRow) : Prop where
  id : row.commandId = binding.commandId
  operation : row.operationId = binding.operationId
  digest : row.canonicalRequestDigest = binding.canonicalRequestDigest
  owner : row.principalUid = context.ownerUid
  answer : (∃ result, outcome = .applied result ∧ row.state = .completed ∧
      replayResult t row = .ok result) ∨
    ∃ code, outcome = .terminalRejected code ∧ row.state = .terminalRejected ∧
      row.safeErrorCode = some code

/-- Rows of a revision that stay although it was rejected. -/
structure LeftRows (t t' : Tables) : Prop where
  sequence : t'.lastSequence = t.lastSequence
  events : t'.domainEvents = t.domainEvents
  rows : t.specRevisions.length < t'.specRevisions.length ∨
    t.workRevisions.length < t'.workRevisions.length

/-- What a pure command does besides: a known command id changes nothing, a
new one stores one row, and a rejection stores nothing else, unless it is a
`late` one. -/
structure PureStep (allowed : Call → Prop) (context : StoreContext) (binding : CommandBinding)
    (late : Prop) (d : Database) (outcome : MutationOutcome) (d' : Database) : Prop
    extends PureOutcome allowed d outcome d' where
  known : ¬ FreshCommand d binding.commandId → d'.toTables = d.toTables
  stored : FreshCommand d binding.commandId → ∃ row,
    d'.commands = d.commands ++ [row] ∧ Answers context binding d' outcome row
  rejected : FreshCommand d binding.commandId → ∀ code,
    outcome = .terminalRejected code →
      ¬ late ∧ d'.toTables = { d.toTables with commands := d'.commands } ∨
        late ∧ LeftRows d d'
  applied : ∀ result, outcome = .applied result → FreshCommand d binding.commandId

theorem isTerminalCodeOf_pure {operation : Operation} (h : isExternal operation = false)
    (code : ErrorCode) : isTerminalCodeOf operation code = isPureRejectionCode code := by
  cases operation <;> first | rfl | cases h

theorem parseSafeCode_eq_ok {code : ErrorCode} :
    parseSafeCode r = .ok code ↔ r.safeErrorCode = some code :=
  okOr_eq_ok

theorem replayPure_eq_rejected {t : Tables} {code : ErrorCode} :
    replayPure t r kind = .ok (.terminalRejected code) ↔
      r.state = .terminalRejected ∧ r.safeErrorCode = some code := by
  constructor
  · intro h
    unfold replayPure at h
    split at h
    · obtain ⟨-, h⟩ := requirement_eq_ok.1 h
      obtain ⟨_, -, h⟩ := exceptBind_eq_ok.1 h
      cases h
    · obtain ⟨_, hcode, h⟩ := exceptBind_eq_ok.1 h
      cases h
      exact ⟨‹_›, parseSafeCode_eq_ok.1 hcode⟩
    all_goals cases h
  · rintro ⟨hstate, hcode⟩
    simp only [replayPure, hstate, parseSafeCode_eq_ok.2 hcode]
    rfl

/-- **A replay changes nothing and rejects as the stored row says.** -/
theorem replayExisting_outcome {outcome : MutationOutcome}
    (hpure : isExternal binding.operationId = false)
    (h : replayExisting d context binding kind = .ok (some outcome)) :
    PureOutcome allowed d outcome d := by
  obtain ⟨row, hbound, hmatrix, h⟩ := replayExisting_eq_some h
  refine ⟨Or.inl rfl, fun code hcode => ?_⟩
  obtain ⟨hstate, hsafe⟩ := replayPure_eq_rejected.1 (hcode ▸ h)
  rw [← isTerminalCodeOf_pure hpure, ← hbound.operation]
  simpa [knownCommandMatrix, hstate, hsafe] using hmatrix

/-- A stored command is never applied again. -/
theorem replayExisting_ne_applied {t : Tables} (result : CommandResult) :
    replayExisting t context binding kind ≠ .ok (some (.applied result)) := by
  intro h
  obtain ⟨row, -, -, h⟩ := replayExisting_eq_some h
  unfold replayPure at h
  split at h
  · obtain ⟨-, h⟩ := requirement_eq_ok.1 h
    obtain ⟨_, -, h⟩ := exceptBind_eq_ok.1 h
    cases h
  · obtain ⟨_, -, h⟩ := exceptBind_eq_ok.1 h
    cases h
  all_goals cases h

/-- The opening of a pure command. -/
theorem post_unlessKnown {execute : Tx MutationOutcome} {late : Prop}
    (hpure : isExternal binding.operationId = false)
    (hnew : FreshCommand d binding.commandId →
      post execute (PureStep allowed context binding late d) d) :
    post (unlessKnown context binding kind execute)
      (PureStep allowed context binding late d) d := by
  unfold unlessKnown
  simp only [post_bind, post_read, post_lift]
  intro known hknown
  cases known with
  | some outcome =>
    have hstored : ¬ FreshCommand d binding.commandId := by
      intro hfresh
      rw [replayExisting_of_fresh hfresh] at hknown
      cases hknown
    exact ⟨replayExisting_outcome hpure hknown, fun _ => rfl, fun h => absurd h hstored,
      fun h => absurd h hstored, fun result h => absurd (h ▸ hknown) (replayExisting_ne_applied _)⟩
  | none => exact hnew (replayExisting_eq_none hknown)

/-- The row of a rejection answers with its code. -/
theorem Answers.rejection (t : Tables) (code : ErrorCode) (at_ : Timestamp) :
    Answers context binding t (.terminalRejected code)
      ((claimRow context binding at_).reject code at_) :=
  ⟨rfl, rfl, rfl, rfl, Or.inr ⟨code, rfl, rfl, rfl⟩⟩

/-- A rejection after the claim, when nothing else was written. -/
theorem post_rejectEarly {code : ErrorCode} {late : Prop}
    (hpure : isExternal binding.operationId = false)
    (hfresh : FreshCommand d binding.commandId)
    (h1 : d1.toTables = { d.toTables with
      commands := d.commands ++ [claimRow context binding at_] })
    (hcode : isPureRejectionCode code = true) (hlate : ¬ late) :
    post (commitRejection binding code at_) (PureStep allowed context binding late d) d1 := by
  refine wp_commitRejection (by rw [h1]) hfresh (Or.inr trivial) fun d' hd' => ?_
  have hcommands : d'.commands = d.commands ++ [(claimRow context binding at_).reject code at_] :=
    by rw [hd']
  refine ⟨⟨Or.inr ?_, fun _ h => ?_⟩,
    fun h => absurd hfresh h, fun _ => ⟨_, hcommands, .rejection _ code at_⟩,
    fun _ _ _ => Or.inl ⟨hlate, ?_⟩, fun _ _ => hfresh⟩
  · rw [hd', h1]
    exact Change.rejected context binding code at_ hfresh hpure hcode
  · cases h
    exact hcode
  · rw [hcommands, hd', h1]

/-- The same for a command that is never rejected late. -/
theorem post_reject {code : ErrorCode} (hpure : isExternal binding.operationId = false)
    (hfresh : FreshCommand d binding.commandId)
    (h1 : d1.toTables = { d.toTables with
      commands := d.commands ++ [claimRow context binding at_] })
    (hcode : isPureRejectionCode code = true) :
    post (commitRejection binding code at_) (PureStep allowed context binding False d) d1 :=
  post_rejectEarly hpure hfresh h1 hcode fun h => h

/-- A completed claim is a result that its row replays. -/
theorem PureStep.completed {d' : Database} {id : Uuid} {location : Option (Id .location)}
    {payload : Option VersionedResultPayload} {result : CommandResult} {late : Prop}
    (hfresh : FreshCommand d binding.commandId)
    (hchange : Change allowed d d')
    (hcommands : d'.commands =
      d.commands ++ [(claimRow context binding at_).complete kind id location payload at_])
    (hreplay : replayResult d'
      ((claimRow context binding at_).complete kind id location payload at_) = .ok result) :
    PureStep allowed context binding late d (.applied result) d' := by
  exact ⟨⟨Or.inr hchange, fun _ h => (by cases h)⟩, fun h => absurd hfresh h,
    fun _ => ⟨_, hcommands, rfl, rfl, rfl, rfl, Or.inl ⟨result, rfl, rfl, hreplay⟩⟩,
    fun _ _ h => (by cases h), fun _ _ => hfresh⟩

/-! ## Creative commands -/

theorem isExternal_of_isCreative {operation : Operation} (h : isCreative operation = true) :
    isExternal operation = false := by
  cases operation <;> first | rfl | cases h

/-- The opening of a creative command. -/
theorem post_unlessKnownCreative {execute : Tx MutationOutcome} {late : Prop}
    {operation : Operation} (hoperation : binding.operationId = operation)
    (hcreative : isCreative operation = true)
    (hnew : isCreative binding.operationId = true → isExternal binding.operationId = false →
      FreshCommand d binding.commandId →
      post execute (PureStep allowed context binding late d) d) :
    post (unlessKnown context binding kind execute)
      (PureStep allowed context binding late d) d := by
  subst hoperation
  have hpure := isExternal_of_isCreative hcreative
  exact post_unlessKnown hpure (hnew hcreative hpure)

theorem replayResult_of_isCreative {t : Tables} (h : isCreative r.operationId = true) :
    replayResult t r = replayCreativeResult t r := by
  unfold replayResult
  rw [if_pos h]

/-- The end of a creative command, from the change it has made. -/
theorem post_completeVersioned {id : Uuid} {payload : VersionedResultPayload} {late : Prop}
    (hcreative : isCreative binding.operationId = true)
    (hfresh : FreshCommand d binding.commandId)
    (h1 : d1.commands = d.commands ++ [claimRow context binding at_])
    (hchange : Change allowed d { d1.toTables with
      commands := d.commands ++ [(claimRow context binding at_).complete payload.resultKind id
        none (some payload) at_] }) :
    post (completeVersioned binding id payload at_)
      (PureStep allowed context binding late d) d1 := by
  refine post_completeClaim h1 hfresh fun d' result hd' _ hres => ?_
  rw [← replayResult_of_isCreative hcreative] at hres
  exact PureStep.completed hfresh (by rw [hd']; exact hchange) (by rw [hd']) hres

theorem post_createTake (context : StoreContext) (request : CreateTakeCommand) (d : Database)
    (hcall : allowed (.execute (.createTake request))) :
    post (createTake context request) (PureStep allowed context request.binding False d) d := by
  refine post_unlessKnownCreative request.operation rfl fun hop hpure hfresh => ?_
  unfold createTakeNew
  rw [post_bind, post_lift]
  rintro ⟨takeId, eventId, at_⟩ -
  simp only [post_bind]
  refine wp_insertClaim hfresh fun d1 h1 => ?_
  rw [post_read, post_ite]
  refine ⟨fun _ => post_reject hpure hfresh h1 rfl, fun hplace => ?_⟩
  cases hnext : nextTakeOrdinal d1 request.workRevisionId with
  | none => exact post_reject hpure hfresh h1 rfl
  | some ordinal =>
    rw [post_bind]
    refine wp_allocateEventSequences (by decide) (fun d2 _ h2 => ?_)
      fun _ => post_reject hpure hfresh h1 rfl
    simp only [post_bind, insertDomainEvent, insertEvent, insertTakeRow]
    refine post_write fun d3 h3 _ => ?_
    refine post_write fun d4 h4 _ => ?_
    refine post_completeVersioned hop hfresh (by rw [h4, h3, h2, h1]) ?_
    have hplace' : takeContextExists d request.projectId request.workItemId
        request.workRevisionId = true := by
      rw [h1] at hplace
      simp only [Bool.or_eq_true, Bool.not_eq_true', not_or, Bool.not_eq_false] at hplace
      exact hplace.1
    have hnext' : nextTakeOrdinal d request.workRevisionId = some ordinal := by
      rw [h1] at hnext
      exact hnext
    have := Change.takeCreated context request takeId eventId at_ ordinal hcall hfresh hplace'
      hnext'
    simpa only [h4, h3, h2, h1, VersionedResultPayload.resultKind] using this

theorem post_createProject (context : StoreContext) (request : CreateProjectCommand)
    (d : Database)
    (hcall : allowed (.execute (.createProject request))) :
    post (createProject context request) (PureStep allowed context request.binding False d) d := by
  refine post_unlessKnownCreative request.operation rfl fun hop hpure hfresh => ?_
  rw [post_bind, post_lift]
  rintro ⟨projectId, specId, eventId, at_⟩ -
  simp only [post_bind]
  refine wp_insertClaim hfresh fun d1 h1 => ?_
  refine wp_allocateEventSequences (by decide) (fun d2 _ h2 => ?_)
    fun _ => post_reject hpure hfresh h1 rfl
  simp only [post_bind, insertDomainEvent, insertEvent, insertProject, insertSpecRevision]
  refine post_write fun d3 h3 _ => ?_
  refine post_write fun d4 h4 _ => ?_
  refine post_write fun d5 h5 _ => ?_
  refine post_completeVersioned hop hfresh (by rw [h5, h4, h3, h2, h1]) ?_
  have := Change.projectCreated context request projectId specId eventId at_ hcall hfresh
  simpa only [h5, h4, h3, h2, h1, VersionedResultPayload.resultKind] using this

theorem post_createSubject (context : StoreContext) (request : CreateSubjectCommand)
    (d : Database)
    (hcall : allowed (.execute (.createSubject request))) :
    post (createSubject context request) (PureStep allowed context request.binding False d) d := by
  refine post_unlessKnownCreative request.operation rfl fun hop hpure hfresh => ?_
  rw [post_bind, post_lift]
  rintro ⟨subjectId, eventId, at_⟩ -
  simp only [post_bind]
  refine wp_insertClaim hfresh fun d1 h1 => ?_
  refine wp_allocateEventSequences (by decide) (fun d2 _ h2 => ?_)
    fun _ => post_reject hpure hfresh h1 rfl
  simp only [post_bind, insertDomainEvent, insertEvent, insertSubject]
  refine post_write fun d3 h3 _ => ?_
  refine post_write fun d4 h4 _ => ?_
  refine post_completeVersioned hop hfresh (by rw [h4, h3, h2, h1]) ?_
  have := Change.subjectCreated context request subjectId eventId at_ hcall hfresh
  simpa only [h4, h3, h2, h1, VersionedResultPayload.resultKind] using this

/-- A rejection of a command that had already written more than its claim. -/
theorem post_rejectLate {code : ErrorCode} {late : Prop}
    (hfresh : FreshCommand d binding.commandId)
    (h1 : d1.commands = d.commands ++ [claimRow context binding at_])
    (hcode : isPureRejectionCode code = true) (hlate : late)
    (hleft : LeftRows d d1)
    (hchange : Change allowed d { d1.toTables with
      commands := d.commands ++ [(claimRow context binding at_).reject code at_] }) :
    post (commitRejection binding code at_) (PureStep allowed context binding late d) d1 := by
  refine wp_commitRejection h1 hfresh (Or.inr trivial) fun d' hd' => ?_
  refine ⟨⟨Or.inr ?_, fun _ h => ?_⟩,
    fun h => absurd hfresh h, fun _ => ⟨_, by rw [hd'], .rejection _ code at_⟩,
    fun _ _ _ => Or.inr ⟨hlate, ?_⟩, fun _ _ => hfresh⟩
  · rw [hd']
    exact hchange
  · cases h
    exact hcode
  · rw [hd']
    exact ⟨hleft.sequence, hleft.events, hleft.rows⟩

/-- A revision of a project that passes every check, when no event number
is left. -/
def ProjectRevisionLate (t : Tables) (request : ReviseProjectSpecCommand) : Prop :=
  ¬ SequencesLeft t 1 ∧ ∃ p ∈ t.projects, p.projectId = request.projectId ∧
    p.revision = request.expectedRevision ∧ p.revision + 1 < 2 ^ 32

section NextRevision

variable {α : Type} {item : Option α} {revision : α → RevisionNo} {expected : RevisionNo}
  {references : Bool}

theorem nextRevision_eq_ok {x : α} {next : RevisionNo} :
    nextRevision item revision expected references = .ok (x, next) ↔
      item = some x ∧ revision x = expected ∧ references = true ∧ revision x + 1 < 2 ^ 32 ∧
        next = revision x + 1 := by
  cases item with
  | none => simp [nextRevision]
  | some y =>
    cases hnext : checkedNext (revision y) with
    | none =>
      have hfull := checkedNext_eq_none.1 hnext
      simp only [nextRevision, hnext, refusal_eq_ok, reduceCtorEq, and_false, false_iff]
      rintro ⟨hsome, -, -, hroom, -⟩
      cases hsome
      exact absurd (hroom.trans (by decide)) (Nat.not_lt.2 hfull)
    | some n =>
      obtain ⟨-, rfl⟩ := checkedNext_eq_some.1 hnext
      simp only [nextRevision, hnext, refusal_eq_ok, Except.ok.injEq, Prod.mk.injEq, not_le,
        Option.some.injEq, not_not, Bool.not_eq_false]
      constructor
      · rintro ⟨hexpected, hreferences, hroom, rfl, rfl⟩
        exact ⟨rfl, hexpected, hreferences, hroom, rfl⟩
      · rintro ⟨rfl, hexpected, hreferences, hroom, rfl⟩
        exact ⟨hexpected, hreferences, hroom, rfl, rfl⟩

theorem nextRevision_error {code : ErrorCode}
    (h : nextRevision item revision expected references = .error code) :
    isPureRejectionCode code = true := by
  unfold nextRevision at h
  repeat' split at h
  all_goals cases h
  all_goals rfl

end NextRevision

theorem post_reviseProjectSpec (context : StoreContext) (request : ReviseProjectSpecCommand)
    (d : Database)
    (hcall : allowed (.execute (.reviseProjectSpec request))) :
    post (reviseProjectSpec context request) (PureStep allowed context request.binding
      (ProjectRevisionLate d request) d) d := by
  refine post_unlessKnownCreative request.operation rfl fun hop hpure hfresh => ?_
  unfold reviseProjectSpecNew
  rw [post_bind, post_lift]
  rintro ⟨specId, eventId, at_⟩ -
  simp only [post_bind]
  refine wp_insertClaim hfresh fun d1 h1 => ?_
  have hprojects : d1.projects = d.projects := by rw [h1]
  rw [post_read, hprojects]
  cases hchecks : nextRevision (d.projects.find? fun p => p.projectId = request.projectId)
      ProjectRow.revision request.expectedRevision true with
  | error code =>
    refine post_rejectEarly hpure hfresh h1 (nextRevision_error hchecks) ?_
    rintro ⟨-, p, hp, hid, hexpected, hroom⟩
    rw [nextRevision_eq_ok.2 ⟨hid ▸ d.consistent.projectKeys.find?_eq hp, hexpected, rfl, hroom,
      rfl⟩] at hchecks
    cases hchecks
  | ok checked =>
    obtain ⟨project, next⟩ := checked
    obtain ⟨hfind, hexpected, -, hroom, rfl⟩ := nextRevision_eq_ok.1 hchecks
    have hmem := List.mem_of_find?_eq_some hfind
    have hid : project.projectId = request.projectId := by simpa using List.find?_some hfind
    simp only [post_bind, insertSpecRevision]
    refine post_write fun d2 h2 _ => ?_
    refine wp_allocateEventSequences (by decide) (fun d3 _ h3 => ?_) fun hleft => ?_
    · simp only [post_bind, updateProjects, post_read, post_pure]
      refine post_write fun d4 h4 _ => ?_
      rw [post_ite]
      refine ⟨fun _ => trivial, fun _ => ?_⟩
      simp only [post_bind, insertDomainEvent, insertEvent]
      refine post_write fun d5 h5 _ => ?_
      refine post_completeVersioned hop hfresh (by rw [h5, h4, h3, h2, h1]) ?_
      have := Change.projectRevised context request project specId eventId at_ hcall hfresh hmem
        hid hroom
      rw [← d.consistent.projectKeys.updateWhere_key hmem hid
        (p := fun r => r.projectId = request.projectId && r.revision = project.revision)
        (by simp +contextual) (by simp [hid]) rfl] at this
      simpa only [h5, h4, h3, h2, h1, VersionedResultPayload.resultKind] using this
    · have hexhausted : ¬ SequencesLeft d 1 := by rwa [h2, h1] at hleft
      refine post_rejectLate hfresh (by rw [h2, h1]) rfl
        ⟨hexhausted, project, hmem, hid, hexpected, hroom⟩ ⟨?_, ?_, Or.inl ?_⟩ ?_
      · rw [h2, h1]
      · rw [h2, h1]
      · rw [h2, h1, List.length_append]
        exact Nat.lt_succ_self _
      · have := Change.projectRevisionLeft context request project specId at_ hcall hfresh hmem
          hid hroom hexhausted
        simpa only [h2, h1] using this

/-- A loop of inserts into one table appends its rows. -/
theorem post_insertRelationships {rows : List RelationshipRow}
    (hQ : ∀ d' : Database,
      d'.toTables = { d.toTables with relationships := d.relationships ++ rows } → Q () d') :
    post (forEach rows insertRelationshipRow) Q d := by
  refine post_mono (post_forEach
    (fun done t => t.toTables = { d.toTables with relationships := d.relationships ++ done })
    (by simp) fun done row rest _ t ht => ?_) fun _ d' hd' => hQ d' hd'
  refine post_write fun d' hd' _ => ?_
  simp only [hd', ht, List.append_assoc]

theorem post_insertWorkRevision {revisionId : Id .workRevision} {workItemId : Id .workItem}
    {sequence : ℕ} {specification : WorkSpecification} {relationshipIds : List (Id .relationship)}
    (hQ : ∀ d' : Database, d'.toTables = { d.toTables with
        workRevisions := d.workRevisions ++
          [workRevisionRow revisionId workItemId sequence binding at_ specification]
        relationships := d.relationships ++
          workEdgeRows revisionId binding at_ specification relationshipIds } →
      (workEdges revisionId binding at_ specification).length = relationshipIds.length →
        Q () d') :
    post (insertWorkRevision revisionId workItemId sequence binding at_ specification
      relationshipIds) Q d := by
  unfold insertWorkRevision
  simp only [post_bind, insertWorkRevisionRow]
  refine post_write fun d1 h1 _ => ?_
  rw [post_ite]
  refine ⟨fun hlen => post_insertRelationships fun d2 h2 => hQ d2 ?_ hlen, fun _ => trivial⟩
  rw [h2, h1]

theorem post_createWork (context : StoreContext) (request : CreateWorkCommand) (d : Database)
    (hcall : allowed (.execute (.createWork request))) :
    post (createWork context request) (PureStep allowed context request.binding False d) d := by
  refine post_unlessKnownCreative request.operation rfl fun hop hpure hfresh => ?_
  unfold createWorkNew
  rw [post_bind, post_lift]
  rintro ⟨workId, revisionId, eventId, relationshipIds, at_⟩ -
  simp only [post_bind]
  refine wp_insertClaim hfresh fun d1 h1 => ?_
  simp only [post_read, post_ite]
  refine ⟨fun _ => post_reject hpure hfresh h1 rfl, fun hexists =>
    ⟨fun _ => post_reject hpure hfresh h1 rfl, fun _ => ?_⟩⟩
  have hrefs : validateWorkReferences d request.specification = true := by
    rw [h1] at hexists
    simp only [Bool.or_eq_true, Bool.not_eq_true', not_or, Bool.not_eq_false] at hexists
    exact hexists.2
  rw [post_bind]
  refine wp_allocateEventSequences (by decide) (fun d2 _ h2 => ?_)
    fun _ => post_reject hpure hfresh h1 rfl
  simp only [post_bind, insertDomainEvent, insertEvent, insertWorkItem]
  refine post_write fun d3 h3 _ => ?_
  refine post_write fun d4 h4 _ => ?_
  refine post_insertWorkRevision fun d5 h5 hlen => ?_
  refine post_completeVersioned hop hfresh (by rw [h5, h4, h3, h2, h1]) ?_
  have := Change.workCreated context request workId revisionId eventId relationshipIds at_ hcall
    hfresh
    hrefs hlen
  simpa only [h5, h4, h3, h2, h1, VersionedResultPayload.resultKind] using this

/-- A revision of a work item that passes every check, when no event number
is left. -/
def WorkRevisionLate (t : Tables) (request : ReviseWorkCommand) : Prop :=
  ¬ SequencesLeft t 1 ∧ ∃ w ∈ t.workItems, w.workItemId = request.workItemId ∧
    w.projectId = request.projectId ∧ w.revision = request.expectedRevision ∧
    validateWorkReferences t request.specification = true ∧ w.revision + 1 < 2 ^ 32

theorem post_reviseWork (context : StoreContext) (request : ReviseWorkCommand) (d : Database)
    (hcall : allowed (.execute (.reviseWork request))) :
    post (reviseWork context request) (PureStep allowed context request.binding
      (WorkRevisionLate d request) d) d := by
  refine post_unlessKnownCreative request.operation rfl fun hop hpure hfresh => ?_
  unfold reviseWorkNew
  rw [post_bind, post_lift]
  rintro ⟨revisionId, eventId, relationshipIds, at_⟩ -
  simp only [post_bind]
  refine wp_insertClaim hfresh fun d1 h1 => ?_
  have hworks : d1.workItems = d.workItems := by rw [h1]
  have hsame : validateWorkReferences d1 request.specification =
      validateWorkReferences d request.specification := by
    rw [h1]
    rfl
  rw [post_read, hworks, hsame]
  cases hchecks : nextRevision (d.workItems.find? fun w =>
      w.workItemId = request.workItemId && w.projectId = request.projectId)
      WorkItemRow.revision request.expectedRevision
      (validateWorkReferences d request.specification) with
  | error code =>
    refine post_rejectEarly hpure hfresh h1 (nextRevision_error hchecks) ?_
    rintro ⟨-, w, hw, hid, hproject, hexpected, hrefs, hroom⟩
    have hfind := d.consistent.workKeys.find?_of hw
      (p := fun w => w.workItemId = request.workItemId && w.projectId = request.projectId)
      (by simp [hid, hproject]) (by simp +contextual [hid])
    rw [nextRevision_eq_ok.2 ⟨hfind, hexpected, hrefs, hroom, rfl⟩] at hchecks
    cases hchecks
  | ok checked =>
    obtain ⟨work, next⟩ := checked
    obtain ⟨hfind, hexpected, hrefs, hroom, rfl⟩ := nextRevision_eq_ok.1 hchecks
    have hmem := List.mem_of_find?_eq_some hfind
    obtain ⟨hid, hproject⟩ : work.workItemId = request.workItemId ∧
        work.projectId = request.projectId := by simpa using List.find?_some hfind
    rw [post_bind]
    refine post_insertWorkRevision fun d2 h2 hlen => ?_
    simp only [post_bind, updateWorkItems, post_read, post_pure]
    refine post_write fun d3 h3 _ => ?_
    rw [post_ite]
    refine ⟨fun _ => trivial, fun _ => ?_⟩
    rw [d2.consistent.workKeys.updateWhere_key (by rw [h2, h1]; exact hmem) hid
      (by simp +contextual) (by simp [hid, hproject]) rfl] at h3
    rw [post_bind]
    refine wp_allocateEventSequences (by decide) (fun d4 _ h4 => ?_) fun hleft => ?_
    · simp only [post_bind, insertDomainEvent, insertEvent]
      refine post_write fun d5 h5 _ => ?_
      refine post_completeVersioned hop hfresh (by rw [h5, h4, h3, h2, h1]) ?_
      have := Change.workRevised context request work revisionId eventId relationshipIds at_
        hcall hfresh hmem hid hrefs hlen hroom
      simpa only [h5, h4, h3, h2, h1, VersionedResultPayload.resultKind] using this
    · have hexhausted : ¬ SequencesLeft d 1 := by rwa [h3, h2, h1] at hleft
      refine post_rejectLate hfresh (by rw [h3, h2, h1]) rfl
        ⟨hexhausted, work, hmem, hid, hproject, hexpected, hrefs, hroom⟩
        ⟨?_, ?_, Or.inr ?_⟩ ?_
      · rw [h3, h2, h1]
      · rw [h3, h2, h1]
      · rw [h3, h2, h1, List.length_append]
        exact Nat.lt_succ_self _
      · have := Change.workRevisionLeft context request work revisionId relationshipIds at_
          hcall hfresh hmem hid hrefs hlen hroom hexhausted
        simpa only [h3, h2, h1] using this

/-! ## Takes -/

/-- The payload of one short field is encoded. -/
theorem eventPayload_single {value : Bytes} (hne : value ≠ []) (hlength : value.length ≤ 2045) :
    ∃ bytes, eventPayload [(1, value)] = some (some bytes) ∧ 1 ≤ bytes.length ∧
      bytes.length ≤ 2048 := by
  have hguard : ¬ (1 ≤ 0 ∨ 256 ≤ 1 ∨ value = [] ∨ 2 ^ 16 ≤ value.length) := by
    simp only [hne, not_or, not_le, not_false_eq_true, true_and]
    omega
  refine ⟨[UInt8.ofNat 1, UInt8.ofNat (value.length / 256), UInt8.ofNat (value.length % 256)] ++
    value, ?_, by simp, by simp; omega⟩
  unfold eventPayload
  simp only [encodeFields, if_neg hguard, List.nil_append]
  rw [if_neg (by simp; omega)]
  rfl

/-- An event is recorded with its payload; it fits where its identifier and
number are new and its payload is short. -/
theorem wp_insertPayloadEvent {E : AssetStoreError → Prop} {eventId : Id .domainEvent}
    {sequence : ℕ} {eventType : EventType} {aggregateId : Uuid} {value : Option Bytes}
    (hfits : ((∀ x ∈ d.domainEvents, x.domainEventId ≠ eventId) ∧
      (∀ x ∈ d.domainEvents, x.commitSequence ≠ sequence) ∧ (1 ≤ sequence ∧ sequence < 2 ^ 63) ∧
      (∀ v ∈ value, v ≠ [] ∧ v.length ≤ 2045) ∧
      ∃ x ∈ d.commands, x.commandId = binding.commandId) ∨ E .internal)
    (hQ : ∀ (d' : Database) (payload : Option Bytes), d'.toTables = { d.toTables with
        domainEvents := d.domainEvents ++ [domainEventRow eventId sequence binding eventType .take
          aggregateId revision payload at_] } → Q () d') :
    wp (insertPayloadEvent eventId sequence binding eventType aggregateId revision value at_)
      Q E d := by
  unfold insertPayloadEvent insertEvent
  cases value with
  | none =>
    refine wp_write_of (hfits.imp_left ?_) fun d' hd' _ => hQ d' none hd'
    rintro ⟨hid, hsequence, hbound, -, hcommand⟩
    exact ⟨hid, hsequence, hbound, fun p hp => (by cases hp), hcommand⟩
  | some v =>
    rcases hfits with ⟨hid, hsequence, hbound, hvalue, hcommand⟩ | hfail
    · obtain ⟨bytes, hbytes, hlow, hhigh⟩ := eventPayload_single (hvalue v rfl).1 (hvalue v rfl).2
      simp only [hbytes]
      refine wp_write_of (Or.inl ⟨hid, hsequence, hbound, fun p hp => ?_, hcommand⟩)
        fun d' hd' _ => hQ d' (some bytes) hd'
      obtain rfl := Option.some_inj.1 (Option.mem_def.1 hp)
      exact ⟨hlow, hhigh⟩
    · dsimp only
      split
      · exact hfail
      · exact wp_write_of (Or.inr hfail) fun d' hd' _ => hQ d' _ hd'

theorem readTake_eq_some {t : Tables} {takeId : Id .take} {workRevisionId : Id .workRevision}
    (h : readTake t takeId workRevisionId = some take) :
    take ∈ t.takes ∧ take.takeId = takeId ∧ take.workRevisionId = workRevisionId := by
  refine ⟨List.mem_of_find?_eq_some h, ?_⟩
  simpa using List.find?_some h

theorem selectedOther_eq_some {t : Tables} {workRevisionId : Id .workRevision}
    {takeId : Id .take} {selected : TakeRow}
    (h : selectedOther t workRevisionId takeId = some selected) :
    selected ∈ t.takes ∧ selected.workRevisionId = workRevisionId ∧
      selected.state = .selected ∧ selected.takeId ≠ takeId := by
  refine ⟨List.mem_of_find?_eq_some h, ?_⟩
  simpa [and_assoc] using List.find?_some h

/-- **A rejection for the second take has one of the four codes**: the
request type rules out a missing replacement. -/
theorem involvement_error {t : Tables} {code : ErrorCode}
    (h : involvement t request = .error code) : isPureRejectionCode code = true := by
  unfold involvement at h
  split at h
  · repeat' split at h
    all_goals first | exact Except.error.inj h ▸ rfl | cases h
  · split at h
    · rename_i hsupersede _ hrelated
      have hshape := request.shape
      simp [transitionShape, hsupersede, hrelated] at hshape
    · repeat' split at h
      all_goals first | exact Except.error.inj h ▸ rfl | cases h
  · cases h

theorem involvement_replacing {t : Tables} {id : Id .take} {next : RevisionNo}
    (h : involvement t request = .ok (.replacing id revision next)) :
    request.transition = .select ∧ next = revision + 1 ∧ next < 2 ^ 64 ∧
      ∃ selected ∈ t.takes, selected.takeId = id ∧ selected.revision = revision ∧
        selected.state = .selected ∧ selected.workRevisionId = request.workRevisionId ∧
        id ≠ request.takeId := by
  unfold involvement at h
  split at h
  · rename_i hselect
    split at h
    · cases h
    · rename_i selected suppliedId suppliedRevision hother _
      obtain ⟨hsame, h⟩ := refusal_eq_ok.1 h
      split at h
      · cases h
      · rename_i next' hnext
        cases h
        obtain ⟨hroom, rfl⟩ := checkedNext_eq_some.1 hnext
        obtain ⟨hmem, hplace, hstate, hne⟩ := selectedOther_eq_some hother
        simp only [ne_eq, not_or, Decidable.not_not] at hsame
        exact ⟨hselect, rfl, hroom, selected, hmem, hsame.1, rfl, hstate, hplace,
          hsame.1 ▸ hne⟩
    · cases h
  · repeat' split at h
    all_goals cases h
  · cases h

theorem involvement_supersededBy {t : Tables} {id : Id .take}
    (h : involvement t request = .ok (.supersededBy id)) :
    request.transition = .supersede ∧ (∃ revision, request.relatedTake = some (id, revision)) ∧
      ∃ replacement ∈ t.takes, replacement.takeId = id ∧
        replacement.workRevisionId = request.workRevisionId ∧ id ≠ request.takeId := by
  unfold involvement at h
  split at h
  · repeat' split at h
    all_goals cases h
  · rename_i hsupersede
    split at h
    · cases h
    · rename_i hrelated
      split at h
      · cases h
      · rename_i replacement hread
        obtain ⟨hsame, h⟩ := refusal_eq_ok.1 h
        cases h
        obtain ⟨hmem, hid, hplace⟩ := readTake_eq_some hread
        rw [not_or] at hsame
        exact ⟨hsupersede, ⟨_, hrelated⟩, replacement, hmem, hid, hplace, hsame.1⟩
  · cases h

/-- **One take at most stays selected** when a take moves, provided that a
take that becomes selected is the only one. -/
theorem oneSelected_move {takes : List TakeRow} (hkeys : Distinct TakeRow.takeId takes)
    (hone : OneSelected takes) {take : TakeRow} (hmem : take ∈ takes) {target : TakeState}
    (hother : target = .selected → ∀ x ∈ takes, x.takeId ≠ take.takeId →
      x.workRevisionId = take.workRevisionId → x.state ≠ .selected)
    (revision : RevisionNo) (at_ : Timestamp) :
    OneSelected (updateWhere (fun r => r.takeId = take.takeId)
      (TakeRow.move target revision at_) takes) := by
  have hcases : ∀ x ∈ (updateWhere (fun r => decide (r.takeId = take.takeId))
      (TakeRow.move target revision at_) takes).filter (·.state = .selected),
      (target = .selected ∧ x = take.move target revision at_) ∨
        (x ∈ takes.filter (·.state = .selected) ∧ x.takeId ≠ take.takeId) := by
    intro x hx
    rw [List.mem_filter] at hx
    obtain ⟨hx, hstate⟩ := hx
    rcases mem_updateWhere_iff.1 hx with ⟨y, hy, hid, rfl⟩ | ⟨hy, hid⟩
    · obtain rfl := hkeys.eq_of_mem hy hmem (of_decide_eq_true hid)
      exact Or.inl ⟨of_decide_eq_true hstate, rfl⟩
    · exact Or.inr ⟨List.mem_filter.2 ⟨hy, hstate⟩, of_decide_eq_false hid⟩
  have hapart : target = .selected → ∀ x ∈ takes.filter (·.state = .selected),
      x.takeId ≠ take.takeId → x.workRevisionId ≠ take.workRevisionId := by
    intro htarget x hx hid hplace
    obtain ⟨hx, hstate⟩ := List.mem_filter.1 hx
    exact hother htarget x hx hid hplace (of_decide_eq_true hstate)
  refine List.Nodup.map_on (fun x hx y hy hplace => ?_)
    (List.Nodup.filter _ (List.Nodup.of_map _ (hkeys.updateWhere fun _ => rfl)))
  rcases hcases x hx with ⟨htarget, rfl⟩ | ⟨hx, hxid⟩ <;>
    rcases hcases y hy with ⟨htarget', rfl⟩ | ⟨hy, hyid⟩
  · rfl
  · exact absurd hplace.symm (hapart htarget y hy hyid)
  · exact absurd hplace (hapart htarget' x hx hxid)
  · exact hone.eq_of_mem hx hy hplace

/-- A take known to be stored is moved; it fits unless that would select a
second one. -/
theorem wp_updateTakes {E : AssetStoreError → Prop} {id : Id .take} {p : TakeRow → Bool}
    {state : TakeState} {Q : ℕ → Database → Prop} (hmem : take ∈ d.takes)
    (hid : take.takeId = id) (hp : ∀ r, p r = true → r.takeId = id) (hpx : p take = true)
    (hfits : (state = .selected → ∀ x ∈ d.takes, x.takeId ≠ id →
      x.workRevisionId = take.workRevisionId → x.state ≠ .selected) ∨ E .internal)
    (hQ : ∀ d' : Database, d'.toTables = { d.toTables with
        takes := updateWhere (fun r => r.takeId = id) (TakeRow.move state revision at_) d.takes } →
      Q 1 d') :
    wp (updateTakes p state revision at_) Q E d := by
  have hkey := d.consistent.takeKeys.updateWhere_key (g := TakeRow.move state revision at_)
    hmem hid hp hpx rfl
  subst hid
  unfold updateTakes
  simp only [wp_bind, wp_read, wp_pure]
  refine wp_write_of (hfits.imp_left fun hother => ?_) fun d' hd' _ => ?_
  · rw [hkey]
    exact oneSelected_move d.consistent.takeKeys d.consistent.takeOneSelected hmem hother _ _
  · rw [hkey] at hd'
    rw [d.consistent.takeKeys.countP_eq_one hmem hpx fun r _ hr => hp r hr]
    exact hQ d' hd'

theorem Involvement.one_le_eventCount (second : Involvement) :
    1 ≤ second.eventCount ∧ second.eventCount ≤ 64 := by
  cases second <;> simp [Involvement.eventCount]

/-- The end of a transition, from the change it completes. -/
theorem post_moveTake {draw : TransitionDraw} {target : TakeState} {next : RevisionNo}
    {second : Involvement} {sequence : ℕ} (hop : isCreative request.binding.operationId = true)
    (hfresh : FreshCommand d request.binding.commandId) (hmem : take ∈ d1.takes)
    (hid : take.takeId = request.takeId)
    (h1 : d1.commands = d.commands ++ [claimRow context request.binding draw.at_])
    (hchange : ∀ payload, Change allowed d { d1.toTables with
      commands := d.commands ++ [(claimRow context request.binding draw.at_).complete .take
        request.takeId.uuid none (some (.take next take.ordinal target take.primaryAssetId
          second.related)) draw.at_]
      domainEvents := d1.domainEvents ++ [domainEventRow
        (if second.eventCount = 2 then draw.secondEvent else draw.firstEvent)
        (if second.eventCount = 2 then sequence + 1 else sequence)
        request.binding (transitionEvent request.transition) .take request.takeId.uuid next
        payload draw.at_]
      takes := updateWhere (fun r => r.takeId = request.takeId)
        (TakeRow.move target next draw.at_) d1.takes }) :
    post (moveTake request draw take target next second sequence)
      (PureStep allowed context request.binding False d) d1 := by
  unfold moveTake
  rw [post_bind]
  refine wp_updateTakes hmem hid (by simp +contextual) (by simp [hid]) (Or.inr trivial)
    fun d2 h2 => ?_
  rw [if_neg (by simp), post_bind]
  refine wp_insertPayloadEvent (Or.inr trivial) fun d3 payload h3 => ?_
  refine post_completeVersioned hop hfresh (by rw [h3, h2]; exact h1) ?_
  simpa only [h3, h2, VersionedResultPayload.resultKind] using hchange payload

theorem post_writeTransition {draw : TransitionDraw} {target : TakeState} {second : Involvement}
    (hcall : allowed (.execute (.transitionTake request)))
    (hop : isCreative request.binding.operationId = true)
    (hfresh : FreshCommand d request.binding.commandId) (hmem : take ∈ d.takes)
    (hid : take.takeId = request.takeId) (hplace : take.workRevisionId = request.workRevisionId)
    (htransition : take.state.transition request.transition = .ok target)
    (hroom : take.revision + 1 < 2 ^ 64) (hinv : involvement d request = .ok second)
    (h1 : d1.toTables = { d.toTables with
      commands := d.commands ++ [claimRow context request.binding draw.at_]
      lastSequence := d.lastSequence + second.eventCount }) :
    post (writeTransition request draw take target (take.revision + 1) second
      (d.lastSequence + 1)) (PureStep allowed context request.binding False d) d1 := by
  have hmem1 : take ∈ d1.takes := by rw [h1]; exact hmem
  unfold writeTransition
  rw [post_bind]
  cases second with
  | alone =>
    refine post_moveTake hop hfresh hmem1 hid (by rw [h1]) fun payload => ?_
    rw [h1]
    exact Change.takeMoved context request take target draw payload hcall hfresh hmem hid
      htransition
      hinv hroom
  | replacing other revision next =>
    obtain ⟨hselect, rfl, hotherRoom, selected, hother, rfl, rfl, hstate, hotherPlace, hne⟩ :=
      involvement_replacing hinv
    have htarget : target = .selected := by
      rw [TakeState.transition_ok htransition, hselect]
      rfl
    unfold writeInvolvement
    rw [post_bind]
    refine wp_updateTakes (by rw [h1]; exact hother) rfl (by simp +contextual)
      (by simp [hstate]) (Or.inr trivial) fun d2 h2 => ?_
    rw [if_neg (by simp), post_bind]
    refine wp_insertPayloadEvent (Or.inr trivial) fun d3 payload h3 => ?_
    refine post_write fun d4 h4 _ => ?_
    have hmem4 : take ∈ d4.takes := by
      rw [h4, h3, h2, h1]
      exact mem_updateWhere.2 ⟨take, hmem, if_neg (by simpa [hid] using hne.symm)⟩
    refine post_moveTake hop hfresh hmem4 hid (by rw [h4, h3, h2, h1]) fun payload' => ?_
    have := Change.takeReplaced context request take selected draw payload payload' hcall hfresh
      hmem hid hselect (by rw [← hselect, htransition, htarget]) hplace hother hstate hotherPlace
      hne hroom hotherRoom
    simpa [h4, h3, h2, h1, hselect, htarget, transitionEvent, Involvement.eventCount,
      Involvement.related] using this
  | supersededBy other =>
    obtain ⟨hsupersede, hrelated, replacement, hother, rfl, hotherPlace, hne⟩ :=
      involvement_supersededBy hinv
    have htarget : target = .superseded := by
      rw [TakeState.transition_ok htransition, hsupersede]
      rfl
    unfold writeInvolvement insertRelationshipRow
    refine post_write fun d2 h2 _ => ?_
    refine post_moveTake hop hfresh (by rw [h2]; exact hmem1) hid (by rw [h2, h1])
      fun payload => ?_
    have := Change.takeSuperseded context request take replacement draw payload hcall hfresh hmem
      hid hsupersede (by rw [← hsupersede, htransition, htarget]) hplace hother hotherPlace hne
      hroom hrelated
    simpa [h2, h1, hsupersede, htarget, transitionEvent, Involvement.eventCount,
      Involvement.related] using this

/-- A new transition that passes every check of `transition_take`. -/
structure TransitionAdmitted (t : Tables) (request : TransitionTakeCommand) (take : TakeRow)
    (target : TakeState) (second : Involvement) : Prop where
  command : FreshCommand t request.binding.commandId
  context : takeContextExists t request.projectId request.workItemId request.workRevisionId = true
  read : readTake t request.takeId request.workRevisionId = some take
  expected : take.revision = request.expectedRevision
  transition : take.state.transition request.transition = .ok target
  asset : request.transition = .shortlist → assetExists t take.primaryAssetId = true
  room : take.revision + 1 < 2 ^ 64
  involved : involvement t request = .ok second
  sequences : SequencesLeft t second.eventCount

/-- **What `transition_take` makes of a new command**: it writes an admitted
one, and rejects any other. -/
theorem wp_transitionTakeNew {Q : MutationOutcome → Database → Prop} {E : AssetStoreError → Prop}
    (hfresh : FreshCommand d request.binding.commandId)
    (hfailed : ∀ e, drawTransition request.values = .error e → E e)
    (hreject : ∀ draw d1 code, drawTransition request.values = .ok draw →
      d1.toTables = { d.toTables with
        commands := d.commands ++ [claimRow context request.binding draw.at_] } →
      isPureRejectionCode code = true →
      (∀ take target second, ¬ TransitionAdmitted d request take target second) →
      wp (commitRejection request.binding code draw.at_) Q E d1)
    (hwrite : ∀ draw d1 take target second, drawTransition request.values = .ok draw →
      d1.toTables = { d.toTables with
        commands := d.commands ++ [claimRow context request.binding draw.at_]
        lastSequence := d.lastSequence + second.eventCount } →
      TransitionAdmitted d request take target second →
      wp (writeTransition request draw take target (take.revision + 1) second
        (d.lastSequence + 1)) Q E d1) :
    wp (transitionTakeNew context request) Q E d := by
  unfold transitionTakeNew
  rw [wp_bind, wp_lift]
  refine ⟨fun draw hdrawn => ?_, hfailed⟩
  rw [wp_bind]
  refine wp_insertClaim hfresh fun d1 h1 => ?_
  have hcontext : takeContextExists d1 = takeContextExists d := by rw [h1]; rfl
  have hread1 : readTake d1 = readTake d := by rw [h1]; rfl
  have hasset : assetExists d1 = assetExists d := by rw [h1]; rfl
  have hinvolvement : involvement d1 = involvement d := by rw [h1]; rfl
  rw [wp_bind, wp_read, wp_ite, hcontext, hread1, hasset, hinvolvement]
  refine ⟨fun hno => hreject _ _ _ hdrawn h1 rfl fun _ _ _ h => by simp [h.context] at hno,
    fun hyes => ?_⟩
  have hyes : takeContextExists d request.projectId request.workItemId
      request.workRevisionId = true := by simpa using hyes
  cases hread : readTake d request.takeId request.workRevisionId with
  | none => exact hreject _ _ _ hdrawn h1 rfl fun _ _ _ h => by simp [h.read] at hread
  | some take =>
    -- what an admitted reading of this request must agree with
    have hsame : ∀ {take' target second}, TransitionAdmitted d request take' target
        second → take' = take := fun h => Option.some_inj.1 (h.read.symm.trans hread)
    simp only [wp_ite]
    refine ⟨fun hno => hreject _ _ _ hdrawn h1 rfl fun _ _ _ h => hno (hsame h ▸ h.expected),
      fun hexpected => ?_⟩
    have hexpected := Decidable.not_not.1 hexpected
    cases htransition : take.state.transition request.transition with
    | error _ =>
      refine hreject _ _ _ hdrawn h1 rfl fun _ _ _ h => ?_
      have := hsame h ▸ h.transition
      rw [htransition] at this
      cases this
    | ok target =>
      simp only [wp_ite]
      refine ⟨fun hno => hreject _ _ _ hdrawn h1 rfl fun _ _ _ h => ?_, fun hpresent => ?_⟩
      · have := hsame h ▸ h.asset hno.1
        rw [hno.2] at this
        cases this
      have hpresent : request.transition = .shortlist →
          assetExists d take.primaryAssetId = true := by simpa using hpresent
      cases hnext : checkedNext take.revision with
      | none =>
        refine hreject _ _ _ hdrawn h1 rfl fun _ _ _ h => ?_
        rw [checkedNext_eq_some.2 ⟨hsame h ▸ h.room, rfl⟩] at hnext
        cases hnext
      | some next =>
        obtain ⟨hroom, rfl⟩ := checkedNext_eq_some.1 hnext
        cases hinvolved : involvement d request with
        | error code =>
          have hcode := involvement_error hinvolved
          have hno : ∀ take target second, ¬ TransitionAdmitted d request take target second :=
            fun _ _ _ h => by cases h.involved.symm.trans hinvolved
          cases code <;> first
            | exact hreject _ _ _ hdrawn h1 hcode hno
            | cases hcode
        | ok second =>
          rw [wp_bind]
          refine wp_allocateEventSequences second.one_le_eventCount (fun d2 hleft h2 => ?_)
            fun hleft => hreject _ _ _ hdrawn h1 rfl fun _ _ _ h => hleft ?_
          · rw [h1] at hleft h2
            have hlast : d1.lastSequence = d.lastSequence := by rw [h1]
            rw [hlast]
            exact hwrite _ _ _ _ _ hdrawn h2 ⟨hfresh, hyes, hread, hexpected, htransition,
              hpresent, hroom, hinvolved, hleft⟩
          · obtain rfl := Except.ok.inj (h.involved.symm.trans hinvolved)
            rw [h1]
            exact h.sequences

theorem post_transitionTake (context : StoreContext) (request : TransitionTakeCommand)
    (d : Database) (hcall : allowed (.execute (.transitionTake request))) :
    post (transitionTake context request) (PureStep allowed context request.binding False d)
      d := by
  refine post_unlessKnownCreative request.operation rfl fun hop hpure hfresh => ?_
  refine wp_transitionTakeNew hfresh (fun _ _ => trivial)
    (fun _ _ _ _ h1 hcode _ => post_reject hpure hfresh h1 hcode)
    fun _ _ _ _ _ _ h1 hadmitted => ?_
  obtain ⟨hmem, hid, hplace⟩ := readTake_eq_some hadmitted.read
  exact post_writeTransition hcall hop hfresh hmem hid hplace hadmitted.transition hadmitted.room
    hadmitted.involved h1

theorem post_reopenTake (context : StoreContext) (request : ReopenTakeCommand) (d : Database)
    (hcall : allowed (.execute (.reopenTake request))) :
    post (reopenTake context request) (PureStep allowed context request.binding False d) d := by
  refine post_unlessKnownCreative request.operation rfl fun hop hpure hfresh => ?_
  unfold reopenTakeNew
  rw [post_bind, post_lift]
  rintro ⟨takeId, eventId, relationshipId, at_⟩ -
  simp only [post_bind]
  refine wp_insertClaim hfresh fun d1 h1 => ?_
  rw [post_read, post_ite]
  refine ⟨fun _ => post_reject hpure hfresh h1 rfl, fun _ => ?_⟩
  cases hread : readTake d1 request.terminalTakeId request.workRevisionId with
  | none => exact post_reject hpure hfresh h1 rfl
  | some terminal =>
    obtain ⟨hmem, hid, hplace⟩ := readTake_eq_some hread
    simp only [post_ite]
    refine ⟨fun _ => post_reject hpure hfresh h1 rfl, fun _ =>
      ⟨fun _ => post_reject hpure hfresh h1 rfl, fun hstate => ?_⟩⟩
    rw [not_or, Bool.not_eq_false] at hstate
    cases hnext : nextTakeOrdinal d1 request.workRevisionId with
    | none => exact post_reject hpure hfresh h1 rfl
    | some ordinal =>
      rw [post_bind]
      refine wp_allocateEventSequences (by decide) (fun d2 _ h2 => ?_)
        fun _ => post_reject hpure hfresh h1 rfl
      simp only [post_bind, insertTakeRow, insertRelationshipRow]
      refine wp_insertPayloadEvent (Or.inr trivial) fun d3 payload h3 => ?_
      refine post_write fun d4 h4 _ => ?_
      refine post_write fun d5 h5 _ => ?_
      refine post_completeVersioned hop hfresh (by rw [h5, h4, h3, h2, h1]) ?_
      rw [h1] at hmem hnext
      have := Change.takeReopened context request terminal takeId eventId relationshipId at_
        ordinal payload hcall hfresh hmem hid hstate.1 hplace hstate.2 hnext
      simpa only [h5, h4, h3, h2, h1, VersionedResultPayload.resultKind] using this

end MengXia.Store
