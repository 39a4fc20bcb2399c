import MengXia.Store.RevisionHistory
import MengXia.Store.ScanHistory
import MengXia.Store.StoredResults
/-!
# Commands and what they created

Every creative row names the command that created it. In a run in which no
revision finds the event numbers spent (`Supplied`), that command is a
completed one, and every completed command but a materialization is still
answered with its result.
-/

namespace MengXia.Store

open Common

variable {allowed : Call → Prop}

variable {d d' : Database} {t : Tables} {r : CommandRow}

/-! ## Creators -/

/-- The `created_by_command_id` columns of the creative tables. -/
def creatorIds (t : Tables) : List (Id .command) :=
  t.projects.map ProjectRow.createdByCommandId ++
    t.specRevisions.map SpecRevisionRow.createdByCommandId ++
    t.subjects.map SubjectRow.createdByCommandId ++
    t.workItems.map WorkItemRow.createdByCommandId ++
    t.workRevisions.map WorkRevisionRow.createdByCommandId ++
    t.takes.map TakeRow.createdByCommandId ++
    t.relationships.map RelationshipRow.createdByCommandId

/-- The command of an id is completed. -/
def CompletedIn (t : Tables) (id : Id .command) : Prop :=
  ∃ c ∈ t.commands, c.commandId = id ∧ c.state = .completed

/-- Every creative row was created by a completed command. -/
def CreatorsCompleted (t : Tables) : Prop :=
  ∀ id ∈ creatorIds t, CompletedIn t id

/-- Completed commands stay, so only the new creators count. -/
theorem CreatorsCompleted.extend {t' : Tables} (h : CreatorsCompleted t)
    (hcommands : ∀ c ∈ t.commands, c.Ended → c ∈ t'.commands)
    (hnew : ∀ id ∈ creatorIds t', id ∈ creatorIds t ∨ CompletedIn t' id) :
    CreatorsCompleted t' := by
  intro id hid
  rcases hnew id hid with hold | hdone
  · obtain ⟨c, hc, hcid, hstate⟩ := h id hold
    exact ⟨c, hcommands c hc (Or.inl hstate), hcid, hstate⟩
  · exact hdone

/-- A completed row at the end of the ledger. -/
theorem completedIn_concat {rows : List CommandRow} {row : CommandRow}
    (h : t.commands = rows ++ [row]) (hstate : row.state = .completed) :
    CompletedIn t row.commandId :=
  ⟨row, by rw [h]; exact List.mem_concat_self, rfl, hstate⟩

theorem map_creator_move (p : TakeRow → Bool) (target : TakeState) (revision : RevisionNo)
    (at_ : Timestamp) (takes : List TakeRow) :
    (updateWhere p (TakeRow.move target revision at_) takes).map TakeRow.createdByCommandId =
      takes.map TakeRow.createdByCommandId :=
  map_updateWhere fun _ => rfl

/-- **A change creates rows for completed commands only**, unless it is a
revision that found the event numbers spent. -/
theorem CreatorsCompleted.change (h : CreatorsCompleted d)
    (hleft : ∀ call, allowed call → call.Revises → SequencesLeft d 1)
    (hchange : Change allowed d d') : CreatorsCompleted d' := by
  have hcommands : ∀ c ∈ d.commands, c.Ended → c ∈ d'.commands := hchange.grows.commands.2
  refine h.extend hcommands ?_
  generalize d'.toTables = t' at hchange
  have hold : ∀ {t' : Tables}, creatorIds t' = creatorIds d →
      ∀ id ∈ creatorIds t', id ∈ creatorIds d ∨ CompletedIn t' id :=
    fun heq id hid => Or.inl (heq ▸ hid)
  -- A creative change appends the row of its command, which is completed.
  have new : ∀ {t' : Tables} {row : CommandRow} {k : Id .command},
      t'.commands = d.commands ++ [row] → row.state = .completed → row.commandId = k →
      (∀ id ∈ creatorIds t', id ≠ k → id ∈ creatorIds d) →
        ∀ id ∈ creatorIds t', id ∈ creatorIds d ∨ CompletedIn t' id := by
    intro t' row k hrow hstate hkey hsub id hid
    by_cases hid' : id = k
    · rw [hid', ← hkey]
      exact Or.inr (completedIn_concat hrow hstate)
    · exact Or.inl (hsub id hid hid')
  cases hchange with
  | claimed | moved | rejected | registered | revisionCreated | lifecycleChanged
  | locationRecorded => exact hold rfl
  | projectRevisionLeft _ _ _ _ _ call _ _ _ _ exhausted
  | workRevisionLeft _ _ _ _ _ _ call _ _ _ _ _ _ exhausted =>
    exact absurd (hleft _ call trivial) exhausted
  | workCreated context request _ revisionId _ ids at_
  | workRevised context request _ revisionId _ ids at_ =>
    refine new (k := request.binding.commandId) rfl rfl rfl fun id hid hne => ?_
    have hedges : ∀ x ∈ workEdgeRows revisionId request.binding at_ request.specification ids,
        x.createdByCommandId ≠ id :=
      fun x h heq => hne (heq.symm.trans (mem_workEdges h).1)
    simp only [creatorIds, map_updateWhere, implies_true, List.map_append, List.map_map,
      List.mem_append, List.mem_map, List.mem_singleton, Prod.exists,
      Function.comp_apply] at hid ⊢
    grind [newWorkItemRow, workRevisionRow]
  | projectCreated context request | projectRevised context request
  | subjectCreated context request | takeCreated context request | takeMoved context request
  | takeReplaced context request | takeSuperseded context request
  | takeReopened context request =>
    refine new (k := request.binding.commandId) rfl rfl rfl fun id hid hne => ?_
    simpa [creatorIds, newProjectRow, specRevisionRow, newSubjectRow, newTakeRow, takeEdgeRow, hne,
      map_updateWhere, map_creator_move] using hid

/-- **Every creative row of a supplied run** was created by a completed
command. -/
theorem Supplied.creatorsCompleted (h : Supplied allowed d) :
    CreatorsCompleted d := by
  induction h with
  | empty => exact fun id hid => by cases hid
  | @step d context call before admitted left ih =>
    rcases @Call.advances (fun c => c = call) call context d rfl with
      (hsame | hchange) | htables
    · rw [hsame]
      exact ih
    · refine ih.change (fun c hc => ?_) hchange
      rw [hc]
      exact left
    · refine ih.extend (fun c hc hended => (call.ledgerStep context d).ended hc hended)
        fun id hid => Or.inl ?_
      rw [htables] at hid
      exact hid

/-! ## Results that can be read back -/

/-- Every completed command but a materialization has its result stored. -/
def ResultsReplay (t : Tables) : Prop :=
  ∀ r ∈ t.commands, r.state = .completed → r.operationId ≠ .assetMaterialize →
    ∃ result, replayResult t r = .ok result

/-- Old results stay, so only the new rows count. -/
theorem ResultsReplay.extend (h : ResultsReplay d) (hgrows : Grows d d')
    (hnew : ∀ r ∈ d'.commands, r.state = .completed → r.operationId ≠ .assetMaterialize →
      r ∈ d.commands ∨ ∃ result, replayResult d' r = .ok result) :
    ResultsReplay d' := by
  intro r hr hstate hop
  rcases hnew r hr hstate hop with hold | hresult
  · obtain ⟨result, hresult⟩ := h r hold hstate hop
    exact ⟨result, replayResult_stays hgrows hold (Or.inl hstate) hresult⟩
  · exact hresult

theorem exists_replayResult {result : CommandResult} (h : replayExternalResult t r = .ok result) :
    ∃ result, replayResult t r = .ok result := by
  unfold replayExternalResult at h
  cases hreplay : replayResult t r with
  | ok stored => exact ⟨stored, rfl⟩
  | error e => rw [hreplay] at h; cases h

/-- **A change without an event completes no command** but a
materialization. -/
theorem Change.completed {t' : Tables} (hchange : Change allowed t t')
    (hsequence : t'.lastSequence = t.lastSequence) (hr : r ∈ t'.commands)
    (hstate : r.state = .completed) (hop : r.operationId ≠ .assetMaterialize) :
    r ∈ t.commands := by
  have hlast : ∀ {row : CommandRow}, row.state ≠ .completed → r ∈ t.commands ++ [row] →
      r ∈ t.commands := by
    intro row hrow hmem
    rcases List.mem_append.1 hmem with hmem | hmem
    · exact hmem
    · rw [List.mem_singleton.1 hmem] at hstate
      exact absurd hstate hrow
  cases hchange with
  | claimed | rejected | projectRevisionLeft | workRevisionLeft =>
    exact hlast (fun h => by cases h) hr
  | moved r₀ r' mem external move =>
    rcases mem_updateWhere_iff.1 hr with ⟨x, -, -, rfl⟩ | ⟨hr, -⟩
    · cases move with
      | disposed disposition =>
        cases disposition <;> cases hstate
      | reacquired => cases hstate
      | materialized revisionId at_ operation => exact absurd operation hop
    · exact hr
  | _ => simp at hsequence

/-- A call that only touches the ledger completes no other command. -/
theorem LedgerCall.completed {context : StoreContext} (h : LedgerCall allowed context d d')
    (hr : r ∈ d'.commands) (hstate : r.state = .completed)
    (hop : r.operationId ≠ .assetMaterialize) :
    r ∈ d.commands := by
  have hall : ∀ b, Relation.ReflTransGen (Advances allowed) d b →
      d.lastSequence ≤ b.lastSequence ∧
        (b.lastSequence = d.lastSequence → r ∈ b.commands → r ∈ d.commands) := by
    intro b hb
    induction hb with
    | refl => exact ⟨le_rfl, fun _ hmem => hmem⟩
    | tail _ hstep ih =>
      rcases hstep with hsame | hchange
      · rw [hsame]
        exact ih
      · have hgrows := hchange.grows.sequence
        refine ⟨ih.1.trans hgrows, fun hsequence hmem => ?_⟩
        have hmiddle : _ = d.lastSequence := le_antisymm (hgrows.trans hsequence.le) ih.1
        exact ih.2 hmiddle (hchange.completed (hsequence.trans hmiddle.symm) hmem hstate hop)
  exact (hall d' h.advances).2 (by rw [h.tables]) hr

/-- **One call keeps every result.** -/
theorem Call.resultsReplay (call : Call) (context : StoreContext) (h : ResultsReplay d) :
    ResultsReplay ((call.exec context).run d).2.toTables := by
  refine h.extend (call.grows context d) fun r hr hstate hop => ?_
  revert r
  refine call.run_cases context d (P := fun t => ∀ r ∈ t.commands, r.state = .completed →
    r.operationId ≠ .assetMaterialize → r ∈ d.commands ∨ ∃ result, replayResult t r = .ok result)
    (fun r hr _ _ => Or.inl hr) ?_ ?_ fun d' hledger r hr hstate hop =>
      Or.inl (hledger.completed hr hstate hop)
  · intro pure outcome row d' _ _ hcommands hrow r hr hstate _
    rw [hcommands] at hr
    rcases List.mem_append.1 hr with hr | hr
    · exact Or.inl hr
    · rw [List.mem_singleton.1 hr] at hstate ⊢
      rcases hrow.answer with ⟨result, -, -, hresult⟩ | ⟨code, -, hrejected, -⟩
      · exact Or.inr ⟨result, hresult⟩
      · rw [hrejected] at hstate
        cases hstate
  · intro request row d' result blobs locations location _ _ hregisters r hr _ _
    have hcommands : d'.commands = updateWhere (fun x => x.commandId = row.commandId)
        (fun _ => registeredCommand request location row) d.commands := by
      rw [hregisters.tables]
    rw [hcommands] at hr
    rcases mem_updateWhere_iff.1 hr with ⟨x, -, -, rfl⟩ | ⟨hr, -⟩
    · exact Or.inr (exists_replayResult hregisters.replays)
    · exact Or.inl hr

/-- **Every completed command of a reachable library** is answered with its
result. -/
theorem Reachable.resultsReplay (h : Reachable allowed d) :
    ResultsReplay d := by
  induction h with
  | empty => exact fun r hr => by cases hr
  | step context call _ _ ih => exact call.resultsReplay context ih

/-! ## Subjects -/

/-- A subject stays at its first revision. -/
theorem Reachable.subjectsFirst (h : Reachable allowed d) :
    ∀ s ∈ d.subjects, s.revision = 1 := by
  refine h.induct (P := fun t => ∀ s ∈ t.subjects, s.revision = 1) (fun s hs => by cases hs)
    fun d d' ih hchange => ?_
  generalize d'.toTables = t' at hchange
  cases hchange with
  | subjectCreated => exact forall_mem_append_singleton ih rfl
  | _ => exact ih

end MengXia.Store
