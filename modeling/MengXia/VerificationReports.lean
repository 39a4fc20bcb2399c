
import MengXia.Common.Paging
import MengXia.Common.Sha256
import MengXia.Common.Txn
import MengXia.Integrity
import MengXia.Numbered
/-!
# Verification reports

The owner of verification reports of the app crate: at most one run is
active at a time, a run counts what it finds and stores the first 4096
issues of it, and the last four finished reports are kept and listed in
pages. A system is the owner's state with the runs its callers hold, so
that any interleaving of their calls is a list of actions.
-/

namespace MengXia

open Common

variable {libraryId : BitVec 128} {index : ℕ}

/-! ## Cursors of issue pages -/

/-- `ISSUE_CURSOR_MAGIC`. -/
def issueCursorMagic : Bytes :=
  Text.utf8 "MXVCUR1".toList ++ [0]

/-- The first 64 bytes of a cursor, field by field. -/
def issueCursorFields (libraryId : BitVec 128) (verificationId : Id .verificationReport)
    (nextOrdinal : ℕ) : List Bytes :=
  [issueCursorMagic, beBytes 2 1, beBytes 2 96, beBytes 4 3, beBytes 16 libraryId.toNat,
    verificationId.uuid.toBytes, beBytes 4 nextOrdinal, List.replicate 12 0]

/-- `encode_issue_cursor`. -/
def encodeIssueCursor (libraryId : BitVec 128) (verificationId : Id .verificationReport)
    (nextOrdinal : ℕ) : AssetResult Bytes :=
  if libraryId = 0 ∨ nextOrdinal = 0 then .error .internal
  else
    let record := (issueCursorFields libraryId verificationId nextOrdinal).flatten
    .ok (record ++ Digest.toBytes ⟨sha256 record⟩)

/-- `decode_issue_cursor`. -/
def decodeIssueCursor (cursor : Bytes) (expectedLibraryId : BitVec 128)
    (expectedVerificationId : Id .verificationReport) : AssetResult ℕ :=
  if cursor.length ≠ 96 then .error .validation
  else if slice cursor 0 8 ≠ issueCursorMagic ∨ ofBeBytes (slice cursor 8 10) ≠ 1 ∨
      ofBeBytes (slice cursor 10 12) ≠ 96 ∨ ofBeBytes (slice cursor 12 16) ≠ 3 ∨
      slice cursor 16 32 ≠ beBytes 16 expectedLibraryId.toNat ∨
      slice cursor 32 48 ≠ expectedVerificationId.uuid.toBytes ∨
      (slice cursor 52 64).any (· ≠ 0) ∨
      Digest.toBytes ⟨sha256 (slice cursor 0 64)⟩ ≠ slice cursor 64 96 then .error .validation
  else if ofBeBytes (slice cursor 48 52) = 0 then .error .validation
  else .ok (ofBeBytes (slice cursor 48 52))

/-- The widths of the fields of an issue cursor. -/
def issueCursorWidths : List ℕ := [8, 2, 2, 4, 16, 16, 4, 12]

theorem map_length_issueCursorFields (libraryId : BitVec 128)
    (verificationId : Id .verificationReport) (nextOrdinal : ℕ) :
    (issueCursorFields libraryId verificationId nextOrdinal).map List.length =
      issueCursorWidths := by
  have hmagic : issueCursorMagic.length = 8 := by decide
  simp [issueCursorFields, issueCursorWidths, hmagic]

/-- **The decoder accepts the cursors of ordinals that fit**, and no other bytes. -/
theorem decodeIssueCursor_eq_ok (hlibrary : libraryId ≠ 0)
    {verificationId : Id .verificationReport} {bytes : Bytes} {ordinal : ℕ} :
    decodeIssueCursor bytes libraryId verificationId = .ok ordinal ↔
      0 < ordinal ∧ ordinal < 2 ^ 32 ∧
        encodeIssueCursor libraryId verificationId ordinal = .ok bytes := by
  have hrecord := @eq_sealed_iff _ _ _ (map_length_issueCursorFields libraryId verificationId
    ordinal) (fun record => Digest.toBytes ⟨sha256 record⟩) 32 (fun _ => Digest.length_toBytes _)
    bytes
  have hpositive (x : ℕ) : ¬ x = 0 ∧ x = ordinal ↔ ¬ ordinal = 0 ∧ x = ordinal := by omega
  simp only [decodeIssueCursor, encodeIssueCursor, refusal_eq_ok, not_or, not_not,
    Except.ok.injEq, hrecord, hpositive, Nat.pos_iff_ne_zero]
  by_cases hlength : bytes.length = 96
  -- each check of the decoder says of one field what the record has there
  · simp only [hlength, any_slice_ne_zero_iff, ofBeBytes_slice_eq_iff, issueCursorFields,
      issueCursorWidths, fieldsAt, List.cons.injEq, Nat.reduceAdd, Nat.reduceLeDiff, not_not,
      Nat.reduceSub, Nat.reducePow, Nat.reduceLT, List.sum_cons, List.sum_nil, true_and, and_true]
    tauto
  · simp [hlength, issueCursorWidths]

/-- **A cursor is read back as the ordinal it was written for.** -/
theorem decodeIssueCursor_encode (hlibrary : libraryId ≠ 0)
    (verificationId : Id .verificationReport) {nextOrdinal : ℕ} (hpositive : 0 < nextOrdinal)
    (hbounded : nextOrdinal < 2 ^ 32) :
    ∃ bytes, encodeIssueCursor libraryId verificationId nextOrdinal = .ok bytes ∧
      bytes.length = 96 ∧ decodeIssueCursor bytes libraryId verificationId = .ok nextOrdinal := by
  have hencode : ∃ bytes, encodeIssueCursor libraryId verificationId nextOrdinal = .ok bytes :=
    ⟨_, if_neg (not_or.2 ⟨hlibrary, Nat.pos_iff_ne_zero.1 hpositive⟩)⟩
  obtain ⟨bytes, hencode⟩ := hencode
  have hdecode := (decodeIssueCursor_eq_ok hlibrary).2 ⟨hpositive, hbounded, hencode⟩
  exact ⟨bytes, hencode, not_not.1 (refusal_eq_ok.1 hdecode).1, hdecode⟩

theorem onlyFails_decodeIssueCursor {verificationId : Id .verificationReport} {bytes : Bytes} :
    OnlyFails .validation (decodeIssueCursor bytes libraryId verificationId) :=
  .ite .error (.ite .error (.ite .error .ok))

/-! ## Runs -/

/-- The arguments of `record_issue`. -/
structure IssueInput where
  kind : IntegrityIssueKind
  severity : IntegritySeverity
  objectKind : IntegrityObjectKind
  objectId : Option IntegrityObjectId
  remediation : IntegrityRemediation
  deriving DecidableEq

/-- The checks of `IntegrityIssue::new`. -/
def IssueInput.isIssue (input : IssueInput) (ordinal : ℕ) : Prop :=
  0 < ordinal ∧ ordinal < 2 ^ 32 ∧ input.severity = input.kind.expectedSeverity ∧
    input.objectKind.admits input.objectId = true

instance (input : IssueInput) (ordinal : ℕ) : Decidable (input.isIssue ordinal) :=
  inferInstanceAs (Decidable (0 < ordinal ∧ ordinal < 2 ^ 32 ∧
    input.severity = input.kind.expectedSeverity ∧
    input.objectKind.admits input.objectId = true))

/-- `IntegrityIssue::new`, of a `u32`. -/
def IntegrityIssue.new (ordinal : ℕ) (input : IssueInput) : AssetResult IntegrityIssue :=
  if h : input.isIssue ordinal then
    .ok { kind := input.kind
          severity := input.severity
          objectKind := input.objectKind
          objectId := input.objectId
          remediation := input.remediation
          expected := h.2.2.1
          admitted := h.2.2.2
          ordinal := ordinal
          positive := h.1
          bounded := h.2.1 }
  else .error .internal

/-- What an issue was made of. -/
def IntegrityIssue.entry (issue : IntegrityIssue) : IssueInput × ℕ :=
  (⟨issue.kind, issue.severity, issue.objectKind, issue.objectId, issue.remediation⟩,
    issue.ordinal)

/-- `STORED_ISSUES_MAX`. -/
def storedIssuesMax : ℕ := 4096

/-- `VerificationRun`, as its owner sees it before it is finished. -/
structure VerificationRun where
  verificationId : Id .verificationReport
  mode : VerificationMode
  snapshotCommitSequence : Option ℕ
  discoveredIssueCount : ℕ
  issues : List IntegrityIssue
  hasFatalLocalIssue : Bool
  hasCustodyDegradation : Bool
  firstFatalIssue : Option IntegrityIssue

/-- `VerificationRun::bind_snapshot`; the sequence is replaced even when the call fails. -/
def VerificationRun.bindSnapshot (run : VerificationRun) (sequence : ℕ) :
    AssetResult Unit × VerificationRun :=
  (if run.snapshotCommitSequence.isSome then .error .internal else .ok (),
    { run with snapshotCommitSequence := some sequence })

/-- The last part of `record_issue`, for an issue that could be built. -/
def VerificationRun.addIssue (run : VerificationRun) (issue : IntegrityIssue) : VerificationRun :=
  { run with
    hasCustodyDegradation :=
      run.hasCustodyDegradation || decide (issue.severity = .degradedCustody)
    hasFatalLocalIssue := run.hasFatalLocalIssue || decide (issue.severity = .fatalLocal)
    firstFatalIssue :=
      if issue.severity = .fatalLocal then run.firstFatalIssue.or (some issue)
      else run.firstFatalIssue
    issues :=
      if run.issues.length < storedIssuesMax then run.issues ++ [issue] else run.issues }

/-- The count of a run is raised. -/
def VerificationRun.counted (run : VerificationRun) : VerificationRun :=
  { run with discoveredIssueCount := run.discoveredIssueCount + 1 }

/-- `VerificationRun::record_issue`. The count is raised before the issue is
built, and stays raised when that fails. -/
def VerificationRun.recordIssue (run : VerificationRun) (input : IssueInput) :
    AssetResult Unit × VerificationRun :=
  if run.discoveredIssueCount + 1 < 2 ^ 64 then
    if run.discoveredIssueCount + 1 < 2 ^ 32 then
      match IntegrityIssue.new (run.discoveredIssueCount + 1) input with
      | .ok issue => (.ok (), run.counted.addIssue issue)
      | .error e => (.error e, run.counted)
    else (.error .internal, run.counted)
  else (.error .internal, run)

/-! ## Reports -/

/-- `VerificationSummary`. -/
structure VerificationSummary where
  verificationId : Id .verificationReport
  mode : VerificationMode
  snapshotCommitSequence : ℕ
  discoveredIssueCount : ℕ
  storedIssueCount : ℕ
  droppedIssueCount : ℕ
  hasFatalLocalIssue : Bool
  hasCustodyDegradation : Bool
  canonicalExtraClassificationDeferred : Bool
  firstFatalIssue : Option IntegrityIssue

/-- `VerificationSummary::__from_app`. -/
def VerificationSummary.fromApp (summary : VerificationSummary) :
    AssetResult VerificationSummary :=
  if summary.discoveredIssueCount < summary.storedIssueCount ∨
      summary.droppedIssueCount ≠ summary.discoveredIssueCount - summary.storedIssueCount ∨
      summary.hasFatalLocalIssue ≠ summary.firstFatalIssue.isSome then .error .internal
  else .ok summary

/-- `CompletedReport`. -/
structure CompletedReport where
  summary : VerificationSummary
  issues : List IntegrityIssue

/-- `ReportState`. -/
structure ReportState where
  active : Bool
  reports : List CompletedReport

/-- `COMPLETED_REPORTS_MAX` and `ID_ATTEMPTS_MAX`. -/
def completedReportsMax : ℕ := 4

def idAttemptsMax : ℕ := 8

/-- The loop of `begin` over candidate identifiers, drawn by index. -/
def drawReportId (source : ℕ → Except Unit (Id .verificationReport))
    (reports : List CompletedReport) : ℕ → ℕ → AssetResult (Id .verificationReport)
  | 0, _ => .error .idGenerationUnavailable
  | attempts + 1, index =>
    match source index with
    | .error _ => .error .idGenerationUnavailable
    | .ok candidate =>
      if reports.any fun report => report.summary.verificationId = candidate then
        drawReportId source reports attempts (index + 1)
      else .ok candidate

/-- `VerificationReportOwner::begin`. -/
def ReportState.begin (state : ReportState) (source : ℕ → Except Unit (Id .verificationReport))
    (mode : VerificationMode) : AssetResult (VerificationRun × ReportState) :=
  if state.active then .error .backpressure
  else do
    let verificationId ← drawReportId source state.reports idAttemptsMax 0
    pure (⟨verificationId, mode, none, 0, [], false, false, none⟩, { state with active := true })

/-- The report `finish` makes of a run. -/
def VerificationRun.report (run : VerificationRun) (deferred : Bool) :
    AssetResult CompletedReport :=
  if 2 ^ 32 ≤ run.issues.length ∨ run.discoveredIssueCount < run.issues.length then
    .error .internal
  else
    match run.snapshotCommitSequence with
    | none => .error .internal
    | some sequence => do
      let summary ← VerificationSummary.fromApp
        ⟨run.verificationId, run.mode, sequence, run.discoveredIssueCount, run.issues.length,
          run.discoveredIssueCount - run.issues.length, run.hasFatalLocalIssue,
          run.hasCustodyDegradation, deferred, run.firstFatalIssue⟩
      pure ⟨summary, run.issues⟩

/-- The drop handler of a run that was not finished. -/
def ReportState.release (state : ReportState) : ReportState :=
  { state with active := false }

/-- The reports after one more. -/
def ReportState.keep (state : ReportState) (report : CompletedReport) : ReportState where
  active := false
  reports :=
    (if state.reports.length = completedReportsMax then state.reports.tail else state.reports) ++
      [report]

/-- `VerificationRun::finish`, which consumes the run: on failure the drop
handler releases the owner. -/
def VerificationRun.finish (run : VerificationRun) (deferred : Bool) (state : ReportState) :
    AssetResult CompletedReport × ReportState :=
  match run.report deferred with
  | .error e => (.error e, state.release)
  | .ok report =>
    if !state.active then (.error .internal, state.release)
    else (.ok report, state.keep report)

/-- `IntegrityIssuePage`. -/
structure IntegrityIssuePage where
  verificationId : Id .verificationReport
  issues : List IntegrityIssue
  nextOrdinal : Option ℕ
  discoveredIssueCount : ℕ
  storedIssueCount : ℕ
  droppedIssueCount : ℕ

/-- `IntegrityIssuePage::__from_app`. -/
def IntegrityIssuePage.fromApp (page : IntegrityIssuePage) :
    AssetResult IntegrityIssuePage :=
  if 64 < page.issues.length ∨ page.discoveredIssueCount < page.storedIssueCount ∨
      page.droppedIssueCount ≠ page.discoveredIssueCount - page.storedIssueCount then
    .error .internal
  else .ok page

/-- `IntegrityIssueResponse`. -/
structure IntegrityIssueResponse where
  page : IntegrityIssuePage
  nextCursor : Option Bytes

/-- The part of `list_issues` behind its checks of the request. -/
def CompletedReport.page (report : CompletedReport) (libraryId : BitVec 128)
    (verificationId : Id .verificationReport) (pageSize start : ℕ) (hasCursor : Bool) :
    AssetResult IntegrityIssueResponse :=
  if report.issues.length < start ∨ hasCursor = true ∧ start = report.issues.length then
    .error .validation
  else
    let stop := min (start + pageSize) report.issues.length
    let nextOrdinal := if stop < report.issues.length then some (stop + 1) else none
    do
      let page ← IntegrityIssuePage.fromApp
        ⟨verificationId, slice report.issues start stop, nextOrdinal,
          report.summary.discoveredIssueCount, report.summary.storedIssueCount,
          report.summary.droppedIssueCount⟩
      match nextOrdinal with
      | none => pure ⟨page, none⟩
      | some ordinal => do
        let cursor ← encodeIssueCursor libraryId verificationId ordinal
        pure ⟨page, some cursor⟩

/-- The ordinal a request of `list_issues` starts at, and whether a cursor
gave it. -/
def issueStart (libraryId : BitVec 128) (verificationId : Id .verificationReport) :
    Option Bytes → AssetResult (ℕ × Bool)
  | none => .ok (1, false)
  | some [] => .ok (1, false)
  | some cursor => do
    let ordinal ← decodeIssueCursor cursor libraryId verificationId
    pure (ordinal, true)

/-- `VerificationReportOwner::list_issues`. -/
def ReportState.listIssues (state : ReportState) (libraryId : BitVec 128)
    (verificationId : Id .verificationReport) (pageSize : ℕ) (cursor : Option Bytes) :
    AssetResult IntegrityIssueResponse :=
  if ¬ (1 ≤ pageSize ∧ pageSize ≤ 64) then .error .validation
  else do
    let (nextOrdinal, hasCursor) ← issueStart libraryId verificationId cursor
    match state.reports.find? fun report => report.summary.verificationId = verificationId with
    | none => .error .notFound
    | some report => report.page libraryId verificationId pageSize (nextOrdinal - 1) hasCursor

/-! ## The system -/

/-- A run that a caller holds, with the calls of `record_issue` it has made
and whether one of them failed. -/
structure LiveRun where
  run : VerificationRun
  calls : List IssueInput
  failed : Bool

/-- The owner's state, the runs its callers hold, and all reports that were
finished, each with its run. -/
structure ReportSystem where
  state : ReportState
  live : List LiveRun
  finished : List (CompletedReport × LiveRun)

/-- One call of the owner or of a run, or the end of a run's scope. Runs are
named by their position among those that are held. -/
inductive ReportAction where
  | begin (source : ℕ → Except Unit (Id .verificationReport)) (mode : VerificationMode)
  | bindSnapshot (index : ℕ) (sequence : ℕ)
  | recordIssue (index : ℕ) (input : IssueInput)
  | finish (index : ℕ) (deferred : Bool)
  | drop (index : ℕ)

/-- `record_issue` on a held run. -/
def LiveRun.recordIssue (r : LiveRun) (input : IssueInput) : LiveRun where
  run := (r.run.recordIssue input).2
  calls := r.calls ++ [input]
  failed := r.failed || !(r.run.recordIssue input).1.isOk

namespace ReportSystem

/-- An owner at the start. -/
def empty : ReportSystem := ⟨⟨false, []⟩, [], []⟩

/-- A run is finished, or fails to be. -/
def finishRun (s : ReportSystem) (index : ℕ) (r : LiveRun) (deferred : Bool) : ReportSystem where
  state := (r.run.finish deferred s.state).2
  live := s.live.eraseIdx index
  finished :=
    match (r.run.finish deferred s.state).1 with
    | .ok report => s.finished ++ [(report, r)]
    | .error _ => s.finished

/-- The system after an action. -/
def step (s : ReportSystem) : ReportAction → ReportSystem
  | .begin source mode =>
    match s.state.begin source mode with
    | .error _ => s
    | .ok (run, state) => { s with state := state, live := s.live ++ [⟨run, [], false⟩] }
  | .bindSnapshot index sequence =>
    match s.live[index]? with
    | none => s
    | some r =>
      { s with live := s.live.set index { r with run := (r.run.bindSnapshot sequence).2 } }
  | .recordIssue index input =>
    match s.live[index]? with
    | none => s
    | some r => { s with live := s.live.set index (r.recordIssue input) }
  | .finish index deferred =>
    match s.live[index]? with
    | none => s
    | some r => s.finishRun index r deferred
  | .drop index =>
    match s.live[index]? with
    | none => s
    | some _ => { s with state := s.state.release, live := s.live.eraseIdx index }

/-- The system after a list of actions. -/
def after (actions : List ReportAction) : ReportSystem :=
  actions.foldl step empty

end ReportSystem

/-! ## What a run holds -/

theorem IntegrityIssue.entry_of_new {ordinal : ℕ} {input : IssueInput} {issue : IntegrityIssue}
    (h : IntegrityIssue.new ordinal input = .ok issue) : issue.entry = (input, ordinal) := by
  unfold IntegrityIssue.new at h
  split at h
  · cases h
    rfl
  · cases h

/-- What holds of the counts of a run, whatever calls have failed. -/
structure VerificationRun.Counts (run : VerificationRun) : Prop where
  stored : run.issues.length ≤ run.discoveredIssueCount
  bounded : run.issues.length ≤ storedIssuesMax
  fatal : run.hasFatalLocalIssue = run.firstFatalIssue.isSome

/-- An entry that is fatal. -/
def isFatalEntry (entry : IssueInput × ℕ) : Bool :=
  entry.1.severity = .fatalLocal

/-- A run has stored the first issues it was told, numbered from 1, and the
first fatal one. -/
structure VerificationRun.Exact (run : VerificationRun) (calls : List IssueInput) : Prop where
  discovered : run.discoveredIssueCount = calls.length
  issues : run.issues.map IntegrityIssue.entry = (calls.take storedIssuesMax).zipIdx 1
  firstFatal : run.firstFatalIssue.map IntegrityIssue.entry = (calls.zipIdx 1).find? isFatalEntry

theorem VerificationRun.Exact.length {run : VerificationRun} {calls : List IssueInput}
    (h : run.Exact calls) : run.issues.length = min storedIssuesMax calls.length := by
  have hlength := congrArg List.length h.issues
  rwa [List.length_map, List.length_zipIdx, List.length_take] at hlength

/-- **What a call of `record_issue` does**: it fails, with the count raised or
not, or it adds the issue. -/
theorem VerificationRun.recordIssue_cases (run : VerificationRun) (input : IssueInput) :
    (∃ e, run.recordIssue input = (.error e, run)) ∨
      (∃ e, run.recordIssue input = (.error e, run.counted)) ∨
      ∃ issue, issue.entry = (input, run.discoveredIssueCount + 1) ∧
        run.recordIssue input = (.ok (), run.counted.addIssue issue) := by
  unfold VerificationRun.recordIssue
  split
  · split
    · cases hnew : IntegrityIssue.new (run.discoveredIssueCount + 1) input with
      | error e => exact Or.inr (Or.inl ⟨e, rfl⟩)
      | ok issue => exact Or.inr (Or.inr ⟨issue, IntegrityIssue.entry_of_new hnew, rfl⟩)
    · exact Or.inr (Or.inl ⟨_, rfl⟩)
  · exact Or.inl ⟨_, rfl⟩

/-- One more issue is counted. -/
theorem VerificationRun.Counts.addIssue {run : VerificationRun} (h : run.Counts)
    (issue : IntegrityIssue) : (run.counted.addIssue issue).Counts := by
  obtain ⟨hstored, hbounded, hfatal⟩ := h
  unfold VerificationRun.addIssue VerificationRun.counted
  refine ⟨?_, ?_, ?_⟩
  · dsimp only
    split
    · rw [List.length_append]
      exact Nat.succ_le_succ hstored
    · exact Nat.le_succ_of_le hstored
  · dsimp only
    split
    · rename_i hroom
      rw [List.length_append]
      exact hroom
    · exact hbounded
  · dsimp only
    by_cases hsevere : issue.severity = .fatalLocal
    · cases run.firstFatalIssue <;> simp [hsevere]
    · simp [hsevere, hfatal]

/-- **One more issue is stored while there is room**, and is the first fatal
one if none was before it. -/
theorem VerificationRun.Exact.addIssue {run : VerificationRun} {calls : List IssueInput}
    (h : run.Exact calls) {input : IssueInput} {issue : IntegrityIssue}
    (hentry : issue.entry = (input, run.discoveredIssueCount + 1)) :
    (run.counted.addIssue issue).Exact (calls ++ [input]) := by
  have hlength := h.length
  obtain ⟨hdiscovered, hissues, hfirst⟩ := h
  rw [hdiscovered] at hentry
  have hsevere : issue.severity = input.severity := congrArg (fun e => e.1.severity) hentry
  have hzip : (calls ++ [input]).zipIdx 1 = calls.zipIdx 1 ++ [(input, calls.length + 1)] := by
    rw [List.zipIdx_append, List.zipIdx_singleton, Nat.add_comm]
  unfold VerificationRun.addIssue VerificationRun.counted
  refine ⟨?_, ?_, ?_⟩
  · simp [hdiscovered]
  · dsimp only
    split
    · rename_i hroom
      have hfew : calls.length < storedIssuesMax := by omega
      rw [List.take_of_length_le (Nat.le_of_lt hfew)] at hissues
      rw [List.map_append, hissues, List.take_of_length_le (by simpa using Nat.succ_le_of_lt hfew),
        hzip, List.map_singleton, hentry]
    · rename_i hfull
      rw [hissues, List.take_append_of_le_length (by omega)]
  · dsimp only
    rw [hzip, List.find?_append, ← hfirst, hsevere]
    by_cases hfatal : input.severity = .fatalLocal
    · rw [if_pos hfatal]
      cases run.firstFatalIssue <;> simp [hentry, isFatalEntry, hfatal]
    · rw [if_neg hfatal]
      cases run.firstFatalIssue <;> simp [isFatalEntry, hfatal]

/-- What holds of a run that is held. -/
structure LiveRun.Sound (r : LiveRun) : Prop where
  counts : r.run.Counts
  exact : r.failed = false → r.run.Exact r.calls

/-- **A call of `record_issue` keeps a run sound**, whether it fails or not. -/
theorem LiveRun.Sound.recordIssue {r : LiveRun} (h : r.Sound) (input : IssueInput) :
    (r.recordIssue input).Sound := by
  unfold LiveRun.recordIssue
  rcases r.run.recordIssue_cases input with ⟨e, hrun⟩ | ⟨e, hrun⟩ | ⟨issue, hentry, hrun⟩
  · rw [hrun]
    exact ⟨h.counts, fun hok => by simp [Except.isOk, Except.toBool] at hok⟩
  · rw [hrun]
    exact ⟨⟨Nat.le_succ_of_le h.counts.stored, h.counts.bounded, h.counts.fatal⟩,
      fun hok => by simp [Except.isOk, Except.toBool] at hok⟩
  · rw [hrun]
    refine ⟨h.counts.addIssue issue, fun hok => ?_⟩
    simp only [Except.isOk, Except.toBool, Bool.not_true, Bool.or_false] at hok
    exact (h.exact hok).addIssue hentry

/-! ## What a report holds -/

/-- A report of a run: its issues, and the counts of them. -/
structure CompletedReport.Of (report : CompletedReport) (run : VerificationRun) : Prop where
  id : report.summary.verificationId = run.verificationId
  issues : report.issues = run.issues
  discovered : report.summary.discoveredIssueCount = run.discoveredIssueCount
  stored : report.summary.storedIssueCount = run.issues.length
  dropped : report.summary.droppedIssueCount = run.discoveredIssueCount - run.issues.length
  firstFatal : report.summary.firstFatalIssue = run.firstFatalIssue

theorem VerificationRun.report_eq_ok {run : VerificationRun} {deferred : Bool}
    {report : CompletedReport} (h : run.report deferred = .ok report) : report.Of run := by
  unfold VerificationRun.report at h
  obtain ⟨-, h⟩ := refusal_eq_ok.1 h
  split at h
  · cases h
  · obtain ⟨summary, hsummary, h⟩ := exceptBind_eq_ok.1 h
    cases h
    unfold VerificationSummary.fromApp at hsummary
    obtain ⟨-, hsummary⟩ := refusal_eq_ok.1 hsummary
    cases hsummary
    exact ⟨rfl, rfl, rfl, rfl, rfl, rfl⟩

/-! ## Every interleaving -/

/-- The id of a report. -/
def CompletedReport.id (report : CompletedReport) : Id .verificationReport :=
  report.summary.verificationId

theorem drawReportId_fresh {source : ℕ → Except Unit (Id .verificationReport)}
    {reports : List CompletedReport} {attempts : ℕ} {id : Id .verificationReport}
    (h : drawReportId source reports attempts index = .ok id) :
    ∀ report ∈ reports, report.id ≠ id := by
  induction attempts generalizing index with
  | zero => cases h
  | succ attempts ih =>
    unfold drawReportId at h
    split at h
    · cases h
    · split at h
      · exact ih h
      · rename_i hnone
        cases h
        intro report hreport hid
        exact hnone (List.any_eq_true.2 ⟨report, hreport, decide_eq_true hid⟩)

/-- What every interleaving keeps. -/
structure ReportSystem.Invariant (s : ReportSystem) : Prop where
  single : s.live.length = if s.state.active then 1 else 0
  sound : ∀ r ∈ s.live, r.Sound
  fresh : ∀ r ∈ s.live, ∀ report ∈ s.state.reports, report.id ≠ r.run.verificationId
  finished : ∀ p ∈ s.finished, p.2.Sound ∧ p.1.Of p.2.run
  kept : s.state.reports =
    (s.finished.map Prod.fst).drop (s.finished.length - completedReportsMax)
  distinct : Distinct CompletedReport.id s.state.reports

namespace ReportSystem.Invariant

variable {s : ReportSystem}

theorem empty : Invariant ReportSystem.empty :=
  ⟨rfl, fun r hr => (by cases hr), fun r hr => (by cases hr), fun p hp => (by cases hp), rfl,
    List.nodup_nil⟩

/-- A run that is held is the only one. -/
theorem only (h : s.Invariant) {r : LiveRun} (hr : s.live[index]? = some r) :
    s.live = [r] ∧ index = 0 ∧ s.state.active = true := by
  have hsingle := h.single
  obtain ⟨hindex, hget⟩ := List.getElem?_eq_some_iff.1 hr
  cases hactive : s.state.active with
  | false =>
    rw [hactive] at hsingle
    rw [if_neg (by decide)] at hsingle
    omega
  | true =>
    rw [hactive, if_pos rfl] at hsingle
    obtain ⟨x, hx⟩ := List.length_eq_one_iff.1 hsingle
    obtain rfl : index = 0 := by omega
    rw [hx] at hr
    exact ⟨hx.trans (by rw [Option.some.inj hr]), rfl, rfl⟩

/-- A held run is replaced by one of the same report. -/
theorem set (h : s.Invariant) {r r' : LiveRun} (hr : s.live[index]? = some r)
    (hid : r'.run.verificationId = r.run.verificationId) (hsound : r'.Sound) :
    Invariant { s with live := s.live.set index r' } := by
  obtain ⟨hlive, rfl, -⟩ := h.only hr
  refine ⟨?_, ?_, ?_, h.finished, h.kept, h.distinct⟩
  · rw [List.length_set]
    exact h.single
  · rw [hlive]
    exact fun x hx => List.mem_singleton.1 hx ▸ hsound
  · rw [hlive]
    intro x hx report hreport
    rw [List.mem_singleton.1 hx, hid]
    exact h.fresh r (hlive ▸ List.mem_singleton.2 rfl) report hreport

/-- A held run goes out of scope. -/
theorem release (h : s.Invariant) {r : LiveRun} (hr : s.live[index]? = some r) :
    Invariant { s with state := s.state.release, live := s.live.eraseIdx index } := by
  obtain ⟨hlive, rfl, -⟩ := h.only hr
  have hnone : s.live.eraseIdx 0 = [] := by rw [hlive]; rfl
  rw [hnone]
  exact ⟨rfl, fun r hr => (by cases hr), fun r hr => (by cases hr), h.finished, h.kept,
    h.distinct⟩

/-- **One more report** is kept, and the oldest one goes when there are four. -/
theorem keep_eq {finished : List (CompletedReport × LiveRun)} {state : ReportState}
    (h : state.reports = (finished.map Prod.fst).drop (finished.length - completedReportsMax))
    (report : CompletedReport) (r : LiveRun) :
    (state.keep report).reports = ((finished ++ [(report, r)]).map Prod.fst).drop
      ((finished ++ [(report, r)]).length - completedReportsMax) := by
  have hlength : state.reports.length = finished.length - (finished.length - 4) := by
    rw [h, List.length_drop, List.length_map]
    rfl
  unfold ReportState.keep
  rw [List.map_append, List.length_append, List.length_singleton]
  unfold completedReportsMax at h ⊢
  by_cases hfull : state.reports.length = 4
  · have hstart : finished.length + 1 - 4 = finished.length - 4 + 1 := by omega
    simp only [if_pos hfull]
    rw [hstart, List.drop_append_of_le_length (by simp; omega), h, List.tail_drop]
    rfl
  · have hzero : finished.length - 4 = 0 ∧ finished.length + 1 - 4 = 0 := by omega
    rw [hzero.1, List.drop_zero] at h
    simp only [if_neg hfull]
    rw [hzero.2, h]
    rfl

/-- **A run is finished.** -/
theorem finishRun (h : s.Invariant) {r : LiveRun} (hr : s.live[index]? = some r) (deferred : Bool) :
    Invariant (s.finishRun index r deferred) := by
  obtain ⟨hlive, hindex, hactive⟩ := h.only hr
  have hmem : r ∈ s.live := hlive ▸ List.mem_singleton.2 rfl
  cases hreport : r.run.report deferred with
  | error e =>
    have hfinish : r.run.finish deferred s.state = (.error e, s.state.release) := by
      simp only [VerificationRun.finish, hreport]
    unfold ReportSystem.finishRun
    rw [hfinish]
    exact h.release hr
  | ok report =>
    have hfinish : r.run.finish deferred s.state = (.ok report, s.state.keep report) := by
      simp [VerificationRun.finish, hreport, hactive]
    have hof := VerificationRun.report_eq_ok hreport
    have hnone : s.live.eraseIdx index = [] := by
      rw [hlive, hindex]
      rfl
    unfold ReportSystem.finishRun
    rw [hfinish, hnone]
    refine ⟨rfl, fun r hr => (by cases hr), fun r hr => (by cases hr), ?_,
      keep_eq h.kept report r, ?_⟩
    · refine forall_mem_append_singleton h.finished ⟨h.sound r hmem, hof⟩
    · have hrest : Distinct CompletedReport.id (if s.state.reports.length = completedReportsMax
          then s.state.reports.tail else s.state.reports) := by
        split
        · exact List.Nodup.sublist ((List.tail_sublist _).map _) h.distinct
        · exact h.distinct
      refine hrest.append fun x hx => ?_
      have hx' : x ∈ s.state.reports := by
        split at hx
        · exact List.mem_of_mem_tail hx
        · exact hx
      have hid : report.id = r.run.verificationId := hof.id
      rw [hid]
      exact h.fresh r hmem x hx'

/-- **Every action keeps the invariant.** -/
theorem step (h : s.Invariant) (action : ReportAction) : Invariant (s.step action) := by
  cases action with
  | begin source mode =>
    simp only [ReportSystem.step]
    split
    · exact h
    · rename_i run state hbegin
      unfold ReportState.begin at hbegin
      obtain ⟨hidle, hbegin⟩ := refusal_eq_ok.1 hbegin
      obtain ⟨id, hdrawn, hbegun⟩ := exceptBind_eq_ok.1 hbegin
      cases hbegun
      have hnone : s.live = [] := by
        have hsingle := h.single
        rw [if_neg hidle] at hsingle
        exact List.length_eq_zero_iff.1 hsingle
      rw [hnone]
      refine ⟨rfl, fun r hr => ?_, fun r hr => ?_, h.finished, h.kept, h.distinct⟩
      · rw [List.nil_append, List.mem_singleton] at hr
        rw [hr]
        exact ⟨⟨Nat.le_refl _, Nat.zero_le _, rfl⟩, fun _ => ⟨rfl, rfl, rfl⟩⟩
      · rw [List.nil_append, List.mem_singleton] at hr
        rw [hr]
        exact drawReportId_fresh hdrawn
  | bindSnapshot index sequence =>
    simp only [ReportSystem.step]
    split
    · exact h
    · rename_i r hr
      have hsound := h.sound r (List.mem_of_getElem? hr)
      exact h.set hr rfl ⟨⟨hsound.counts.stored, hsound.counts.bounded, hsound.counts.fatal⟩,
        fun hok => ⟨(hsound.exact hok).discovered, (hsound.exact hok).issues,
          (hsound.exact hok).firstFatal⟩⟩
  | recordIssue index input =>
    simp only [ReportSystem.step]
    split
    · exact h
    · rename_i r hr
      refine h.set hr ?_ ((h.sound r (List.mem_of_getElem? hr)).recordIssue input)
      unfold LiveRun.recordIssue
      rcases r.run.recordIssue_cases input with ⟨e, hrun⟩ | ⟨e, hrun⟩ | ⟨issue, -, hrun⟩ <;>
        rw [hrun] <;> rfl
  | finish index deferred =>
    simp only [ReportSystem.step]
    split
    · exact h
    · rename_i r hr
      exact h.finishRun hr deferred
  | drop index =>
    simp only [ReportSystem.step]
    split
    · exact h
    · rename_i r hr
      exact h.release hr

/-- **Every list of actions** leads to a system that meets it. -/
theorem after (actions : List ReportAction) : Invariant (ReportSystem.after actions) := by
  unfold ReportSystem.after
  have hrun : ∀ s : ReportSystem, s.Invariant → Invariant (actions.foldl ReportSystem.step s) := by
    induction actions with
    | nil => exact fun s hs => hs
    | cons action actions ih => exact fun s hs => ih _ (hs.step action)
  exact hrun _ empty

/-- A kept report was finished. -/
theorem mem_finished (h : s.Invariant) {report : CompletedReport}
    (hreport : report ∈ s.state.reports) :
    ∃ r : LiveRun, r.Sound ∧ report.Of r.run := by
  rw [h.kept] at hreport
  obtain ⟨p, hp, rfl⟩ := List.mem_map.1 (List.mem_of_mem_drop hreport)
  exact ⟨p.2, h.finished p hp⟩

/-- A kept report is found by its id. -/
theorem find (h : s.Invariant) {report : CompletedReport} (hreport : report ∈ s.state.reports) :
    s.state.reports.find? (fun x => x.summary.verificationId = report.id) = some report :=
  h.distinct.find?_eq hreport

end ReportSystem.Invariant

/-! ## Listing a kept report -/

/-- A state that keeps a report, and a page size that is admitted. -/
def KeepsReport (report : CompletedReport) (step : ReportState × ℕ) : Prop :=
  step.1.reports.find? (fun x => x.summary.verificationId = report.id) = some report ∧
    1 ≤ step.2 ∧ step.2 ≤ 64

/-- A reader who has seen the first `m` issues of a report asks for more. -/
structure ReadsAt (libraryId : BitVec 128) (report : CompletedReport) (m : ℕ)
    (cursor : Option Bytes) (step : ReportState × ℕ) : Prop where
  keeps : KeepsReport report step
  start : cursor = none ∧ m = 0 ∨ ∃ bytes, cursor = some bytes ∧ bytes ≠ [] ∧
    m < report.issues.length ∧ decodeIssueCursor bytes libraryId report.id = .ok (m + 1)

/-- A page shows the issues from one position to another. -/
def ShowsIssues (report : CompletedReport) (m m' : ℕ) (_ : ReportState × ℕ)
    (answer : IntegrityIssueResponse) : Prop :=
  m ≤ m' ∧ answer.page.issues = (report.issues.drop m).take (m' - m)

/-- The start of a page is read from the cursor. -/
theorem ReadsAt.issueStart {report : CompletedReport} {m : ℕ} {cursor : Option Bytes}
    {step : ReportState × ℕ} (h : ReadsAt libraryId report m cursor step) :
    ∃ hasCursor, MengXia.issueStart libraryId report.id cursor = .ok (m + 1, hasCursor) ∧
      ¬ (report.issues.length < m ∨ hasCursor = true ∧ m = report.issues.length) := by
  rcases h.start with ⟨rfl, rfl⟩ | ⟨bytes, rfl, hne, hlt, hdecode⟩
  · exact ⟨false, rfl, by simp⟩
  · refine ⟨true, ?_, by omega⟩
    cases bytes with
    | nil => exact absurd rfl hne
    | cons byte bytes =>
      simp only [MengXia.issueStart, hdecode, bind, Except.bind]
      rfl

/-- **One page** shows what fits on it, and goes on behind it. -/
theorem ReadsAt.exists_answer (hlibrary : libraryId ≠ 0) {report : CompletedReport} {r : LiveRun}
    (hsound : r.Sound) (hof : report.Of r.run) {m : ℕ} {cursor : Option Bytes}
    {step : ReportState × ℕ} (h : ReadsAt libraryId report m cursor step) :
    ∃ answer m', step.1.listIssues libraryId report.id step.2 cursor = .ok answer ∧
      ShowsIssues report m m' step answer ∧
      (answer.nextCursor = none ∧ m' = report.issues.length ∨
        ∃ c, answer.nextCursor = some c ∧ m < m' ∧ m' < report.issues.length ∧
          ∀ step', KeepsReport report step' → ReadsAt libraryId report m' (some c) step') := by
  obtain ⟨hasCursor, hstart, hwithin⟩ := h.issueStart
  obtain ⟨hfind, hsize⟩ := h.keeps
  have hm : m ≤ report.issues.length := by omega
  have hstored : r.run.issues.length ≤ r.run.discoveredIssueCount := hsound.counts.stored
  have hbounded : report.issues.length ≤ 4096 := by
    rw [hof.issues]
    exact hsound.counts.bounded
  generalize hstop : min (m + step.2) report.issues.length = stop
  have hshown : (slice report.issues m stop).length ≤ 64 := by
    rw [length_slice (by omega)]
    omega
  have hpage : ∀ next, IntegrityIssuePage.fromApp ⟨report.id, slice report.issues m stop, next,
      report.summary.discoveredIssueCount, report.summary.storedIssueCount,
      report.summary.droppedIssueCount⟩ = .ok ⟨report.id, slice report.issues m stop, next,
      report.summary.discoveredIssueCount, report.summary.storedIssueCount,
      report.summary.droppedIssueCount⟩ := by
    intro next
    refine if_neg ?_
    rw [hof.discovered, hof.stored, hof.dropped]
    simp only [not_or, not_not, Nat.not_lt]
    exact ⟨hshown, hstored, trivial⟩
  -- what is left of `list_issues` once its request is admitted
  have hlist : step.1.listIssues libraryId report.id step.2 cursor =
      report.page libraryId report.id step.2 m hasCursor := by
    unfold ReportState.listIssues
    rw [if_neg (not_not.2 hsize), hstart]
    simp only [bind, Except.bind, hfind, Nat.add_sub_cancel]
  rw [hlist]
  unfold CompletedReport.page
  rw [if_neg hwithin]
  simp only [hstop, hpage, bind, Except.bind]
  by_cases hmore : stop < report.issues.length
  · obtain ⟨bytes, hencode, hlength, hdecode⟩ := decodeIssueCursor_encode hlibrary report.id
      (Nat.succ_pos stop) (by omega)
    rw [if_pos hmore]
    refine ⟨_, stop, by simp only [hencode]; rfl, ⟨by omega, rfl⟩,
      Or.inr ⟨bytes, rfl, by omega, hmore, fun step' hkeeps => ⟨hkeeps, Or.inr ?_⟩⟩⟩
    exact ⟨bytes, rfl, List.ne_nil_of_length_pos (by omega), hmore, hdecode⟩
  · rw [if_neg hmore]
    exact ⟨_, stop, rfl, ⟨by omega, rfl⟩, Or.inl ⟨rfl, by omega⟩⟩

/-- **Following the cursors of a kept report** returns its issues once each,
in order. -/
theorem follow_issues (hlibrary : libraryId ≠ 0) {report : CompletedReport} {r : LiveRun}
    (hsound : r.Sound) (hof : report.Of r.run) {step : ReportState × ℕ}
    (hstep : KeepsReport report step) {steps : List (ReportState × ℕ)}
    (hsteps : ∀ step ∈ steps, KeepsReport report step) :
    ∃ pages, follow IntegrityIssueResponse.nextCursor
        (fun step => step.1.listIssues libraryId report.id step.2) (step :: steps) none =
          .ok pages ∧
      (report.issues.length ≤ steps.length + 1 → pages.isSome = true) ∧
      ∀ all ∈ pages, (all.flatMap fun page => page.2.page.issues) = report.issues := by
  have hfirst : ReadsAt libraryId report 0 none step := ⟨hstep, Or.inl ⟨rfl, rfl⟩⟩
  obtain ⟨pages, hfollow, hends, hcovers⟩ := @exists_follow _ _ _ _
    IntegrityIssueResponse.nextCursor (fun step => step.1.listIssues libraryId report.id step.2)
    (KeepsReport report) (ReadsAt libraryId report) (ShowsIssues report) _
    (fun _ _ _ h => h.exists_answer hlibrary hsound hof) _ hsteps _ _ _ hfirst
  refine ⟨pages, hfollow, hends, fun all hall => ?_⟩
  have hpart : ∀ {m m' n : ℕ}, m ≤ m' → m' ≤ n → (report.issues.drop m).take (n - m) =
      (report.issues.drop m).take (m' - m) ++ (report.issues.drop m').take (n - m') :=
    fun h h' => take_drop_append report.issues h h'
  have hshown : List.Forall₂ Eq ((report.issues.drop 0).take (report.issues.length - 0))
      (all.flatMap fun page => page.2.page.issues) :=
    (Covers.forall₂ hpart (hcovers all hall).2 fun m m' s answer h =>
      ⟨h.1, h.2 ▸ List.forall₂_refl _⟩).2
  rw [List.forall₂_eq_eq_eq, List.drop_zero, Nat.sub_zero, List.take_length] at hshown
  exact hshown.symm

/-! ## The owner -/

/-- The states and page sizes of later requests. -/
def requestsAfter (schedule : List (List ReportAction × ℕ)) : List (ReportState × ℕ) :=
  schedule.map fun request => ((ReportSystem.after request.1).state, request.2)

/-- **Verification reports are exact.** After any actions at most one run is
active. A finished report none of whose `record_issue` calls failed stores
exactly the first 4096 of them, numbered from 1 in their order, counts the
rest as dropped, and names the first fatal one, stored or not. The last
four finished reports are kept, and following the cursors of one of them
with any page sizes returns its issues once each, in order. -/
theorem verification_reports_exact (actions : List ReportAction) :
    (ReportSystem.after actions).live.length =
        (if (ReportSystem.after actions).state.active then 1 else 0) ∧
    (∀ p ∈ (ReportSystem.after actions).finished, p.2.failed = false →
      p.1.issues.map IntegrityIssue.entry = (p.2.calls.take 4096).zipIdx 1 ∧
      p.1.summary.discoveredIssueCount = p.2.calls.length ∧
      p.1.summary.storedIssueCount = p.1.issues.length ∧
      p.1.summary.droppedIssueCount =
        p.1.summary.discoveredIssueCount - p.1.summary.storedIssueCount ∧
      p.1.summary.firstFatalIssue.map IntegrityIssue.entry =
        (p.2.calls.zipIdx 1).find? isFatalEntry) ∧
    (ReportSystem.after actions).state.reports =
      ((ReportSystem.after actions).finished.map Prod.fst).drop
        ((ReportSystem.after actions).finished.length - 4) ∧
    ∀ libraryId : BitVec 128, libraryId ≠ 0 →
      ∀ report ∈ (ReportSystem.after actions).state.reports,
      ∀ (pageSize : ℕ) (schedule : List (List ReportAction × ℕ)), 1 ≤ pageSize → pageSize ≤ 64 →
      (∀ request ∈ schedule, report ∈ (ReportSystem.after request.1).state.reports ∧
        1 ≤ request.2 ∧ request.2 ≤ 64) →
      ∃ pages, follow IntegrityIssueResponse.nextCursor
          (fun step => step.1.listIssues libraryId report.id step.2)
          (((ReportSystem.after actions).state, pageSize) :: requestsAfter schedule) none =
            .ok pages ∧
        (report.issues.length ≤ schedule.length + 1 → pages.isSome = true) ∧
        ∀ all ∈ pages, (all.flatMap fun page => page.2.page.issues) = report.issues := by
  have hinv := ReportSystem.Invariant.after actions
  refine ⟨hinv.single, fun p hp hok => ?_, hinv.kept,
    fun libraryId hlibrary report hreport pageSize schedule hlow hhigh hschedule => ?_⟩
  · obtain ⟨hsound, hof⟩ := hinv.finished p hp
    have hexact := hsound.exact hok
    rw [hof.issues, hof.discovered, hof.stored, hof.dropped, hof.firstFatal]
    exact ⟨hexact.issues, hexact.discovered, rfl, rfl, hexact.firstFatal⟩
  · obtain ⟨r, hsound, hof⟩ := hinv.mem_finished hreport
    have hsteps : ∀ step ∈ requestsAfter schedule, KeepsReport report step := by
      intro step hstep
      obtain ⟨request, hrequest, rfl⟩ := List.mem_map.1 hstep
      obtain ⟨hkept, hsize⟩ := hschedule request hrequest
      exact ⟨(ReportSystem.Invariant.after request.1).find hkept, hsize⟩
    have hfirst : KeepsReport report ((ReportSystem.after actions).state, pageSize) :=
      ⟨hinv.find hreport, hlow, hhigh⟩
    have hall := follow_issues hlibrary hsound hof hfirst hsteps
    rwa [requestsAfter, List.length_map] at hall

/-- The identifiers of reports, numbered. -/
def numberedReports (n : ℕ) (_ : ℕ) : Except Unit (Id .verificationReport) :=
  .ok (.numbered n)

/-- A finding of a missing blob, and the same with a severity it cannot have. -/
def missingBlob : IssueInput :=
  ⟨.managedBlobMissing, .degradedCustody, .blob, none, .rerunWhenIdle⟩

def misjudgedBlob : IssueInput :=
  { missingBlob with severity := .fatalLocal }

/-- One run that finds two missing blobs. -/
def twoFindings : List ReportAction :=
  [.begin (numberedReports 1) .normal, .bindSnapshot 0 7, .recordIssue 0 missingBlob,
    .recordIssue 0 missingBlob, .finish 0 false]

/-- Its report has two issues, numbered 1 and 2, and keeps both. -/
theorem two_findings_reported :
    (ReportSystem.after twoFindings).finished.map
        (fun p => (p.2.failed, p.1.issues.map IntegrityIssue.ordinal)) = [(false, [1, 2])] ∧
      ∀ p ∈ (ReportSystem.after twoFindings).finished, p.2.failed = false →
        p.1.issues.map IntegrityIssue.entry = (p.2.calls.take 4096).zipIdx 1 :=
  ⟨by decide, fun p hp hok => ((verification_reports_exact twoFindings).2.1 p hp hok).1⟩

/-- One run one of whose calls fails. -/
def oneMisjudged : List ReportAction :=
  [.begin (numberedReports 1) .normal, .bindSnapshot 0 7, .recordIssue 0 misjudgedBlob,
    .recordIssue 0 missingBlob, .finish 0 false]

/-- **A call that fails takes a number**: the only issue of the report is the
second one, and the report counts a dropped one. -/
theorem failed_call_takes_number :
    (ReportSystem.after oneMisjudged).finished.map
      (fun p => (p.2.failed, p.1.issues.map IntegrityIssue.ordinal,
        p.1.summary.discoveredIssueCount, p.1.summary.droppedIssueCount)) =
      [(true, [2], 2, 1)] := by
  decide

end MengXia
