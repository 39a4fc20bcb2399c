import MengXia.Integrity
import MengXia.Store.StoredResults
/-!
# Commands that come back

A client that does not hear the answer to a command submits it again. Once
a command is settled, with a result or with a terminal rejection, every
later submission of it is answered from its row with the same result or
code and changes nothing, whatever calls and processes came between. A
submission that reuses its id for another request is refused.
-/

namespace MengXia.Store

open Common Txn

variable {t : Tables} {uid : UInt32} {outcome : MutationOutcome} {kind : ResultKind}
  {code : ErrorCode}

/-! ## Submissions -/

/-- A command as the services hand it to the store: a pure command is
executed, an ingest claimed, a materialization looked up first. -/
inductive Submission where
  | execute (call : PureCall)
  | ingest (claim : ExternalIngestClaim)
  | materialize (command : MaterializationCommandBinding)

/-- The answers of the three kinds. -/
inductive Reply where
  | mutation (outcome : MutationOutcome)
  | claim (outcome : ExternalClaimOutcome)
  | observation (observation : MaterializationObservation)

namespace Submission

def binding : Submission → CommandBinding
  | .execute call => call.binding
  | .ingest claim => claim.binding
  | .materialize command => command.binding

/-- The transaction a submission starts with. -/
def submit (context : StoreContext) : Submission → Tx Reply
  | .execute call => do
    let outcome ← call.mutate context
    return .mutation outcome
  | .ingest claim => do
    let outcome ← claimExternal context claim
    return .claim outcome
  | .materialize command => do
    let observation ← observeMaterialization context command
    return .observation observation

/-- The same command once more. The request digest of a materialization
fixes the member it selects. -/
inductive Again : Submission → Submission → Prop where
  | execute (call call' : PureCall) (binding : call'.binding = call.binding) :
      Again (.execute call) (.execute call')
  | ingest (claim claim' : ExternalIngestClaim) (binding : claim'.binding = claim.binding) :
      Again (.ingest claim) (.ingest claim')
  | materialize (command : MaterializationCommandBinding) :
      Again (.materialize command) (.materialize command)

end Submission

/-- How a command ends. -/
inductive Settlement where
  | applied (result : CommandResult)
  | materialized (result : MaterializationResult)
  | terminalRejected (code : ErrorCode)

/-- The transactions that settle a command, with the database they leave. -/
inductive Settles (context : StoreContext) (d : Database) :
    Submission → Settlement → Database → Prop where
  | applied (call : PureCall) (result : CommandResult)
      (answer : ((call.mutate context).run d).1 = .ok (.applied result)) :
      Settles context d (.execute call) (.applied result) ((call.mutate context).run d).2
  | rejected (call : PureCall) (code : ErrorCode)
      (answer : ((call.mutate context).run d).1 = .ok (.terminalRejected code)) :
      Settles context d (.execute call) (.terminalRejected code) ((call.mutate context).run d).2
  | registered (claim : ExternalIngestClaim) (request : ExternalIngestCompletion)
      (result : CommandResult) (binding : request.binding = claim.binding)
      (answer : ((completeExternal context request).run d).1 = .ok (.applied result)) :
      Settles context d (.ingest claim) (.applied result)
        ((completeExternal context request).run d).2
  | refused (claim : ExternalIngestClaim) (request : ExternalIngestDisposition)
      (code : ErrorCode) (outcome : ExternalDispositionOutcome)
      (binding : request.binding = claim.binding)
      (disposition : request.disposition = .terminalRejected code)
      (answer : ((finishExternal context request).run d).1 = .ok outcome) :
      Settles context d (.ingest claim) (.terminalRejected code)
        ((finishExternal context request).run d).2
  | reported (claim : ExternalIngestClaim) (code : ErrorCode)
      (answer : ((claimExternal context claim).run d).1 = .ok (.terminalRejected code)) :
      Settles context d (.ingest claim) (.terminalRejected code)
        ((claimExternal context claim).run d).2
  | materialized (transition : MaterializationTransition) (result : MaterializationResult)
      (answer : ((completeMaterialization context transition).run d).1 = .ok result) :
      Settles context d (.materialize transition.command) (.materialized result)
        ((completeMaterialization context transition).run d).2
  | abandoned (request : MaterializationFinish) (code : ErrorCode)
      (outcome : ExternalDispositionOutcome)
      (disposition : request.disposition = .terminalRejected code)
      (answer : ((finishMaterialization context request).run d).1 = .ok outcome) :
      Settles context d (.materialize request.transition.command) (.terminalRejected code)
        ((finishMaterialization context request).run d).2
  | observed (command : MaterializationCommandBinding) (code : ErrorCode)
      (answer : ((observeMaterialization context command).run d).1 =
        .ok (.terminalRejected code)) :
      Settles context d (.materialize command) (.terminalRejected code)
        ((observeMaterialization context command).run d).2

/-- The answer to a settled command that comes back. -/
inductive Repeats : Submission → Settlement → Reply → Prop where
  | mutation (call : PureCall) (result : CommandResult) :
      Repeats (.execute call) (.applied result) (.mutation (.replay result))
  | mutationRejected (call : PureCall) (code : ErrorCode) :
      Repeats (.execute call) (.terminalRejected code) (.mutation (.terminalRejected code))
  | claim (claim : ExternalIngestClaim) (result : CommandResult) :
      Repeats (.ingest claim) (.applied result) (.claim (.replay result))
  | claimRejected (claim : ExternalIngestClaim) (code : ErrorCode) :
      Repeats (.ingest claim) (.terminalRejected code) (.claim (.terminalRejected code))
  | observation (command : MaterializationCommandBinding) (result : MaterializationResult) :
      Repeats (.materialize command) (.materialized result) (.observation (.replay result))
  | observationRejected (command : MaterializationCommandBinding) (code : ErrorCode) :
      Repeats (.materialize command) (.terminalRejected code)
        (.observation (.terminalRejected code))

/-- What `complete_external` answers for an ingest that is settled: a
rejected one cannot be completed, and its code is not reported. -/
def Settlement.completion : Settlement → AssetResult MutationOutcome
  | .applied result => .ok (.replay result)
  | .materialized _ | .terminalRejected _ => .error .conflict

/-! ## Settled rows -/

/-- The row of a pure command that was applied. -/
def AppliedAs (t : Tables) (binding : CommandBinding) (uid : UInt32) (result : CommandResult) :
    Prop :=
  ∃ row, Bound t binding uid row ∧ row.state = .completed ∧ replayResult t row = .ok result

/-- What the tables say of a settled command. -/
def SettledAs (t : Tables) (uid : UInt32) : Submission → Settlement → Prop
  | .execute call, .applied result => AppliedAs t call.binding uid result
  | .ingest claim, .applied result => RegisteredAs t claim.binding uid result
  | .materialize command, .materialized result => MaterializedAs t command uid result
  | submission, .terminalRejected code => RejectedAs t submission.binding uid code
  | _, _ => False

theorem Answers.bound {context : StoreContext} {binding : CommandBinding} {row : CommandRow}
    (h : Answers context binding t outcome row) (hmem : row ∈ t.commands) :
    Bound t binding context.ownerUid row := by
  refine ⟨hmem, ?_⟩
  simp [bindingMatches, h.id, h.operation, h.digest, h.owner]

theorem validateDescriptor_of_printable {value : Text} {maximum : ℕ}
    (hprintable : value.all isPrintable = true) (hpositive : 0 < value.length)
    (hlength : value.length ≤ maximum) : validateDescriptor value maximum = .ok () := by
  have hcontrol : value.any isControl = false := by
    rw [List.any_eq_false]
    intro c hc
    have hchar := List.all_eq_true.1 hprintable c hc
    simp only [isPrintable, Bool.and_eq_true, decide_eq_true_eq] at hchar
    simp only [isControl, Bool.or_eq_true, Bool.and_eq_true, decide_eq_true_eq]
    omega
  unfold validateDescriptor
  rw [if_neg]
  simp [byteLength_of_printable hprintable, hcontrol, hlength,
    List.ne_nil_of_length_pos hpositive]

/-- The texts a managed copy is stored under are accepted. -/
theorem validateDescriptor_backendText (backend : Digest) :
    validateDescriptor (backendText backend) 255 = .ok () :=
  validateDescriptor_of_printable (backendText_printable backend)
    (by rw [length_backendText]; decide) (by rw [length_backendText]; decide)

theorem validateDescriptor_locatorText (digest : Digest) :
    validateDescriptor (locatorText digest) 1024 = .ok () :=
  validateDescriptor_of_printable (locatorText_printable digest)
    (by rw [length_locatorText]; decide) (by rw [length_locatorText]; decide)

/-- **A pure command asks the ledger first**, for a result of the kind its
operation completes with. -/
theorem PureCall.run_eq (call : PureCall) (context : StoreContext) (d : Database) :
    ∃ execute, (call.mutate context).run d = (unlessKnown context call.binding
      (resultKindOf call.binding.operationId) execute).run d := by
  cases call with
  | createRevision request | createRevisionDeferred request | createProject request
  | reviseProjectSpec request | createSubject request | createWork request | reviseWork request
  | createTake request | transitionTake request | reopenTake request =>
    simp only [PureCall.binding, request.operation]
    exact ⟨_, rfl⟩
  | changeAssetLifecycle request | changeAssetLifecycleDeferred request =>
    have hkind : resultKindOf request.binding.operationId = .assetLifecycle := by
      rw [request.operation]
      cases request.target <;> rfl
    simp only [PureCall.binding, hkind]
    exact ⟨_, rfl⟩
  | recordLocation request =>
    simp only [PureCall.binding, request.operation]
    refine ⟨recordLocationNew context request, ?_⟩
    simp only [PureCall.mutate, Store.recordLocation, validateDescriptor_backendText,
      validateDescriptor_locatorText]
    rfl

theorem PureCall.run_known {call : PureCall} {context : StoreContext} {d : Database}
    (h : replayExisting d context call.binding
      (resultKindOf call.binding.operationId) = .ok (some outcome)) :
    (call.mutate context).run d = (.ok outcome, d) := by
  obtain ⟨execute, hrun⟩ := call.run_eq context d
  rw [hrun, run_unlessKnown h]

theorem replayExisting_rejected {d : Database} {context : StoreContext} {binding : CommandBinding}
    (h : replayExisting d context binding kind = .ok (some (.terminalRejected code))) :
    RejectedAs d binding context.ownerUid code := by
  obtain ⟨row, hbound, -, h⟩ := replayExisting_eq_some h
  exact ⟨row, hbound, replayPure_eq_rejected.1 h⟩

/-- **A settled command is recorded as settled.** -/
theorem Settles.settledAs {context : StoreContext} {d d1 : Database} {submission : Submission}
    {settlement : Settlement} (h : Settles context d submission settlement d1) :
    SettledAs d1 context.ownerUid submission settlement := by
  cases h with
  | applied call result answer =>
    have hstep := PureCall.step_of_answer answer
    obtain ⟨row, hcommands, hrow⟩ := hstep.stored (hstep.applied result rfl)
    rcases hrow.answer with ⟨result', hresult, hstate, hreplay⟩ | ⟨code, hcode, -⟩
    · cases hresult
      refine ⟨row, hrow.bound ?_, hstate, hreplay⟩
      rw [hcommands]
      exact List.mem_concat_self
    · cases hcode
  | rejected call code answer =>
    obtain ⟨execute, hrun⟩ := call.run_eq context d
    cases hreplay : replayExisting d context call.binding
        (resultKindOf call.binding.operationId) with
    | error e =>
      rw [hrun, run_unlessKnown_error hreplay] at answer
      cases answer
    | ok known =>
      cases known with
      | some outcome =>
        rw [PureCall.run_known hreplay] at answer ⊢
        cases answer
        exact replayExisting_rejected hreplay
      | none =>
        have hstep := PureCall.step_of_answer answer
        obtain ⟨row, hcommands, hrow⟩ := hstep.stored (replayExisting_eq_none hreplay)
        rcases hrow.answer with ⟨result, hresult, -⟩ | ⟨code', hcode, hstate, hsafe⟩
        · cases hresult
        · cases hcode
          refine ⟨row, hrow.bound ?_, hstate, hsafe⟩
          rw [hcommands]
          exact List.mem_concat_self
  | registered claim request result binding answer =>
    have hstep := post_answer
      (@post_completeExternal (fun _ => True) context request d) answer
    rw [binding] at hstep
    exact hstep.result result (Or.inl rfl)
  | refused claim request code outcome binding disposition answer =>
    have hstep := post_answer
      (@post_finishExternal (fun _ => True) context request d) answer
    rw [binding] at hstep
    exact hstep.rejection code disposition
  | reported claim code answer =>
    exact (post_answer (@post_claimExternal (fun _ => True) context claim d)
      answer).rejection code rfl
  | materialized transition result answer =>
    exact (post_answer (@post_completeMaterialization (fun _ => True) context transition d)
      answer).2
  | abandoned request code outcome disposition answer =>
    exact (post_answer (@post_finishMaterialization (fun _ => True) context request d)
      answer).rejection code disposition
  | observed command code answer =>
    have hstep := post_answer (post_observeMaterialization context command d) answer
    rw [hstep.same]
    exact hstep.rejection code rfl

/-- The call a settling transaction is. -/
theorem Settles.call {context : StoreContext} {d d1 : Database} {submission : Submission}
    {settlement : Settlement} (h : Settles context d submission settlement d1) :
    ∃ call : Call, d1 = ((call.exec context).run d).2 := by
  cases h with
  | applied call | rejected call => exact ⟨.execute call, (run_void _ _).symm⟩
  | registered claim request => exact ⟨.completeExternal request, (run_void _ _).symm⟩
  | refused claim request => exact ⟨.finishExternal request, (run_void _ _).symm⟩
  | reported claim => exact ⟨.claimExternal claim, (run_void _ _).symm⟩
  | materialized transition =>
    exact ⟨.completeMaterialization transition, (run_void _ _).symm⟩
  | abandoned request => exact ⟨.finishMaterialization request, (run_void _ _).symm⟩
  | observed command => exact ⟨.observeMaterialization command, (run_void _ _).symm⟩

theorem Bound.stays {t' : Tables} {binding : CommandBinding} {row : CommandRow}
    (hbound : Bound t binding uid row) (h : Grows t t') (hended : row.Ended) :
    Bound t' binding uid row :=
  ⟨h.commands.ended row hbound.mem hended, hbound.binds⟩

/-- **A settled command stays settled** while the tables grow. -/
theorem SettledAs.stays {d d' : Database} {submission : Submission} {settlement : Settlement}
    (hsettled : SettledAs d uid submission settlement) (h : Grows d d') :
    SettledAs d' uid submission settlement := by
  have hrejected : ∀ {code}, RejectedAs d submission.binding uid code →
      RejectedAs d' submission.binding uid code := by
    rintro code ⟨row, hbound, hstate, hcode⟩
    exact ⟨row, hbound.stays h (Or.inr (Or.inl hstate)), hstate, hcode⟩
  cases submission with
  | execute call =>
    cases settlement with
    | applied result =>
      obtain ⟨row, hbound, hstate, hreplay⟩ := hsettled
      exact ⟨row, hbound.stays h (Or.inl hstate), hstate,
        replayResult_stays h hbound.mem (Or.inl hstate) hreplay⟩
    | materialized result => exact hsettled.elim
    | terminalRejected code => exact hrejected hsettled
  | ingest claim =>
    cases settlement with
    | applied result =>
      obtain ⟨row, hbound, hstate, hreplay⟩ := hsettled
      exact ⟨row, hbound.stays h (Or.inl hstate), hstate,
        replayExternalResult_stays h hbound.mem (Or.inl hstate) hreplay⟩
    | materialized result => exact hsettled.elim
    | terminalRejected code => exact hrejected hsettled
  | materialize command =>
    cases settlement with
    | applied result => exact hsettled.elim
    | materialized result =>
      obtain ⟨row, hbound, hstate, hreplay⟩ := hsettled
      exact ⟨row, hbound.stays h (Or.inl hstate), hstate, replayMaterialization_stays h hreplay⟩
    | terminalRejected code => exact hrejected hsettled

/-! ## Answers from settled rows -/

section Answers

variable {d : Database} {context : StoreContext} {binding : CommandBinding} {row : CommandRow}

/-- **A pure command that comes back.** -/
theorem PureCall.run_applied {call : PureCall} {result : CommandResult}
    (h : AppliedAs d call.binding context.ownerUid result)
    (hvalid : LedgerValid d) :
    (call.mutate context).run d = (.ok (.replay result), d) := by
  obtain ⟨row, hbound, hstate, hresult⟩ := h
  refine PureCall.run_known (replayExisting_of_bound hbound hvalid ?_)
  rw [← hbound.operation]
  exact replayPure_applied (hvalid row hbound.mem) hstate hresult

theorem PureCall.run_rejected {call : PureCall}
    (h : RejectedAs d call.binding context.ownerUid code)
    (hvalid : LedgerValid d) :
    (call.mutate context).run d = (.ok (.terminalRejected code), d) := by
  obtain ⟨row, hbound, hstate, hcode⟩ := h
  refine PureCall.run_known (replayExisting_of_bound hbound hvalid ?_)
  exact replayPure_eq_rejected.2 ⟨hstate, hcode⟩

/-- **An ingest that comes back.** -/
theorem run_claimExternal {claim : ExternalIngestClaim} {outcome : ExternalClaimOutcome}
    (hbound : Bound d claim.binding context.ownerUid row)
    (hvalid : LedgerValid d) (hkeys : DeferredKeys d)
    (hrow : (∃ result, row.state = .completed ∧ outcome = .replay result ∧
        replayExternalResult d row = .ok result) ∨
      ∃ code, row.state = .terminalRejected ∧ outcome = .terminalRejected code ∧
        row.safeErrorCode = some code) :
    (claimExternal context claim).run d = (.ok outcome, d) := by
  refine run_eq_ok ?_
  unfold claimExternal externalExisting
  simp only [wp_bind, wp_read, hbound.read, hbound.binds, if_true, wp_lift,
    (hvalid row hbound.mem).validate, Except.ok.injEq, reduceCtorEq, false_implies, implies_true,
    and_true, forall_eq']
  rcases hrow with ⟨result, hstate, rfl, hresult⟩ | ⟨code, hstate, rfl, hcode⟩
  · simp [hstate, hresult, hkeys]
  · simp [hstate, parseSafeCode_eq_ok.2 hcode, hkeys]

/-- **A registration that comes back.** -/
theorem run_completeExternal {claim : ExternalIngestClaim} {request : ExternalIngestCompletion}
    {settlement : Settlement}
    (h : SettledAs d context.ownerUid (.ingest claim) settlement)
    (hbinding : request.binding = claim.binding) (hvalid : LedgerValid d) :
    (completeExternal context request).run d = (settlement.completion, d) := by
  cases settlement with
  | applied result =>
    obtain ⟨row, hbound, hstate, hresult⟩ := h
    rw [← hbinding] at hbound
    refine run_eq_ok ?_
    simp [completeExternal, validateDescriptor_backendText, validateDescriptor_locatorText,
      boundRow_of_bound hbound hvalid, hstate, hresult]
  | materialized result => exact h.elim
  | terminalRejected code =>
    obtain ⟨row, hbound, hstate, -⟩ := h
    have hbound : Bound d claim.binding context.ownerUid row := hbound
    rw [← hbinding] at hbound
    refine run_eq_error ?_
    simp [completeExternal, validateDescriptor_backendText, validateDescriptor_locatorText,
      boundRow_of_bound hbound hvalid, hstate]

/-- **A materialization that comes back.** -/
theorem run_observeMaterialization {command : MaterializationCommandBinding}
    {observation : MaterializationObservation}
    (hbound : Bound d command.binding context.ownerUid row)
    (hvalid : LedgerValid d)
    (hrow : (∃ result, row.state = .completed ∧ observation = .replay result ∧
        replayMaterialization d row command = .ok result) ∨
      ∃ code, row.state = .terminalRejected ∧ observation = .terminalRejected code ∧
        row.safeErrorCode = some code) :
    (observeMaterialization context command).run d = (.ok observation, d) := by
  refine run_eq_ok ?_
  unfold observeMaterialization
  simp only [wp_bind, wp_read, hbound.read, wp_lift,
    boundRow_of_bound hbound hvalid, Except.ok.injEq, reduceCtorEq, false_implies, implies_true,
    and_true, forall_eq']
  rcases hrow with ⟨result, hstate, rfl, hresult⟩ | ⟨code, hstate, rfl, hcode⟩
  · simp [hstate, hresult]
  · simp [hstate, parseSafeCode_eq_ok.2 hcode]

end Answers

/-! ## Reused command ids -/

/-- The request a call carries. -/
def Call.binding : Call → Option CommandBinding
  | .execute command => some command.binding
  | .claimExternal request => some request.binding
  | .completeExternal request => some request.binding
  | .finishExternal request => some request.binding
  | .observeMaterialization command => some command.binding
  | .claimNewMaterialization transition => some transition.command.binding
  | .reacquireMaterialization transition _ => some transition.command.binding
  | .completeMaterialization transition => some transition.command.binding
  | .finishMaterialization request => some request.transition.command.binding
  | .classifyStartupMutationPage _ => none

/-- Another request under the id of a command. -/
structure Reuses (binding other : CommandBinding) : Prop where
  id : other.commandId = binding.commandId
  request : other.operationId ≠ binding.operationId ∨
    other.canonicalRequestDigest ≠ binding.canonicalRequestDigest

/-- The stored row of an id that is reused does not match. -/
theorem Bound.not_matches {binding other : CommandBinding} {uid' : UInt32} {row : CommandRow}
    (h : Bound t binding uid row) (hreuses : Reuses binding other) :
    bindingMatches row other uid' = false := by
  have hbinds := h.binds
  simp only [bindingMatches, Bool.and_eq_true, decide_eq_true_eq] at hbinds
  rw [Bool.eq_false_iff]
  intro hmatch
  simp only [bindingMatches, Bool.and_eq_true, decide_eq_true_eq] at hmatch
  rcases hreuses.request with hne | hne
  · exact hne (hmatch.1.1.2.symm.trans hbinds.1.1.2)
  · exact hne (hmatch.2.symm.trans hbinds.2)

section Conflict

variable {d : Database} {context : StoreContext} {other : CommandBinding} {row : CommandRow}

theorem PureCall.run_conflict {call : PureCall}
    (hread : readCommand d call.binding = some row)
    (hmatch : bindingMatches row call.binding context.ownerUid = false) :
    (call.mutate context).run d = (.error .conflict, d) := by
  obtain ⟨execute, hrun⟩ := call.run_eq context d
  rw [hrun]
  exact run_unlessKnown_error (replayExisting_conflict hread hmatch)

/-- **Every call refuses a reused id**, and a refused call changes nothing. -/
theorem Call.run_conflict {call : Call} (hcall : call.binding = some other)
    (hread : readCommand d other = some row)
    (hmatch : bindingMatches row other context.ownerUid = false) :
    (call.exec context).run d = (.error .conflict, d) := by
  have hbound := boundRow_conflict hread hmatch
  have hexternal : ∀ {α : Type} {f : Tx α},
      wp f (fun _ _ => False) (fun e => e = .conflict) d →
        f.void.run d = (.error .conflict, d) :=
    fun h => run_void_error (run_eq_error h)
  cases call with
  | execute command =>
    cases hcall
    exact run_void_error (PureCall.run_conflict hread hmatch)
  | claimExternal request =>
    cases hcall
    refine hexternal ?_
    simp [Store.claimExternal, externalExisting, hread, hmatch]
  | completeExternal request =>
    cases hcall
    refine hexternal ?_
    simp [Store.completeExternal, validateDescriptor_backendText, validateDescriptor_locatorText,
      hbound]
  | finishExternal request =>
    cases hcall
    refine hexternal ?_
    simp [Store.finishExternal, hbound]
  | observeMaterialization command =>
    cases hcall
    refine hexternal ?_
    simp [Store.observeMaterialization, hread, hbound]
  | claimNewMaterialization transition =>
    cases hcall
    refine run_eq_error (x := Store.claimNewMaterialization context transition) ?_
    simp [Store.claimNewMaterialization, hread]
  | reacquireMaterialization transition expected =>
    cases hcall
    refine run_eq_error (x := Store.reacquireMaterialization context transition expected) ?_
    simp [Store.reacquireMaterialization, hbound]
  | completeMaterialization transition =>
    cases hcall
    refine hexternal ?_
    simp [Store.completeMaterialization, hbound]
  | finishMaterialization request =>
    cases hcall
    refine hexternal ?_
    simp [Store.finishMaterialization, hbound]
  | classifyStartupMutationPage request => cases hcall

end Conflict

/-! ## Idempotence -/

theorem SettledAs.bound {submission : Submission} {settlement : Settlement}
    (h : SettledAs t uid submission settlement) :
    ∃ row, Bound t submission.binding uid row := by
  cases submission with
  | execute call | ingest claim =>
    cases settlement with
    | applied result | terminalRejected code => exact ⟨h.choose, h.choose_spec.1⟩
    | materialized result => exact h.elim
  | materialize command =>
    cases settlement with
    | applied result => exact h.elim
    | materialized result | terminalRejected code => exact ⟨h.choose, h.choose_spec.1⟩

/-- **A settled command that comes back** is answered from its row. -/
theorem SettledAs.repeats {d : Database} {context : StoreContext}
    {submission submission' : Submission} {settlement : Settlement}
    (h : SettledAs d context.ownerUid submission settlement)
    (hagain : Submission.Again submission submission') (hvalid : LedgerValid d)
    (hkeys : DeferredKeys d) :
    ∃ reply, Repeats submission' settlement reply ∧
      (submission'.submit context).run d = (.ok reply, d) := by
  cases hagain with
  | execute call call' binding =>
    cases settlement with
    | applied result =>
      have h : AppliedAs d call.binding context.ownerUid result := h
      rw [← binding] at h
      exact ⟨_, .mutation call' result, run_map (PureCall.run_applied h hvalid)⟩
    | materialized result => exact h.elim
    | terminalRejected code =>
      have h : RejectedAs d call.binding context.ownerUid code := h
      rw [← binding] at h
      exact ⟨_, .mutationRejected call' code, run_map (PureCall.run_rejected h hvalid)⟩
  | ingest claim claim' binding =>
    cases settlement with
    | applied result =>
      obtain ⟨row, hbound, hstate, hresult⟩ := h
      rw [← binding] at hbound
      exact ⟨_, .claim claim' result, run_map (run_claimExternal hbound hvalid hkeys
        (Or.inl ⟨result, hstate, rfl, hresult⟩))⟩
    | materialized result => exact h.elim
    | terminalRejected code =>
      obtain ⟨row, hbound, hstate, hcode⟩ := h
      have hbound : Bound d claim.binding context.ownerUid row := hbound
      rw [← binding] at hbound
      exact ⟨_, .claimRejected claim' code, run_map (run_claimExternal hbound hvalid hkeys
        (Or.inr ⟨code, hstate, rfl, hcode⟩))⟩
  | materialize command =>
    cases settlement with
    | applied result => exact h.elim
    | materialized result =>
      obtain ⟨row, hbound, hstate, hresult⟩ := h
      exact ⟨_, .observation command result, run_map (run_observeMaterialization hbound hvalid
        (Or.inl ⟨result, hstate, rfl, hresult⟩))⟩
    | terminalRejected code =>
      obtain ⟨row, hbound, hstate, hcode⟩ := h
      exact ⟨_, .observationRejected command code, run_map (run_observeMaterialization hbound
        hvalid (Or.inr ⟨code, hstate, rfl, hcode⟩))⟩

/-- **Commands are idempotent.** After a command is settled and any calls
of any processes, the command submitted again is answered with the same
result or code, and another request under its id with a conflict; the
completion of a settled ingest is answered with its result if it has one.
None of them changes anything. -/
theorem settled_commands_replay {d d1 d' : Database} {context context' : StoreContext}
    {submission : Submission} {settlement : Settlement} (h : Reachable (fun _ => True) d)
    (hsettles : Settles context d submission settlement d1) (hlater : Later (fun _ => True) d1 d')
    (howner : context'.ownerUid = context.ownerUid) :
    (∀ submission', Submission.Again submission submission' →
      ∃ reply, Repeats submission' settlement reply ∧
        (submission'.submit context').run d' = (.ok reply, d')) ∧
      (∀ (call : Call) (other : CommandBinding), call.binding = some other →
        Reuses submission.binding other →
          (call.exec context').run d' = (.error .conflict, d')) ∧
      ∀ (claim : ExternalIngestClaim) (request : ExternalIngestCompletion),
        submission = .ingest claim → request.binding = claim.binding →
          (completeExternal context' request).run d' = (settlement.completion, d') := by
  have hreachable : Reachable (fun _ => True) d' := by
    obtain ⟨call, rfl⟩ := hsettles.call
    exact hlater.reachable (.step context call h trivial)
  have hsettled := hsettles.settledAs.stays hlater.grows
  rw [← howner] at hsettled
  refine ⟨fun submission' hagain => ?_, fun call other hcall hreuses => ?_, ?_⟩
  · exact hsettled.repeats hagain hreachable.ledgerValid hreachable.deferredKeys
  · obtain ⟨row, hbound⟩ := hsettled.bound
    refine call.run_conflict hcall ?_ (hbound.not_matches hreuses)
    exact readCommand_of_mem hbound.mem (hbound.id.trans hreuses.id.symm)
  · rintro claim request rfl hbinding
    exact run_completeExternal hsettled hbinding hreachable.ledgerValid

/-- The project of `onlyProject`, created again by a later process, is
reported once more; its command id cannot revise the project. -/
theorem first_project_replays :
    (∃ reply, Repeats (.execute (.createProject (.numbered 10)))
        (.applied (.versioned (.numbered 11) (.project (.numbered 12) 1 1) .epoch)) reply ∧
      ((Submission.execute (.createProject (.numbered 10))).submit
        ⟨1000, .numbered 99⟩).run onlyProject = (.ok reply, onlyProject)) ∧
    ((Call.execute (.reviseProjectSpec (.numbered 10 (.numbered 11) 1))).exec
      ⟨1000, .numbered 99⟩).run onlyProject = (.error .conflict, onlyProject) := by
  have hanswer : (((PureCall.createProject (.numbered 10)).mutate firstProcess).run
      Database.empty).1 = .ok (.applied (.versioned (.numbered 11)
        (.project (.numbered 12) 1 1) .epoch)) := by
    decide +kernel
  have hreplays := settled_commands_replay .empty (.applied _ _ hanswer) .refl
    (show (⟨1000, .numbered 99⟩ : StoreContext).ownerUid = firstProcess.ownerUid from rfl)
  exact ⟨hreplays.1 _ (.execute _ _ rfl),
    hreplays.2.1 (.execute (.reviseProjectSpec (.numbered 10 (.numbered 11) 1))) _ rfl
      ⟨rfl, Or.inl (by decide)⟩⟩

end MengXia.Store
