import MengXia.Store.Custody
import MengXia.Store.Outcomes
/-!
# The history of a command

How the row of a command moves along the calls of any number of processes.
Every call is a `LedgerStep`: it leaves a row alone or moves it as the
claim protocol allows. A row that has ended is therefore there for good.
-/

namespace MengXia.Store

open Common Txn

variable {allowed : Call → Prop}

/-! ## One call -/

theorem PureCall.isExternal_eq_false (pure : PureCall) :
    isExternal pure.binding.operationId = false := by
  cases pure with
  | changeAssetLifecycle request | changeAssetLifecycleDeferred request =>
    rw [PureCall.binding, request.operation]
    cases request.target <;> rfl
  | createRevision request | createRevisionDeferred request | recordLocation request
  | createProject request | reviseProjectSpec request | createSubject request
  | createWork request | reviseWork request | createTake request | transitionTake request
  | reopenTake request =>
    rw [PureCall.binding, request.operation]
    rfl

/-- **Every call moves the ledger as the claim protocol allows.** A pure
command adds one row at most, and no external one. -/
theorem Call.ledgerStep (call : Call) (context : StoreContext) (d : Database) :
    LedgerStep context d.commands ((call.exec context).run d).2.commands := by
  rcases call.kinds fun _ => True with ⟨pure, hpure⟩ | ⟨request, rfl⟩ | hledger
  · refine call.run_cases context d (P := fun t => LedgerStep context d.commands t.commands)
      (.refl context d.commands) ?_ ?_ fun d' hledger => hledger.ledger
    · intro pure outcome row d' _ _ hcommands hrow
      rw [hcommands]
      refine .concat fun hexternal => ?_
      rw [hrow.operation, pure.isExternal_eq_false] at hexternal
      cases hexternal
    · rintro request row d' result blobs locations location hcomplete
      cases pure <;> cases hpure.symm.trans hcomplete
  · exact post_run_state (post_void (post_mono
      (@post_completeExternal (fun _ => True) context request d) fun _ _ h => h.ledger))
      (.refl context d.commands)
  · exact (hledger context d).ledger

/-! ## Ended commands -/

/-- A command that has ended: it is completed or rejected, or it is an
ingest that requires recovery, which no later process takes over. -/
def CommandRow.Ended (r : CommandRow) : Prop :=
  r.state = .completed ∨ r.state = .terminalRejected ∨
    r.state = .recoveryRequired ∧ r.operationId = .assetIngest

theorem RowMove.not_ended {context : StoreContext} {r r' : CommandRow}
    (h : RowMove context r r') : ¬ r.Ended := by
  unfold CommandRow.Ended
  cases h with
  | completed claimed | terminalRejected claimed | recoveryRequired claimed => simp [claimed]
  | reacquired operation source =>
    rcases source with source | ⟨source, -⟩ <;> simp [source, operation]

theorem LedgerStep.ended {context : StoreContext} {rows rows' : List CommandRow}
    (h : LedgerStep context rows rows') {r : CommandRow} (hr : r ∈ rows) (hended : r.Ended) :
    r ∈ rows' := by
  rcases h.kept r hr with hr' | ⟨-, r', -, -, hmove⟩
  · exact hr'
  · exact absurd hended hmove.not_ended

/-- **An ended command stays as it is**, whatever calls follow. -/
theorem Later.ended {d d' : Database} (h : Later allowed d d') {r : CommandRow}
    (hr : r ∈ d.commands) (hended : r.Ended) : r ∈ d'.commands := by
  induction h with
  | refl => exact hr
  | step context call _ _ ih => exact (call.ledgerStep context _).ended ih hended

/-- **The life of a command row.** Each call of a process leaves the row of
an external command, or moves it from claimed to completed if the process
itself holds the claim, to rejected or to a required recovery; only a
materialization is taken over, by the process that calls. Ended rows stay
under every later call, and every stored row is valid. -/
theorem command_rows_follow_claims {d : Database} (h : Reachable allowed d) :
    (∀ r ∈ d.commands, validateCommandRow r = .ok r) ∧
      (∀ (context : StoreContext) (call : Call),
        LedgerStep context d.commands ((call.exec context).run d).2.commands) ∧
      ∀ d', Later allowed d d' → ∀ r ∈ d.commands, r.Ended → r ∈ d'.commands :=
  ⟨fun r hr => (h.ledgerValid r hr).validate, fun context call => call.ledgerStep context d,
    fun _ hlater _ hr hended => hlater.ended hr hended⟩

/-- The completed ingest of `oneAsset` is still there after any calls. -/
theorem first_ingest_stays : ∃ r ∈ oneAsset.commands, r.state = .completed ∧
    ∀ d', Later (fun _ => True) oneAsset d' → r ∈ d'.commands := by
  obtain ⟨r, hr, hstate⟩ : ∃ r ∈ oneAsset.commands, r.state = .completed := by decide +kernel
  exact ⟨r, hr, hstate, fun d' hlater =>
    (command_rows_follow_claims reachable_oneAsset).2.2 d' hlater r hr (Or.inl hstate)⟩

end MengXia.Store
