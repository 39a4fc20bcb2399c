import MengXia.Store.AssetSteps
import Mathlib.Logic.Relation
/-!
# Steps of the external commands

An ingest or a materialization is claimed in one transaction and ended in
another, perhaps by a later process. The step lemmas here say how each of
these transactions moves the rows of the ledger (`LedgerStep`), and that
all of them but the completion of an ingest touch nothing else.
-/

namespace MengXia.Store

open Common Txn

variable {allowed : Call → Prop}

variable {context : StoreContext} {d d' : Database} {row row' : CommandRow}
  {binding : CommandBinding} {at_ : Timestamp}

/-! ## Moves of ledger rows -/

/-- What one transaction leaves: the tables it found, or one change of them. -/
def Advances (allowed : Call → Prop) (d d' : Database) : Prop :=
  d'.toTables = d.toTables ∨ Change allowed d d'

/-- How a process moves the row of an external command. -/
inductive RowMove (context : StoreContext) (r r' : CommandRow) : Prop where
  | completed (claimed : r.state = .claimed) (owner : r.storeRuntimeId = context.runtimeId)
      (done : r'.state = .completed)
  | terminalRejected (claimed : r.state = .claimed)
      (owner : r.storeRuntimeId = context.runtimeId) (done : r'.state = .terminalRejected)
  | recoveryRequired (claimed : r.state = .claimed) (done : r'.state = .recoveryRequired)
  | reacquired (operation : r.operationId = .assetMaterialize)
      (source : r.state = .recoveryRequired ∨
        r.state = .claimed ∧ r.storeRuntimeId ≠ context.runtimeId)
      (done : r'.state = .claimed) (owner : r'.storeRuntimeId = context.runtimeId)

/-- Two rows of one command: its id and its request are fixed. -/
structure SameCommand (r r' : CommandRow) : Prop where
  id : r'.commandId = r.commandId
  operation : r'.operationId = r.operationId
  digest : r'.canonicalRequestDigest = r.canonicalRequestDigest
  owner : r'.principalUid = r.principalUid

theorem SameCommand.refl (r : CommandRow) : SameCommand r r :=
  ⟨rfl, rfl, rfl, rfl⟩

/-- What a call of a process does to the ledger: rows stay or move as
`RowMove` says, and a new external row is a claim of this process. -/
structure LedgerStep (context : StoreContext) (rows rows' : List CommandRow) : Prop where
  kept : ∀ r ∈ rows, r ∈ rows' ∨ isExternal r.operationId = true ∧
    ∃ r' ∈ rows', SameCommand r r' ∧ RowMove context r r'
  added : ∀ r' ∈ rows', (∃ r ∈ rows, r.commandId = r'.commandId) ∨
    (isExternal r'.operationId = true →
      r'.state = .claimed ∧ r'.storeRuntimeId = context.runtimeId)

theorem LedgerStep.refl (context : StoreContext) (rows : List CommandRow) :
    LedgerStep context rows rows :=
  ⟨fun _ hr => Or.inl hr, fun r hr => Or.inl ⟨r, hr, rfl⟩⟩

/-- One row more. -/
theorem LedgerStep.concat {rows : List CommandRow}
    (h : isExternal row.operationId = true →
      row.state = .claimed ∧ row.storeRuntimeId = context.runtimeId) :
    LedgerStep context rows (rows ++ [row]) := by
  refine ⟨fun r hr => Or.inl (List.mem_append_left _ hr), fun r hr => ?_⟩
  rcases List.mem_append.1 hr with hr | hr
  · exact Or.inl ⟨r, hr, rfl⟩
  · rw [List.mem_singleton.1 hr]
    exact Or.inr h

/-- One more row moved, that had not moved before. -/
theorem LedgerStep.update {rows rows1 : List CommandRow} (h : LedgerStep context rows rows1)
    (hkeys : Distinct CommandRow.commandId rows) (hmem : row ∈ rows)
    (hexternal : isExternal row.operationId = true) (hsame : SameCommand row row')
    (hmove : RowMove context row row') (hmem1 : row ∈ rows1) :
    LedgerStep context rows
      (updateWhere (fun r => r.commandId = row.commandId) (fun _ => row') rows1) := by
  have hstays : ∀ r ∈ rows1, r.commandId ≠ row.commandId →
      r ∈ updateWhere (fun r => decide (r.commandId = row.commandId)) (fun _ => row') rows1 :=
    fun r hr hid => mem_updateWhere.2 ⟨r, hr, by simp [hid]⟩
  refine ⟨fun r hr => ?_, fun r hr => ?_⟩
  · by_cases hid : r.commandId = row.commandId
    · obtain rfl := hkeys.eq_of_mem hr hmem hid
      exact Or.inr ⟨hexternal, row', mem_updateWhere.2 ⟨r, hmem1, by simp⟩, hsame, hmove⟩
    · rcases h.kept r hr with hr1 | ⟨hext, r1, hr1, hsame1, hmove1⟩
      · exact Or.inl (hstays r hr1 hid)
      · exact Or.inr ⟨hext, r1, hstays r1 hr1 (hsame1.id ▸ hid), hsame1, hmove1⟩
  · rcases mem_updateWhere_iff.1 hr with ⟨x, hx, -, rfl⟩ | ⟨hr, -⟩
    · exact Or.inl ⟨row, hmem, hsame.id.symm⟩
    · exact h.added r hr

/-- What a call does that only touches the ledger. -/
structure LedgerCall (allowed : Call → Prop) (context : StoreContext) (d d' : Database) :
    Prop where
  advances : Relation.ReflTransGen (Advances allowed) d d'
  tables : d'.toTables = { d.toTables with commands := d'.commands }
  ledger : LedgerStep context d.commands d'.commands

/-- Every command was given by one user. -/
def OwnedBy (uid : UInt32) (t : Tables) : Prop :=
  ∀ r ∈ t.commands, r.principalUid = uid

theorem OwnedBy.concat {uid : UInt32} {t t' : Tables} (h : OwnedBy uid t)
    (hrow : row.principalUid = uid) (ht : t'.commands = t.commands ++ [row]) : OwnedBy uid t' := by
  intro r hr
  rw [ht] at hr
  exact forall_mem_append_singleton h hrow r hr

/-- One row moved. -/
theorem OwnedBy.update {uid : UInt32} {t t' : Tables} (h : OwnedBy uid t) (hmem : row ∈ t.commands)
    (howner : row'.principalUid = row.principalUid) {p : CommandRow → Bool}
    (ht : t'.commands = updateWhere p (fun _ => row') t.commands) : OwnedBy uid t' := by
  intro r hr
  rw [ht] at hr
  rcases mem_updateWhere_iff.1 hr with ⟨-, -, -, rfl⟩ | ⟨hr, -⟩
  · exact howner.trans (h row hmem)
  · exact h r hr

/-- A ledger call of a store, that leaves the commands its owner's. -/
structure OwnedCall (allowed : Call → Prop) (context : StoreContext) (d d' : Database) : Prop
    extends LedgerCall allowed context d d' where
  owned : OwnedBy context.ownerUid d → OwnedBy context.ownerUid d'

theorem OwnedCall.refl (context : StoreContext) (d : Database) : OwnedCall allowed context d d :=
  ⟨⟨.refl, rfl, .refl context d.commands⟩, id⟩

theorem OwnedCall.claimed (hfresh : FreshCommand d binding.commandId)
    (hexternal : isExternal binding.operationId = true)
    (hd' : d'.toTables = { d.toTables with
      commands := d.commands ++ [claimRow context binding at_] }) :
    OwnedCall allowed context d d' := by
  have hcommands : d'.commands = d.commands ++ [claimRow context binding at_] := by rw [hd']
  refine ⟨⟨.single (Or.inr ?_), by rw [hcommands, hd'], ?_⟩, fun h => h.concat rfl hcommands⟩
  · rw [hd']
    exact Change.claimed context binding at_ hfresh hexternal
  · rw [hcommands]
    exact .concat fun _ => ⟨rfl, rfl⟩

/-- One more row moved, that the call had not moved before. -/
theorem OwnedCall.move {d1 : Database} (h : OwnedCall allowed context d d1)
    (hmem : row ∈ d.commands) (hexternal : isExternal row.operationId = true)
    (hmove : ExternalMove row row') (hsame : SameCommand row row') (hrow : RowMove context row row')
    (hmem1 : row ∈ d1.commands)
    (hd' : d'.toTables = { d1.toTables with
      commands := updateWhere (fun r => r.commandId = row.commandId) (fun _ => row')
        d1.commands }) : OwnedCall allowed context d d' := by
  have hcommands : d'.commands =
      updateWhere (fun r => r.commandId = row.commandId) (fun _ => row') d1.commands := by
    rw [hd']
  refine ⟨⟨h.advances.tail (Or.inr ?_), by rw [hcommands, hd', h.tables], ?_⟩,
    fun howned => (h.owned howned).update hmem1 hsame.owner hcommands⟩
  · rw [hd']
    exact Change.moved row row' hmem1 hexternal hmove
  · rw [hcommands]
    exact h.ledger.update d.consistent.commandKeys hmem hexternal hsame hrow hmem1

theorem OwnedCall.moved (hmem : row ∈ d.commands) (hexternal : isExternal row.operationId = true)
    (hmove : ExternalMove row row') (hsame : SameCommand row row') (hrow : RowMove context row row')
    (hd' : d'.toTables = { d.toTables with
      commands := updateWhere (fun r => r.commandId = row.commandId) (fun _ => row')
        d.commands }) : OwnedCall allowed context d d' :=
  (OwnedCall.refl context d).move hmem hexternal hmove hsame hrow hmem hd'

/-! ## External ingest -/

/-- An update of one command, known to be stored, as a move of its row. -/
theorem post_moveCommand (row' : CommandRow) {id : Id .command} {p : CommandRow → Bool}
    {f : CommandRow → CommandRow} {hf : ∀ r, (f r).commandId = r.commandId}
    {Q : ℕ → Database → Prop} (hmem : row ∈ d.commands) (hid : row.commandId = id)
    (hp : ∀ r, p r = true → r.commandId = id) (hpx : p row = true) (hfx : f row = row')
    (hQ : ∀ d' : Database, d'.toTables = { d.toTables with
        commands := updateWhere (fun r => r.commandId = row.commandId) (fun _ => row')
          d.commands } → Q 1 d') :
    post (updateCommands p f hf) Q d := by
  refine wp_updateCommands (Or.inr trivial) fun d' hd' => ?_
  rw [d.consistent.commandKeys.updateWhere_key hmem rfl (fun r hr => (hp r hr).trans hid.symm)
    hpx (g := fun _ => row') hfx] at hd'
  rw [d.consistent.commandKeys.countP_eq_one hmem hpx fun r _ hr => (hp r hr).trans hid.symm]
  exact hQ d' hd'

/-- The row of a rejected command. -/
def RejectedAs (t : Tables) (binding : CommandBinding) (uid : UInt32) (code : ErrorCode) : Prop :=
  ∃ row, Bound t binding uid row ∧ row.state = .terminalRejected ∧ row.safeErrorCode = some code

/-- The row of an ingest that registered its asset. -/
def RegisteredAs (t : Tables) (binding : CommandBinding) (uid : UInt32)
    (result : CommandResult) : Prop :=
  ∃ row, Bound t binding uid row ∧ row.state = .completed ∧
    replayExternalResult t row = .ok result

/-- What `claim_external` returns and commits. -/
structure ClaimStep (allowed : Call → Prop) (context : StoreContext) (binding : CommandBinding)
    (d : Database) (outcome : ExternalClaimOutcome) (d' : Database) : Prop where
  call : OwnedCall allowed context d d'
  rejection : ∀ code, outcome = .terminalRejected code →
    RejectedAs d' binding context.ownerUid code

theorem post_claimExternal (context : StoreContext) (request : ExternalIngestClaim)
    (d : Database) :
    post (claimExternal context request) (ClaimStep allowed context request.binding d) d := by
  have hexternal : isExternal request.binding.operationId = true := by
    rw [request.operation]
    rfl
  unfold claimExternal
  simp only [post_bind, post_read]
  cases hread : readCommand d request.binding with
  | none =>
    have hfresh := readCommand_eq_none.1 hread
    simp only [post_bind]
    refine wp_insertClaim hfresh fun d1 h1 => post_commit fun _ => ?_
    exact ⟨.claimed hfresh hexternal h1, fun _ h => (by cases h)⟩
  | some row =>
    obtain ⟨hmem, hid⟩ := readCommand_eq_some hread
    simp only [post_bind, externalExisting, post_ite]
    refine ⟨fun hmatch => ?_, fun _ => trivial⟩
    have hop := Bound.operation ⟨hmem, hmatch⟩
    simp only [post_lift]
    intro row' hrow'
    obtain ⟨-, -, rfl⟩ := validateCommandRow_eq_ok.1 hrow'
    have hsame : OwnedCall allowed context d d := .refl context d
    cases hstate : row'.state with
    | claimed =>
      simp only [post_ite, post_pure, post_bind]
      refine ⟨fun _ => post_commit fun _ => ?_, fun _ => ?_⟩
      · exact ⟨hsame, fun _ h => (by cases h)⟩
      · refine post_moveCommand (row'.dispose (.recoveryRequired .storageConfigurationError)
          request.claimedAt) hmem hid
          (by simp +contextual) (by simp [hid, hstate]) rfl fun d1 h1 => ?_
        have hcall : OwnedCall allowed context d d1 :=
          .moved hmem (hop ▸ hexternal) (.disposed _ _ hstate (isOf_classified (hop ▸ hexternal)))
            ⟨rfl, rfl, rfl, rfl⟩ (.recoveryRequired hstate rfl) h1
        exact post_commit fun _ => ⟨hcall, fun _ h => (by cases h)⟩
    | completed =>
      simp only [post_bind, post_read, post_lift, post_pure]
      exact fun result _ => post_commit fun _ => ⟨hsame, fun _ h => (by cases h)⟩
    | terminalRejected =>
      simp only [post_bind, post_lift, post_pure]
      refine fun code hcode => post_commit fun _ => ⟨hsame, fun _ h => ?_⟩
      cases h
      exact ⟨row', ⟨hmem, hmatch⟩, hstate, parseSafeCode_eq_ok.1 hcode⟩
    | recoveryRequired =>
      simp only [post_bind, post_lift, post_pure]
      exact fun _ _ => post_commit fun _ => ⟨hsame, fun _ h => (by cases h)⟩

/-- What a finishing transaction commits: the disposition is stored. -/
structure FinishStep (allowed : Call → Prop) (context : StoreContext) (binding : CommandBinding)
    (disposition : Disposition) (d d' : Database) : Prop where
  call : OwnedCall allowed context d d'
  rejection : ∀ code, disposition = .terminalRejected code →
    RejectedAs d' binding context.ownerUid code

/-- A claim of this process is disposed of. -/
theorem FinishStep.stored {disposition : Disposition}
    (hbound : Bound d binding context.ownerUid row)
    (hexternal : isExternal row.operationId = true) (hclaimed : row.state = .claimed)
    (howner : row.storeRuntimeId = context.runtimeId)
    (haccepted : Disposition.isOf row.operationId disposition = true)
    (hd' : d'.toTables = { d.toTables with
      commands := updateWhere (fun r => r.commandId = row.commandId)
        (fun _ => row.dispose disposition at_) d.commands }) :
    FinishStep allowed context binding disposition d d' := by
  have hmove : RowMove context row (row.dispose disposition at_) := by
    cases disposition with
    | terminalRejected code => exact .terminalRejected hclaimed howner rfl
    | recoveryRequired code => exact .recoveryRequired hclaimed rfl
  have hcall : OwnedCall allowed context d d' := .moved hbound.mem hexternal
    (.disposed disposition at_ hclaimed haccepted) ⟨rfl, rfl, rfl, rfl⟩ hmove hd'
  refine ⟨hcall, fun code hcode => ?_⟩
  subst hcode
  refine ⟨row.dispose (.terminalRejected code) at_, ⟨?_, hbound.binds⟩, rfl, rfl⟩
  rw [hd']
  exact mem_updateWhere.2 ⟨row, hbound.mem, by simp⟩

/-- A disposition that is already stored is reported again. -/
theorem post_repeatDisposition {disposition : Disposition}
    (hbound : Bound d binding context.ownerUid row) :
    post (repeatDisposition row disposition)
      (fun _ => FinishStep allowed context binding disposition d) d := by
  simp only [repeatDisposition, post_ite, post_bind, post_lift]
  refine ⟨fun hstate code hcode => ⟨fun hsame => post_commit fun _ => ?_, fun _ => trivial⟩,
    fun _ => trivial⟩
  rw [parseSafeCode_eq_ok, hsame] at hcode
  refine ⟨.refl context d, fun code h => ?_⟩
  subst h
  exact ⟨row, hbound, hstate, hcode⟩

theorem post_finishExternal (context : StoreContext) (request : ExternalIngestDisposition)
    (d : Database) :
    post (finishExternal context request)
      (fun _ => FinishStep allowed context request.binding request.disposition d) d := by
  unfold finishExternal
  simp only [post_bind, post_read, post_lift, post_ite]
  intro row hrow
  obtain ⟨hbound, -⟩ := boundRow_eq_ok hrow
  have hop := hbound.operation.trans request.operation
  refine ⟨fun hclaimed => ?_, fun _ => post_repeatDisposition hbound⟩
  refine post_moveCommand _ hbound.mem hbound.id (by simp +contextual)
    (by simp [hbound.id, hclaimed.1]) rfl fun d1 h1 => ?_
  exact post_commit fun _ => .stored hbound (by rw [hop]; rfl) hclaimed.1 hclaimed.2
    (by rw [hop]; exact request.accepted) h1

theorem post_persistBlobAndLocation {blob : DurableBlob} {candidate : Id .location}
    {mediaType : Option MediaType} {Q : Id .location → Database → Prop}
    (hQ : ∀ (d' : Database) blobs locations location,
      Persisted d blob candidate mediaType at_ blobs locations location →
      d'.toTables = { d.toTables with blobs := blobs, locations := locations } →
        Q location d') :
    post (persistBlobAndLocation blob candidate mediaType at_) Q d := by
  have hblob : post (persistBlob blob mediaType at_) (fun _ d' =>
      ∃ blobs, d'.toTables = { d.toTables with blobs := blobs } ∧
        ((∃ b ∈ d.blobs, b.digest = blob.digest ∧ b.byteLength = blob.byteLength ∧
          b.mediaType = mediaType ∧ b.lifecycle = .available ∧ blobs = d.blobs) ∨
        (∀ b ∈ d.blobs, b.digest ≠ blob.digest) ∧
          blobs = d.blobs ++ [newBlobRow blob mediaType at_])) d := by
    unfold persistBlob
    simp only [post_bind, post_read]
    cases hfind : d.blobs.find? fun b => b.digest = blob.digest with
    | some row =>
      simp only [post_ite, post_pure]
      refine ⟨fun _ => trivial, fun hrow => ⟨d.blobs, rfl, Or.inl ⟨row, ?_⟩⟩⟩
      simp only [ne_eq, not_or, Decidable.not_not] at hrow
      exact ⟨List.mem_of_find?_eq_some hfind, by simpa using List.find?_some hfind, hrow.2.1,
        hrow.2.2.1, hrow.2.2.2, rfl⟩
    | none =>
      simp only [post_ite]
      refine ⟨fun _ => post_write fun d' h' _ => ⟨_, h', Or.inr ⟨?_, rfl⟩⟩, fun _ => trivial⟩
      simpa using hfind
  unfold persistBlobAndLocation
  rw [post_bind]
  refine post_mono hblob fun _ d1 h1 => ?_
  obtain ⟨blobs, h1, hblobs⟩ := h1
  unfold persistLocation
  simp only [post_bind, post_read]
  cases hat : locationAt d1 blob with
  | some row =>
    simp only [post_ite, post_pure]
    refine ⟨fun hexpected => ?_, fun _ => trivial⟩
    have hmem : row ∈ d1.locations := List.mem_of_find?_eq_some hat
    obtain ⟨hbackend, hlocator⟩ : row.backendId = blob.backend ∧ row.locator = blob.digest := by
      simpa using List.find?_some hat
    rw [h1] at hmem
    exact hQ d1 blobs d.locations row.locationId
      ⟨hblobs, Or.inl ⟨row, hmem, hbackend, hlocator, hexpected, rfl, rfl⟩⟩ h1
  | none =>
    simp only [post_bind, post_pure]
    refine post_write fun d2 h2 _ => ?_
    rw [h1] at hat
    refine hQ d2 blobs (d.locations ++ [newLocationRow blob candidate at_]) candidate
      ⟨hblobs, Or.inr ⟨hat, rfl, rfl⟩⟩ ?_
    simp only [h2, h1]

/-- What `complete_external` returns and commits: only an applied
completion changes anything. -/
structure CompletionStep (allowed : Call → Prop) (context : StoreContext)
    (binding : CommandBinding) (d : Database) (outcome : MutationOutcome) (d' : Database) :
    Prop where
  advances : Advances allowed d d'
  ledger : LedgerStep context d.commands d'.commands
  unapplied : (∀ result, outcome ≠ .applied result) → d'.toTables = d.toTables
  result : ∀ result, outcome = .applied result ∨ outcome = .replay result →
    RegisteredAs d' binding context.ownerUid result

/-- What `register_managed` commits for a claimed row: the blob and its
location, the asset with its graph, its event and its completed row. -/
structure Registers (context : StoreContext) (request : ExternalIngestCompletion)
    (row : CommandRow) (d : Database) (result : CommandResult) (blobs : List BlobRow)
    (locations : List LocationRow) (location : Id .location) (d' : Database) : Prop where
  persisted : Persisted d request.durableBlob request.plan.candidateLocationId
    request.plan.mediaType request.completedAt blobs locations location
  tables : d'.toTables = { registeredTables context request d.toTables with
    commands := updateWhere (fun x => x.commandId = row.commandId)
      (fun _ => registeredCommand request location row) d.commands
    blobs := blobs
    locations := locations }
  replays : replayExternalResult d' (registeredCommand request location row) = .ok result

theorem post_registerManaged {request : ExternalIngestCompletion} (hmem : row ∈ d.commands)
    (hid : row.commandId = request.binding.commandId) (hstate : row.state = .claimed)
    {Q : MutationOutcome → Database → Prop}
    (hQ : ∀ d' result blobs locations location,
      Registers context request row d result blobs locations location d' →
        Q (.applied result) d') :
    post (registerManaged context request) Q d := by
  unfold registerManaged
  rw [post_bind]
  refine post_persistBlobAndLocation fun d1 blobs locations location hpersisted h1 => ?_
  unfold insertRegistrationGraph
  simp only [post_bind]
  refine post_write fun d2 h2 _ => ?_
  refine post_write fun d3 h3 _ => ?_
  refine post_write fun d4 h4 _ => ?_
  refine post_write fun d5 h5 _ => ?_
  refine post_write fun d6 h6 _ => ?_
  refine wp_allocateEventSequences (by decide) (fun d7 _ h7 => ?_) fun _ => trivial
  simp only [post_bind]
  refine post_write fun d8 h8 _ => ?_
  refine post_write fun d9 h9 _ => ?_
  have hcommands : d9.commands = d.commands := by
    simp only [h9, h8, h7, h6, h5, h4, h3, h2, h1]
  refine wp_completeCommand row (by rw [hcommands]; exact hmem) hid hstate
    (fun d10 result h10 _ hresult => ?_) (Or.inl fun _ => trivial)
  have hupdate : updateWhere
      (fun r => decide (r.commandId = request.binding.commandId) &&
        decide (r.state = .claimed))
      (registeredCommand request location) d9.commands =
      updateWhere (fun x => decide (x.commandId = row.commandId))
        (fun _ => registeredCommand request location row) d.commands := by
    rw [hcommands]
    exact d.consistent.commandKeys.updateWhere_key hmem rfl
      (by simp +contextual [hid]) (by simp [hid, hstate]) rfl
  rw [hupdate] at h10
  refine hQ d10 result blobs locations location ⟨hpersisted, ?_, hresult⟩
  simp only [h10, h9, h8, h7, h6, h5, h4, h3, h2, h1]

/-- **A completion changes nothing, or it registers** the asset of the row
that its own process claimed. -/
theorem post_completeExternal_cases {request : ExternalIngestCompletion}
    {Q : MutationOutcome → Database → Prop}
    (hreplay : ∀ result, RegisteredAs d request.binding context.ownerUid result →
      Q (.replay result) d) (hrecovery : ∀ code, Q (.recoveryRequired code) d)
    (hregister : ∀ row d' result blobs locations location,
      Bound d request.binding context.ownerUid row → row.state = .claimed →
      row.storeRuntimeId = context.runtimeId →
      Registers context request row d result blobs locations location d' →
        Q (.applied result) d') :
    post (completeExternal context request) Q d := by
  unfold completeExternal
  simp only [post_bind, post_lift, post_read]
  intro _ _ _ _ row hrow
  obtain ⟨hbound, -⟩ := boundRow_eq_ok hrow
  cases hstate : row.state with
  | completed =>
    simp only [post_bind, post_lift, post_pure]
    exact fun result hresult => hreplay result ⟨row, hbound, hstate, hresult⟩
  | recoveryRequired =>
    simp only [post_bind, post_lift, post_pure]
    exact fun code _ => hrecovery code
  | terminalRejected => trivial
  | claimed =>
    simp only [post_ite]
    refine ⟨fun howner => ?_, fun _ => trivial⟩
    exact post_registerManaged hbound.mem hbound.id hstate
      fun d' result blobs locations location h =>
        hregister row d' result blobs locations location hbound hstate howner h

theorem post_completeExternal (context : StoreContext) (request : ExternalIngestCompletion)
    (d : Database) :
    post (completeExternal context request)
      (CompletionStep allowed context request.binding d) d := by
  refine post_completeExternal_cases (fun result hresult => ?_) (fun code => ?_)
    fun row d' result blobs locations location hbound hstate howner hregisters => ?_
  · refine ⟨Or.inl rfl, .refl context d.commands, fun _ => rfl, fun result' h => ?_⟩
    rcases h with h | h <;> cases h
    exact hresult
  · refine ⟨Or.inl rfl, .refl context d.commands, fun _ => rfl, fun _ h => ?_⟩
    rcases h with h | h <;> cases h
  · have hmem := hbound.mem
    have hop := hbound.operation
    have hexternal : isExternal row.operationId = true := by
      rw [hop, request.operation]
      rfl
    have hcompleted : d'.commands = updateWhere (fun x => decide (x.commandId = row.commandId))
        (fun _ => registeredCommand request location row) d.commands := by
      rw [hregisters.tables]
    refine ⟨Or.inr ?_, ?_, fun h => absurd rfl (h result), fun result' h => ?_⟩
    · rw [hregisters.tables]
      exact Change.registered context request blobs locations location row hmem hbound.id
        (hop.trans request.operation) hstate hregisters.persisted
    · rw [hcompleted]
      exact (LedgerStep.refl context d.commands).update d.consistent.commandKeys hmem hexternal
        ⟨rfl, rfl, rfl, rfl⟩ (.completed hstate howner rfl) hmem
    · obtain rfl : result = result' := by
        rcases h with h | h
        · exact (MutationOutcome.applied.injEq _ _).mp h
        · cases h
      refine ⟨registeredCommand request location row, ⟨?_, hbound.binds⟩, rfl,
        hregisters.replays⟩
      rw [hcompleted]
      exact mem_updateWhere.2 ⟨row, hmem, by simp⟩

/-! ## Materialization -/

/-- The row of a completed materialization. -/
def MaterializedAs (t : Tables) (command : MaterializationCommandBinding) (uid : UInt32)
    (result : MaterializationResult) : Prop :=
  ∃ row, Bound t command.binding uid row ∧ row.state = .completed ∧
    replayMaterialization t row command = .ok result

/-- What `observe_materialization` returns; it changes nothing. -/
structure ObservationStep (context : StoreContext) (command : MaterializationCommandBinding)
    (d : Database) (observation : MaterializationObservation) (d' : Database) : Prop where
  same : d' = d
  rejection : ∀ code, observation = .terminalRejected code →
    RejectedAs d command.binding context.ownerUid code

theorem post_observeMaterialization (context : StoreContext)
    (command : MaterializationCommandBinding) (d : Database) :
    post (observeMaterialization context command) (ObservationStep context command d) d := by
  unfold observeMaterialization
  simp only [post_bind, post_read]
  split
  · exact ⟨rfl, fun _ h => (by cases h)⟩
  · simp only [post_bind, post_lift]
    intro row hrow
    obtain ⟨hbound, -⟩ := boundRow_eq_ok hrow
    cases hstate : row.state with
    | claimed =>
      simp only [post_ite, post_pure]
      exact ⟨fun _ => ⟨rfl, fun _ h => (by cases h)⟩, fun _ => ⟨rfl, fun _ h => (by cases h)⟩⟩
    | recoveryRequired | completed =>
      simp only [post_bind, post_lift, post_pure]
      exact fun _ _ => ⟨rfl, fun _ h => (by cases h)⟩
    | terminalRejected =>
      simp only [post_bind, post_lift, post_pure]
      refine fun code hcode => ⟨rfl, fun _ h => ?_⟩
      cases h
      exact ⟨row, hbound, hstate, parseSafeCode_eq_ok.1 hcode⟩

theorem post_claimNewMaterialization (context : StoreContext)
    (transition : MaterializationTransition) (d : Database) :
    post (claimNewMaterialization context transition)
      (fun _ d' => OwnedCall allowed context d d') d := by
  unfold claimNewMaterialization
  simp only [post_bind, post_read]
  cases hread : readCommand d transition.command.binding with
  | some row => trivial
  | none =>
    have hfresh := readCommand_eq_none.1 hread
    simp only [post_bind]
    refine wp_insertClaim hfresh fun d1 h1 => post_commit fun _ => .claimed hfresh ?_ h1
    rw [transition.command.operation]
    rfl

theorem post_reacquireMaterialization (context : StoreContext)
    (transition : MaterializationTransition) (expected : Option ErrorCode) (d : Database) :
    post (reacquireMaterialization context transition expected)
      (fun _ d' => OwnedCall allowed context d d') d := by
  unfold reacquireMaterialization
  simp only [post_bind, post_read, post_lift, post_ite]
  intro row hrow
  obtain ⟨hbound, -⟩ := boundRow_eq_ok hrow
  have hmem := hbound.mem
  have hid := hbound.id
  have hop := hbound.operation.trans transition.command.operation
  refine ⟨fun hcandidate => ?_, fun _ => trivial⟩
  have hstate : row.state = .recoveryRequired ∨
      row.state = .claimed ∧ row.storeRuntimeId ≠ context.runtimeId := by
    cases expected <;>
      simp only [isReacquirable, Bool.and_eq_true, decide_eq_true_eq] at hcandidate
    · exact Or.inr hcandidate
    · exact Or.inl hcandidate.1.1
  refine post_mono (Q := fun n d1 => n = 1 → d1.toTables = { d.toTables with
      commands := updateWhere (fun r => r.commandId = row.commandId)
        (fun _ => row.reacquire context.runtimeId transition.at_) d.commands }) ?_
    fun n d1 h1 => ?_
  · refine wp_updateCommands (Or.inr trivial) fun d1 h1 hone => ?_
    obtain ⟨x, hx, hpx⟩ := List.countP_pos_iff.1 (hone ▸ Nat.one_pos)
    have hxid : x.commandId = row.commandId := by
      simp only [Bool.and_eq_true, decide_eq_true_eq] at hpx
      rw [hpx.1.1.1, hid]
    obtain rfl := d.consistent.commandKeys.eq_of_mem hx hmem hxid
    rw [h1, d.consistent.commandKeys.updateWhere_key hmem rfl (by simp +contextual [hid]) hpx
      (g := fun _ => x.reacquire context.runtimeId transition.at_) rfl]
  · refine ⟨fun _ => trivial, fun hone => post_commit fun _ => ?_⟩
    exact .moved hmem (by rw [hop]; rfl) (.reacquired _ _ hop hstate) ⟨rfl, rfl, rfl, rfl⟩
      (.reacquired hop hstate rfl rfl) (h1 (Decidable.not_not.1 hone))

theorem post_completeMaterialization (context : StoreContext)
    (transition : MaterializationTransition) (d : Database) :
    post (completeMaterialization context transition)
      (fun result d' => OwnedCall allowed context d d' ∧
        MaterializedAs d' transition.command context.ownerUid result) d := by
  unfold completeMaterialization
  simp only [post_bind, post_read, post_lift, post_ite]
  intro row hrow
  obtain ⟨hbound, -⟩ := boundRow_eq_ok hrow
  have hmem := hbound.mem
  have hop := hbound.operation.trans transition.command.operation
  refine ⟨fun hclaimed => ?_, fun _ => trivial⟩
  refine post_moveCommand _ hmem hbound.id (by simp +contextual)
    (by simp [hbound.id, hclaimed]) rfl fun d1 h1 => ⟨fun _ => trivial, fun _ => ?_⟩
  have hcompleted : row.complete .assetRevision transition.command.assetRevisionId.uuid none none
      transition.at_ ∈ d1.commands := by
    rw [h1]
    exact mem_updateWhere.2 ⟨row, hmem, by simp⟩
  rw [readCommand_of_mem hcompleted hbound.id]
  simp only [post_bind, post_lift, post_pure]
  refine fun row' hrow' result hresult => post_commit fun _ => ⟨?_, ?_⟩
  · exact .moved hmem (by rw [hop]; rfl) (.materialized _ _ hop hclaimed.1) ⟨rfl, rfl, rfl, rfl⟩
      (.completed hclaimed.1 hclaimed.2 rfl) h1
  · obtain ⟨-, -, rfl⟩ := validateCommandRow_eq_ok.1 hrow'
    exact ⟨_, ⟨hcompleted, hbound.binds⟩, rfl, hresult⟩

theorem post_finishMaterialization (context : StoreContext) (request : MaterializationFinish)
    (d : Database) :
    post (finishMaterialization context request)
      (fun _ => FinishStep allowed context request.transition.command.binding
        request.disposition d) d := by
  unfold finishMaterialization
  simp only [post_bind, post_read, post_lift, post_ite]
  intro row hrow
  obtain ⟨hbound, -⟩ := boundRow_eq_ok hrow
  have hop := hbound.operation.trans request.transition.command.operation
  refine ⟨fun hclaimed => ?_, fun _ => post_repeatDisposition hbound⟩
  refine post_moveCommand _ hbound.mem hbound.id (by simp +contextual)
    (by simp [hbound.id, hclaimed]) rfl fun d1 h1 => ⟨fun _ => trivial, fun _ => ?_⟩
  exact post_commit fun _ => .stored hbound (by rw [hop]; rfl) hclaimed.1 hclaimed.2
    (by rw [hop]; exact request.accepted) h1

/-! ## Start-up -/

/-- One row of a page: its own command may move, every other row stays. -/
theorem post_classifyRow {request : StartupMutationPageRequest} {raw : CommandRow} {d0 : Database}
    (h : OwnedCall allowed context d0 d) (hmem0 : raw ∈ d0.commands) (hmem : raw ∈ d.commands)
    (hstate : raw.state = StartupMutationState.column request.state) :
    post (classifyRow context request raw) (fun _ d' => OwnedCall allowed context d0 d' ∧
      ∀ r ∈ d.commands, r ≠ raw → r ∈ d'.commands) d := by
  unfold classifyRow
  simp only [post_bind, post_lift]
  intro row hrow
  obtain ⟨-, -, rfl⟩ := validateCommandRow_eq_ok.1 hrow
  rw [post_ite]
  refine ⟨fun _ => trivial, fun hexternal => ?_⟩
  rw [not_or, Bool.not_eq_false] at hexternal
  cases hrequest : request.state with
  | recoveryRequired => exact ⟨h, fun r hr _ => hr⟩
  | claimed =>
    rw [hrequest] at hstate
    simp only [post_ite]
    refine ⟨fun _ => trivial, fun _ => ?_⟩
    rw [post_bind]
    refine post_moveCommand (row.dispose (.recoveryRequired .storageConfigurationError)
      request.classifiedAt) hmem rfl
      (by simp +contextual) (by simp [hstate, StartupMutationState.column]) rfl fun d1 h1 => ?_
    rw [if_neg (by simp)]
    refine ⟨?_, fun r hr hne => ?_⟩
    · exact h.move hmem0 hexternal.2 (.disposed _ _ hstate (isOf_classified hexternal.2))
        ⟨rfl, rfl, rfl, rfl⟩ (.recoveryRequired hstate rfl) hmem h1
    · rw [h1]
      refine mem_updateWhere.2 ⟨r, hr, if_neg ?_⟩
      simpa using fun h => hne (d.consistent.commandKeys.eq_of_mem hr hmem h)

theorem mem_startupRows {t : Tables} {request : StartupMutationPageRequest}
    {boundary : Id .command} {r : CommandRow} (h : r ∈ startupRows t request boundary) :
    r ∈ t.commands ∧ r.state = StartupMutationState.column request.state := by
  have h := List.mem_of_mem_take h
  rw [List.mem_mergeSort, List.mem_filter] at h
  simp only [Bool.and_eq_true, decide_eq_true_eq] at h
  exact ⟨h.1, h.2.1.1⟩

theorem startupRows_nodup (d : Database) (request : StartupMutationPageRequest)
    (boundary : Id .command) : (startupRows d request boundary).Nodup := by
  have hcommands : d.commands.Nodup := List.Nodup.of_map _ d.consistent.commandKeys
  exact ((List.mergeSort_perm _ _).nodup_iff.2 (hcommands.filter _)).sublist
    (List.take_sublist _ _)

/-- **A classification page is a run of changes**, one for each claim it
turns into a required recovery. -/
theorem post_classifyStartupMutationPage (context : StoreContext)
    (request : StartupMutationPageRequest) (d : Database) :
    post (classifyStartupMutationPage context request)
      (fun _ d' => OwnedCall allowed context d d') d := by
  unfold classifyStartupMutationPage
  split
  · rw [post_ite, post_lift]
    exact ⟨fun _ => trivial, fun _ _ _ => .refl context d⟩
  · rename_i boundary _
    simp only [post_ite, post_bind, post_read, post_lift]
    refine ⟨fun _ => trivial, fun _ => ?_⟩
    refine post_mono (post_forEach
      (fun done d' => OwnedCall allowed context d d' ∧
        ∀ r ∈ startupRows d request boundary, r ∉ done → r ∈ d'.commands)
      ⟨.refl context d, fun r hr _ => (mem_startupRows hr).1⟩ ?_)
      fun _ d' h => post_commit fun _ _ _ => h.1
    rintro done raw rest hsplit d' ⟨hcall, hrest⟩
    have hnodup := startupRows_nodup d request boundary
    rw [hsplit] at hnodup hrest ⊢
    have hraw : raw ∉ done := fun h =>
      (List.nodup_append.1 hnodup).2.2 raw h raw List.mem_cons_self rfl
    have hmem : raw ∈ startupRows d request boundary := by simp [hsplit]
    refine post_mono (post_classifyRow hcall (mem_startupRows hmem).1
      (hrest raw (by simp) hraw) (mem_startupRows hmem).2) fun _ d'' h => ?_
    refine ⟨h.1, fun r hr hdone => ?_⟩
    rw [List.mem_append, List.mem_singleton, not_or] at hdone
    exact h.2 r (hrest r hr hdone.1) hdone.2

end MengXia.Store
