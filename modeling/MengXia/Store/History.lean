import MengXia.Common.Growth
import MengXia.Store.LedgerHistory
/-!
# What later calls keep

`Grows t t'` says what every call preserves of the tables before it: rows
of the history tables are only appended, new rows hang below new parents,
and a row that is updated keeps its identity and only moves forward. It
composes, so it relates any two states of a run (`Later.grows`); results
that were read once are read again from it.
-/

namespace MengXia.Store

open Common

variable {allowed : Call → Prop}

variable {r r' : CommandRow} {at_ : Timestamp} {rows : List CommandRow} {d : Database}

/-! ## Rows that move forward -/

structure AssetRow.Next (a a' : AssetRow) : Prop where
  id : a'.assetId = a.assetId
  kind : a'.kind = a.kind
  revision : a.revision ≤ a'.revision

structure BlobRow.Next (b b' : BlobRow) : Prop where
  digest : b'.digest = b.digest
  length : b'.byteLength = b.byteLength
  mediaType : b'.mediaType = b.mediaType
  lifecycle : b'.lifecycle = b.lifecycle
  revision : b.revision ≤ b'.revision

structure ProjectRow.Next (p p' : ProjectRow) : Prop where
  id : p'.projectId = p.projectId
  name : p'.name = p.name
  creation : p'.creationCommitSequence = p.creationCommitSequence
  command : p'.createdByCommandId = p.createdByCommandId
  revision : p.revision ≤ p'.revision

structure WorkItemRow.Next (w w' : WorkItemRow) : Prop where
  id : w'.workItemId = w.workItemId
  project : w'.projectId = w.projectId
  kind : w'.kind = w.kind
  code : w'.code = w.code
  creation : w'.creationCommitSequence = w.creationCommitSequence
  command : w'.createdByCommandId = w.createdByCommandId
  revision : w.revision ≤ w'.revision

structure TakeRow.Next (x x' : TakeRow) : Prop where
  id : x'.takeId = x.takeId
  place : x'.workRevisionId = x.workRevisionId
  ordinal : x'.ordinal = x.ordinal
  asset : x'.primaryAssetId = x.primaryAssetId
  creation : x'.creationCommitSequence = x.creationCommitSequence
  command : x'.createdByCommandId = x.createdByCommandId
  revision : x.revision ≤ x'.revision
  terminal : x.state.isTerminal = true → x' = x

theorem AssetRow.Next.refl (a : AssetRow) : a.Next a := ⟨rfl, rfl, le_rfl⟩

theorem BlobRow.Next.refl (b : BlobRow) : b.Next b := ⟨rfl, rfl, rfl, rfl, le_rfl⟩

theorem ProjectRow.Next.refl (p : ProjectRow) : p.Next p := ⟨rfl, rfl, rfl, rfl, le_rfl⟩

theorem WorkItemRow.Next.refl (w : WorkItemRow) : w.Next w :=
  ⟨rfl, rfl, rfl, rfl, rfl, rfl, le_rfl⟩

theorem TakeRow.Next.refl (x : TakeRow) : x.Next x :=
  ⟨rfl, rfl, rfl, rfl, rfl, rfl, le_rfl, fun _ => rfl⟩

theorem AssetRow.Next.trans (a b c : AssetRow) (h : a.Next b) (h' : b.Next c) : a.Next c :=
  ⟨h'.id.trans h.id, h'.kind.trans h.kind, h.revision.trans h'.revision⟩

theorem BlobRow.Next.trans (a b c : BlobRow) (h : a.Next b) (h' : b.Next c) : a.Next c :=
  ⟨h'.digest.trans h.digest, h'.length.trans h.length, h'.mediaType.trans h.mediaType,
    h'.lifecycle.trans h.lifecycle, h.revision.trans h'.revision⟩

theorem ProjectRow.Next.trans (a b c : ProjectRow) (h : a.Next b) (h' : b.Next c) : a.Next c :=
  ⟨h'.id.trans h.id, h'.name.trans h.name, h'.creation.trans h.creation,
    h'.command.trans h.command, h.revision.trans h'.revision⟩

theorem WorkItemRow.Next.trans (a b c : WorkItemRow) (h : a.Next b) (h' : b.Next c) : a.Next c :=
  ⟨h'.id.trans h.id, h'.project.trans h.project, h'.kind.trans h.kind, h'.code.trans h.code,
    h'.creation.trans h.creation, h'.command.trans h.command, h.revision.trans h'.revision⟩

theorem TakeRow.Next.trans (a b c : TakeRow) (h : a.Next b) (h' : b.Next c) : a.Next c := by
  refine ⟨h'.id.trans h.id, h'.place.trans h.place, h'.ordinal.trans h.ordinal,
    h'.asset.trans h.asset, h'.creation.trans h.creation, h'.command.trans h.command,
    h.revision.trans h'.revision, fun hterminal => ?_⟩
  obtain rfl := h.terminal hterminal
  exact h'.terminal hterminal

/-! ## Growth -/

/-- Every command is still stored under its binding, and an ended one
unchanged. -/
structure LedgerKept (rows rows' : List CommandRow) : Prop where
  stored : Kept SameCommand rows rows'
  ended : ∀ r ∈ rows, r.Ended → r ∈ rows'

/-- No ended command of the ledger has this id. -/
def NotEnded (rows : List CommandRow) (id : Id .command) : Prop :=
  ∀ r ∈ rows, r.Ended → r.commandId ≠ id

/-- What the calls between `t` and `t'` keep. -/
structure Grows (t t' : Tables) : Prop where
  sequence : t.lastSequence ≤ t'.lastSequence
  commands : LedgerKept t.commands t'.commands
  assets : Kept AssetRow.Next t.assets t'.assets
  assetRevisions : Appended (fun _ => True) t.assetRevisions t'.assetRevisions
  parents : Appended (fun x => ∀ ar ∈ t.assetRevisions, ar.assetRevisionId ≠ x.childRevisionId)
    t.parents t'.parents
  representations : Appended
    (fun rp => ∀ ar ∈ t.assetRevisions, ar.assetRevisionId ≠ rp.assetRevisionId)
    t.representations t'.representations
  resources : Appended
    (fun rs => ∀ rp ∈ t.representations, rp.representationId ≠ rs.representationId)
    t.resources t'.resources
  members : Appended (fun m => ∀ rs ∈ t.resources, rs.resourceId ≠ m.resourceId)
    t.members t'.members
  blobs : Kept BlobRow.Next t.blobs t'.blobs
  locations : Appended (fun _ => True) t.locations t'.locations
  provenanceEvents : Appended (fun p => NotEnded t.commands p.commandId)
    t.provenanceEvents t'.provenanceEvents
  domainEvents : Appended
    (fun e => t.lastSequence < e.commitSequence ∧ NotEnded t.commands e.commandId)
    t.domainEvents t'.domainEvents
  projects : Kept ProjectRow.Next t.projects t'.projects
  specRevisions : Appended (fun _ => True) t.specRevisions t'.specRevisions
  subjects : Appended (fun _ => True) t.subjects t'.subjects
  workItems : Kept WorkItemRow.Next t.workItems t'.workItems
  workRevisions : Appended (fun _ => True) t.workRevisions t'.workRevisions
  takes : Kept TakeRow.Next t.takes t'.takes
  relationships : Appended (fun x => NotEnded t.commands x.createdByCommandId)
    t.relationships t'.relationships

theorem LedgerKept.refl (rows : List CommandRow) : LedgerKept rows rows :=
  ⟨.refl SameCommand.refl rows, fun _ hr _ => hr⟩

theorem LedgerKept.concat (row : CommandRow) :
    LedgerKept rows (rows ++ [row]) :=
  ⟨(Kept.refl SameCommand.refl rows).append [row], fun _ hr _ => List.mem_append_left _ hr⟩

theorem LedgerKept.update (hkeys : Distinct CommandRow.commandId rows) (hr : r ∈ rows)
    (hsame : SameCommand r r') (hended : ¬ r.Ended) :
    LedgerKept rows
      (updateWhere (fun x => x.commandId = r.commandId) (fun _ => r') rows) := by
  refine ⟨.updateWhere SameCommand.refl fun x hx hid => ?_, fun x hx hx' => ?_⟩
  · rwa [hkeys.eq_of_mem hx hr (of_decide_eq_true hid)]
  · refine mem_updateWhere.2 ⟨x, hx, if_neg ?_⟩
    rw [decide_eq_true_eq]
    intro hid
    rw [hkeys.eq_of_mem hx hr hid] at hx'
    exact hended hx'

theorem LedgerKept.notEnded {rows' : List CommandRow} (h : LedgerKept rows rows') {id : Id .command}
    (hid : NotEnded rows' id) : NotEnded rows id :=
  fun r hr hended => hid r (h.ended r hr hended) hended

theorem Grows.refl (t : Tables) : Grows t t where
  sequence := le_rfl
  commands := .refl t.commands
  assets := .refl AssetRow.Next.refl t.assets
  assetRevisions := .refl _ t.assetRevisions
  parents := .refl _ t.parents
  representations := .refl _ t.representations
  resources := .refl _ t.resources
  members := .refl _ t.members
  blobs := .refl BlobRow.Next.refl t.blobs
  locations := .refl _ t.locations
  provenanceEvents := .refl _ t.provenanceEvents
  domainEvents := .refl _ t.domainEvents
  projects := .refl ProjectRow.Next.refl t.projects
  specRevisions := .refl _ t.specRevisions
  subjects := .refl _ t.subjects
  workItems := .refl WorkItemRow.Next.refl t.workItems
  workRevisions := .refl _ t.workRevisions
  takes := .refl TakeRow.Next.refl t.takes
  relationships := .refl _ t.relationships

/-- **Growth composes.** A row that is new to a later state hangs below
parents that are new to the earlier one as well. -/
theorem Grows.trans {t t' t'' : Tables} (h : Grows t t') (h' : Grows t' t'') : Grows t t'' where
  sequence := h.sequence.trans h'.sequence
  commands := ⟨h.commands.stored.trans
      (fun _ _ _ a b => ⟨b.id.trans a.id, b.operation.trans a.operation, b.digest.trans a.digest,
        b.owner.trans a.owner⟩) h'.commands.stored,
    fun r hr hended => h'.commands.ended r (h.commands.ended r hr hended) hended⟩
  assets := h.assets.trans AssetRow.Next.trans h'.assets
  assetRevisions := (h.assetRevisions.trans h'.assetRevisions).mono fun _ _ => trivial
  parents := (h.parents.trans h'.parents).mono fun _ hx => hx.elim id fun hx ar har =>
    hx ar (h.assetRevisions.subset har)
  representations := (h.representations.trans h'.representations).mono fun _ hx =>
    hx.elim id fun hx ar har => hx ar (h.assetRevisions.subset har)
  resources := (h.resources.trans h'.resources).mono fun _ hx => hx.elim id fun hx rp hrp =>
    hx rp (h.representations.subset hrp)
  members := (h.members.trans h'.members).mono fun _ hx => hx.elim id fun hx rs hrs =>
    hx rs (h.resources.subset hrs)
  blobs := h.blobs.trans BlobRow.Next.trans h'.blobs
  locations := (h.locations.trans h'.locations).mono fun _ _ => trivial
  provenanceEvents := (h.provenanceEvents.trans h'.provenanceEvents).mono fun _ hx =>
    hx.elim id h.commands.notEnded
  domainEvents := (h.domainEvents.trans h'.domainEvents).mono fun _ hx =>
    hx.elim id fun hx => ⟨h.sequence.trans_lt hx.1, h.commands.notEnded hx.2⟩
  projects := h.projects.trans ProjectRow.Next.trans h'.projects
  specRevisions := (h.specRevisions.trans h'.specRevisions).mono fun _ _ => trivial
  subjects := (h.subjects.trans h'.subjects).mono fun _ _ => trivial
  workItems := h.workItems.trans WorkItemRow.Next.trans h'.workItems
  workRevisions := (h.workRevisions.trans h'.workRevisions).mono fun _ _ => trivial
  takes := h.takes.trans TakeRow.Next.trans h'.takes
  relationships := (h.relationships.trans h'.relationships).mono fun _ hx =>
    hx.elim id h.commands.notEnded

/-! ## Every change is growth -/

theorem FreshCommand.notEnded {t : Tables} {id : Id .command} (h : FreshCommand t id) :
    NotEnded t.commands id :=
  fun r hr _ => h r hr

/-- The id of a claimed command is not that of an ended one. -/
theorem notEnded_of_claimed (hr : r ∈ d.commands) (hclaimed : r.state = .claimed) :
    NotEnded d.commands r.commandId := by
  intro x hx hended hid
  rw [d.consistent.commandKeys.eq_of_mem hx hr hid] at hended
  simp [CommandRow.Ended, hclaimed] at hended

theorem ExternalMove.not_ended (h : ExternalMove r r') : ¬ r.Ended := by
  unfold CommandRow.Ended
  cases h with
  | disposed _ _ claimed | materialized _ _ _ claimed => simp [claimed]
  | reacquired _ _ operation state =>
    rcases state with state | ⟨state, -⟩ <;> simp [state, operation]

theorem ExternalMove.same (h : ExternalMove r r') : SameCommand r r' := by
  cases h <;> exact ⟨rfl, rfl, rfl, rfl⟩

/-- A take that admits a transition is not terminal and moves forward. -/
theorem TakeRow.next_move {x : TakeRow} {transition : TakeTransition} {target : TakeState}
    (h : x.state.transition transition = .ok target) (state : TakeState) (at_ : Timestamp) :
    x.Next (x.move state (x.revision + 1) at_) := by
  refine ⟨rfl, rfl, rfl, rfl, rfl, rfl, Nat.le_succ _, fun hterminal => ?_⟩
  rw [TakeState.transition_terminal hterminal] at h
  cases h

/-- The rows of a stored content. -/
theorem Persisted.blobsKept {t : Tables} {blob : DurableBlob} {candidate location : Id .location}
    {mediaType : Option MediaType} {blobs : List BlobRow} {locations : List LocationRow}
    (h : Persisted t blob candidate mediaType at_ blobs locations location) :
    Kept BlobRow.Next t.blobs blobs := by
  rcases h.blobs with ⟨_, -, -, -, -, -, rfl⟩ | ⟨-, rfl⟩
  · exact .refl BlobRow.Next.refl _
  · exact (Kept.refl BlobRow.Next.refl _).append _

theorem Persisted.locationsAppended {t : Tables} {blob : DurableBlob}
    {candidate location : Id .location} {mediaType : Option MediaType} {blobs : List BlobRow}
    {locations : List LocationRow}
    (h : Persisted t blob candidate mediaType at_ blobs locations location) :
    Appended (fun _ => True) t.locations locations := by
  rcases h.locations with ⟨_, -, -, -, -, -, rfl⟩ | ⟨-, -, rfl⟩
  · exact .refl _ _
  · exact .concat trivial

theorem workEdges_notEnded {t : Tables} {revisionId : Id .workRevision} {binding : CommandBinding}
    {specification : WorkSpecification} {ids : List (Id .relationship)}
    (h : FreshCommand t binding.commandId) :
    ∀ x ∈ workEdgeRows revisionId binding at_ specification ids,
      NotEnded t.commands x.createdByCommandId :=
  fun _ hx => (mem_workEdges hx).1 ▸ h.notEnded

/-- A reference into rows with a fresh key is no reference to the old ones. -/
theorem ne_of_refers_new {α β γ : Type} {key : γ → β} {source : α → β} {old new : List γ}
    {added : List α} (hkeys : Distinct key (old ++ new)) (href : ∀ r ∈ added, ∃ y ∈ new,
      key y = source r) : ∀ r ∈ added, ∀ x ∈ old, key x ≠ source r := by
  intro r hr x hx
  obtain ⟨y, hy, hyr⟩ := href r hr
  rw [← hyr]
  exact (distinct_append.1 hkeys).2.2 x hx y hy

/-- A pure command that only adds its row and one event. -/
theorem Grows.event {t : Tables} {row : CommandRow} {e : EventRow} {id : Id .command}
    (hfresh : FreshCommand t id) (hid : e.commandId = id)
    (hsequence : e.commitSequence = t.lastSequence + 1) :
    Grows t (t.concluded row e) :=
  { Grows.refl t with
    sequence := Nat.le_succ _
    commands := .concat row
    domainEvents := .concat ⟨hsequence ▸ Nat.lt_succ_self _, hid ▸ hfresh.notEnded⟩ }

/-- **Every change is growth.** -/
theorem Change.grows {d' : Database} (hchange : Change allowed d d') :
    Grows d d' := by
  generalize ht : d'.toTables = t' at hchange
  cases hchange with
  | claimed | rejected => exact { Grows.refl d.toTables with commands := .concat _ }
  | moved r r' mem external move =>
    exact { Grows.refl d.toTables with
      commands := .update d.consistent.commandKeys mem move.same move.not_ended }
  | registered context request blobs locations location r mem id operation claimed persisted =>
    have hrevisions := d'.consistent.revisionKeys
    have hrepresentations := d'.consistent.representationKeys
    have hresources := d'.consistent.resourceKeys
    rw [ht] at hrevisions hrepresentations hresources
    have hid := id ▸ notEnded_of_claimed mem claimed
    exact { Grows.refl d.toTables with
      sequence := Nat.le_succ _
      commands := .update d.consistent.commandKeys mem ⟨rfl, rfl, rfl, rfl⟩
        (by simp [CommandRow.Ended, claimed])
      assets := (Kept.refl AssetRow.Next.refl _).append _
      assetRevisions := .concat trivial
      representations := .concat fun ar har => (distinct_append_singleton.1 hrevisions).2 ar har
      resources := .concat fun rp hrp => (distinct_append_singleton.1 hrepresentations).2 rp hrp
      members := .concat fun rs hrs => (distinct_append_singleton.1 hresources).2 rs hrs
      blobs := persisted.blobsKept
      locations := persisted.locationsAppended
      provenanceEvents := .concat hid
      domainEvents := .concat ⟨Nat.lt_succ_self _, hid⟩ }
  | revisionCreated context request asset fresh mem id =>
    have hrevisions := d'.consistent.revisionKeys
    have hrepresentations := d'.consistent.representationKeys
    have hresources := d'.consistent.resourceKeys
    rw [ht] at hrevisions hrepresentations hresources
    have hnew := (distinct_append_singleton.1 hrevisions).2
    refine { Grows.event fresh rfl rfl with
      assets := .updateKey AssetRow.Next.refl d.consistent.assetKeys mem id
        ⟨rfl, rfl, Nat.le_succ _⟩
      assetRevisions := .concat trivial
      parents := .of_append ?_
      representations := .of_append ?_
      resources := .of_append (ne_of_refers_new hrepresentations ?_)
      members := .of_append (ne_of_refers_new hresources ?_)
      provenanceEvents := .concat fresh.notEnded }
    · intro x hx
      obtain ⟨_, -, rfl⟩ := List.mem_map.1 hx
      exact hnew
    · intro x hx
      obtain ⟨_, -, rfl⟩ := List.mem_map.1 hx
      exact hnew
    · intro x hx
      obtain ⟨rp, hrp, hx⟩ := List.mem_flatMap.1 hx
      obtain ⟨_, -, rfl⟩ := List.mem_map.1 hx
      exact ⟨_, List.mem_map_of_mem hrp, rfl⟩
    · intro x hx
      obtain ⟨rp, hrp, hx⟩ := List.mem_flatMap.1 hx
      obtain ⟨rs, hrs, hx⟩ := List.mem_flatMap.1 hx
      obtain ⟨_, -, rfl⟩ := List.mem_map.1 hx
      exact ⟨_, List.mem_flatMap.2 ⟨rp, hrp, List.mem_map_of_mem hrs⟩, rfl⟩
  | lifecycleChanged context request asset fresh mem id =>
    exact { Grows.event fresh rfl rfl with
      assets := .updateKey AssetRow.Next.refl d.consistent.assetKeys mem id
        ⟨rfl, rfl, Nat.le_succ _⟩ }
  | locationRecorded context request blob fresh mem id =>
    exact { Grows.event fresh rfl rfl with
      blobs := .updateKey BlobRow.Next.refl d.consistent.blobKeys mem id
        ⟨rfl, rfl, rfl, rfl, Nat.le_succ _⟩
      locations := .concat trivial }
  | projectCreated context request projectId specId eventId at_ call fresh =>
    exact { Grows.event fresh rfl rfl with
      projects := (Kept.refl ProjectRow.Next.refl _).append _
      specRevisions := .concat trivial }
  | projectRevised context request project specId eventId at_ call fresh mem id =>
    exact { Grows.event fresh rfl rfl with
      projects := .updateKey ProjectRow.Next.refl d.consistent.projectKeys mem id
        ⟨rfl, rfl, rfl, rfl, Nat.le_succ _⟩
      specRevisions := .concat trivial }
  | projectRevisionLeft =>
    exact { Grows.refl d.toTables with
      commands := .concat _
      specRevisions := .concat trivial }
  | subjectCreated context request subjectId eventId at_ call fresh =>
    exact { Grows.event fresh rfl rfl with subjects := .concat trivial }
  | workCreated context request workId revisionId eventId relationshipIds at_ call fresh =>
    exact { Grows.event fresh rfl rfl with
      workItems := (Kept.refl WorkItemRow.Next.refl _).append _
      workRevisions := .concat trivial
      relationships := .of_append (workEdges_notEnded fresh) }
  | workRevised context request work revisionId eventId relationshipIds at_ call fresh mem id =>
    exact { Grows.event fresh rfl rfl with
      workItems := .updateKey WorkItemRow.Next.refl d.consistent.workKeys mem id
        ⟨rfl, rfl, rfl, rfl, rfl, rfl, Nat.le_succ _⟩
      workRevisions := .concat trivial
      relationships := .of_append (workEdges_notEnded fresh) }
  | workRevisionLeft context request work revisionId relationshipIds at_ call fresh mem id =>
    exact { Grows.refl d.toTables with
      commands := .concat _
      workItems := .updateKey WorkItemRow.Next.refl d.consistent.workKeys mem id
        ⟨rfl, rfl, rfl, rfl, rfl, rfl, Nat.le_succ _⟩
      workRevisions := .concat trivial
      relationships := .of_append (workEdges_notEnded fresh) }
  | takeCreated context request takeId eventId at_ ordinal call fresh =>
    exact { Grows.event fresh rfl rfl with
      takes := (Kept.refl TakeRow.Next.refl _).append _ }
  | takeMoved context request take target draw payload call fresh mem id transition =>
    exact { Grows.event fresh rfl rfl with
      takes := .updateKey TakeRow.Next.refl d.consistent.takeKeys mem id
        (TakeRow.next_move transition _ _) }
  | takeReplaced context request take selected draw payload payload' call fresh mem id _ transition
      _ other otherState _ distinct =>
    have hselected : selected.Next (selected.move .superseded (selected.revision + 1) draw.at_) :=
      @TakeRow.next_move selected .supersede .superseded (by rw [otherState]; rfl) _ _
    have hmem : take ∈ updateWhere (fun r => decide (r.takeId = selected.takeId))
        (TakeRow.move .superseded (selected.revision + 1) draw.at_) d.takes :=
      mem_updateWhere.2 ⟨take, mem, if_neg (by simpa [id] using distinct.symm)⟩
    have hkeys : Distinct TakeRow.takeId (updateWhere (fun r => decide (r.takeId = selected.takeId))
        (TakeRow.move .superseded (selected.revision + 1) draw.at_) d.takes) :=
      d.consistent.takeKeys.updateWhere fun _ => rfl
    exact { Grows.refl d.toTables with
      sequence := Nat.le_add_right _ 2
      commands := .concat _
      domainEvents := .of_append fun e he => by
        rcases List.mem_cons.1 he with rfl | he
        · exact ⟨Nat.lt_succ_self _, fresh.notEnded⟩
        · rw [List.mem_singleton.1 he]
          exact ⟨Nat.lt_add_of_pos_right (by decide), fresh.notEnded⟩
      takes := (Kept.updateKey TakeRow.Next.refl d.consistent.takeKeys other rfl hselected).trans
        TakeRow.Next.trans
        (.updateKey TakeRow.Next.refl hkeys hmem id (TakeRow.next_move transition _ _))
      relationships := .concat fresh.notEnded }
  | takeSuperseded context request take replacement draw payload call fresh mem id _ transition =>
    exact { Grows.event fresh rfl rfl with
      takes := .updateKey TakeRow.Next.refl d.consistent.takeKeys mem id
        (TakeRow.next_move transition _ _)
      relationships := .concat fresh.notEnded }
  | takeReopened context request terminal takeId eventId relationshipId at_ ordinal payload call
      fresh =>
    exact { Grows.event fresh rfl rfl with
      takes := (Kept.refl TakeRow.Next.refl _).append _
      relationships := .concat fresh.notEnded }

/-- **A call makes the tables grow.** -/
theorem Call.grows (call : Call) (context : StoreContext) (d : Database) :
    Grows d ((call.exec context).run d).2.toTables := by
  have hsteps := @run_advances (fun _ => True) context call d trivial
  generalize ((call.exec context).run d).2 = d' at hsteps
  induction hsteps with
  | refl => exact .refl _
  | tail _ hstep ih =>
    refine ih.trans ?_
    rcases hstep with hsame | hchange
    · rw [hsame]
      exact .refl _
    · exact hchange.grows

/-- **And so does every run of calls.** -/
theorem Later.grows {d' : Database} (h : Later allowed d d') :
    Grows d d' := by
  induction h with
  | refl => exact .refl _
  | step context call _ _ ih => exact ih.trans (call.grows context _)

/-- **History is never rewritten.** Whatever calls follow, an ended command,
a revision with all that hangs below it, a location, a provenance record and
an edge stay as they were stored; new events are numbered after all old
ones; assets, projects, work items and takes stay under their ids, with
counters that never fall and takes in a terminal state unchanged. -/
theorem history_append_only {d' : Database} (h : Later allowed d d') :
    (∀ r ∈ d.commands, r.Ended → r ∈ d'.commands) ∧
    (d.assetRevisions <+: d'.assetRevisions ∧ d.parents <+: d'.parents ∧
      d.representations <+: d'.representations ∧ d.resources <+: d'.resources ∧
      d.members <+: d'.members ∧ d.locations <+: d'.locations ∧
      d.provenanceEvents <+: d'.provenanceEvents ∧ d.specRevisions <+: d'.specRevisions ∧
      d.subjects <+: d'.subjects ∧ d.workRevisions <+: d'.workRevisions ∧
      d.relationships <+: d'.relationships) ∧
    Appended (fun e => d.lastSequence < e.commitSequence) d.domainEvents d'.domainEvents ∧
    Kept AssetRow.Next d.assets d'.assets ∧ Kept ProjectRow.Next d.projects d'.projects ∧
    Kept WorkItemRow.Next d.workItems d'.workItems ∧ Kept TakeRow.Next d.takes d'.takes := by
  have hgrows := h.grows
  exact ⟨hgrows.commands.ended, ⟨hgrows.assetRevisions.initial, hgrows.parents.initial,
    hgrows.representations.initial, hgrows.resources.initial, hgrows.members.initial,
    hgrows.locations.initial, hgrows.provenanceEvents.initial, hgrows.specRevisions.initial,
    hgrows.subjects.initial, hgrows.workRevisions.initial, hgrows.relationships.initial⟩,
    hgrows.domainEvents.mono fun _ h => h.1, hgrows.assets, hgrows.projects, hgrows.workItems,
    hgrows.takes⟩

/-- The revision of `oneAsset` is kept while a project is created. -/
theorem one_asset_stays : oneAsset.assetRevisions.length = 1 ∧
    oneAsset.assetRevisions <+:
      (afterCalls oneAsset [.execute (.createProject (.numbered 10))]).assetRevisions := by
  have hlater : Later (fun _ => True) oneAsset
      (afterCalls oneAsset [.execute (.createProject (.numbered 10))]) :=
    .step firstProcess _ .refl trivial
  exact ⟨by decide +kernel, (history_append_only hlater).2.1.1⟩

end MengXia.Store
