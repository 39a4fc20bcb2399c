
import MengXia.AssetViews
import MengXia.Common.Paging
import MengXia.Store.Assets
import Mathlib.Data.Prod.Lex
/-!
# Asset queries

`asset_query.rs`: the listing of registered assets by event number, and
the inspection of one revision, member by member and location by location.
A query reads one committed state, given as its tables. The inspection
counts its selects and fails when they run out, so that it is a transaction
over that counter.
-/

namespace MengXia.Store

namespace AssetQuery

open Common

/-! ## Registered assets -/

/-- `registered_event`: the one event that registers the asset. -/
def registeredEvent (t : Tables) (assetId : Id .asset) : AssetResult EventRow :=
  match (rowsAfter EventRow.commitSequence none (t.domainEvents.filter fun e =>
      e.aggregateKind = .asset && e.aggregateId = .uuid assetId.uuid &&
        e.eventType = .assetRegistered)).take 2 with
  | [] => .error .notFound
  | [e] => .ok e
  | _ => .error .storageCorruption

/-- The `commands` row that `read_registered_asset` asks for. -/
def isRegisteringCommand (commandId : Id .command) (asset : Uuid) (c : CommandRow) : Bool :=
  c.commandId = commandId && c.operationId = .assetIngest && c.state = .completed &&
    c.resultKind = some .asset && c.resultId = some asset && c.resultLocationId.isSome &&
    c.safeErrorCode.isNone

/-- The view `read_registered_asset` makes of an asset row. -/
def summary (e : EventRow) (a : AssetRow) : AssetSummaryView where
  assetId := a.assetId
  kind := a.kind
  lifecycle := a.lifecycle
  revision := a.revision
  createdAt := a.createdAt
  updatedAt := a.updatedAt.getD a.createdAt
  creationCommitSequence := e.commitSequence

/-- `read_registered_asset`. -/
def readRegisteredAsset (t : Tables) (e : EventRow) : AssetResult AssetSummaryView :=
  if e.eventType ≠ .assetRegistered ∨ e.aggregateKind ≠ .asset ∨ e.aggregateRevision ≠ some 1 then
    .error .storageCorruption
  else
    match e.aggregateId with
    | .digest _ => .error .storageCorruption
    | .uuid asset =>
      if !t.commands.any (isRegisteringCommand e.commandId asset) then .error .storageCorruption
      else
        match t.assets.find? fun a => a.assetId.uuid = asset with
        | none => .error .storageCorruption
        | some a =>
          if a.createdAt ≠ e.occurredAt ∨ a.revision = 0 then .error .storageCorruption
          else .ok (summary e a)

/-! ## The listing -/

/-- `MAX_EVENT_SCAN`. -/
def maxEventScan : ℕ := 256

/-- `require_event`. -/
def requireEvent (t : Tables) (sequence : ℕ) : AssetResult Unit :=
  if t.domainEvents.any fun e => e.commitSequence = sequence then .ok ()
  else .error .storageCorruption

/-- Where the loop of `list_assets` stands. -/
structure Listing where
  assets : List AssetSummaryView
  lastExamined : ℕ
  stepped : ℕ

/-- The loop of `list_assets`: it stops when the page is full. -/
def scanEvents (t : Tables) (pageSize : ℕ) :
    Listing → List EventRow → AssetResult Listing
  | listing, [] => .ok listing
  | listing, e :: rows =>
    if pageSize ≤ listing.assets.length then .ok listing
    else if e.commitSequence ≠ listing.lastExamined + 1 then .error .storageCorruption
    else if e.eventType = .assetRegistered then do
      let asset ← readRegisteredAsset t e
      scanEvents t pageSize ⟨listing.assets ++ [asset], e.commitSequence, listing.stepped + 1⟩ rows
    else scanEvents t pageSize ⟨listing.assets, e.commitSequence, listing.stepped + 1⟩ rows

/-- The snapshot of a listing and the last event it examined. -/
def listStart (libraryId : BitVec 128) (t : Tables) :
    ListAssetsPosition → AssetResult (ℕ × ℕ)
  | .first =>
    if t.lastSequence ≠ ((t.domainEvents.map EventRow.commitSequence).max?).getD 0 then
      .error .storageCorruption
    else .ok (t.lastSequence, 0)
  | .after cursorLibrary snapshotSequence lastExaminedSequence _ =>
    if cursorLibrary ≠ libraryId then .error .validation
    else if t.lastSequence < snapshotSequence then .error .storageCorruption
    else do
      requireEvent t lastExaminedSequence
      requireEvent t snapshotSequence
      .ok (snapshotSequence, lastExaminedSequence)

/-- The events of one page of a listing. -/
def listedEvents (t : Tables) (snapshot lastExamined : ℕ) : List EventRow :=
  (rowsAfter EventRow.commitSequence (some lastExamined)
    (t.domainEvents.filter fun e => e.commitSequence ≤ snapshot)).take maxEventScan

/-- `list_assets`. -/
def listAssets (libraryId : BitVec 128) (t : Tables) (request : ListAssetsQuery) :
    AssetResult AssetPage := do
  let (snapshot, lastExamined) ← listStart libraryId t request.position
  if snapshot = 0 then AssetPage.fromStore ⟨0, [], none⟩
  else do
    let listing ← scanEvents t request.pageSize ⟨[], lastExamined, 0⟩
      (listedEvents t snapshot lastExamined)
    if listing.stepped = 0 ∧ listing.lastExamined < snapshot then .error .storageCorruption
    else if listing.lastExamined = snapshot then
      AssetPage.fromStore ⟨snapshot, listing.assets, none⟩
    else do
      let next ← ListAssetsPosition.newAfter libraryId snapshot listing.lastExamined
      AssetPage.fromStore ⟨snapshot, listing.assets, some next⟩

/-! ## Members -/

/-- A read of the inspection, over the number of selects it has used. -/
abbrev Read (α : Type) : Type := Txn ℕ AssetStoreError α

/-- `MAX_INSPECT_SELECTS`. -/
def maxInspectSelects : ℕ := 512

/-- `SelectBudget::consume`. -/
def consume (count : ℕ) : Read Unit := fun used =>
  if used + count ≤ maxInspectSelects then .ok ((), used + count) else .error .internal

/-- The `MemberRow` of the query: a member with what it is joined to. -/
structure InspectedMember where
  key : MemberKey
  representationPurpose : RepresentationPurpose
  resourceKind : ResourceKind
  logicalName : LogicalName
  blobDigest : Digest
  byteLength : ℕ
  mediaType : Option MediaType
  blobRevision : RevisionNo
  deriving DecidableEq

/-- The view of a location. -/
def locationView (l : LocationRow) : AssetLocationView where
  locationId := l.locationId
  lifecycle := l.lifecycle
  custody := l.custody
  durability := l.durability

/-- `MemberRow::view`. -/
def InspectedMember.view (m : InspectedMember) (location : Option LocationRow) :
    AssetMemberView where
  representationId := m.key.representationId
  representationPurpose := m.representationPurpose
  resourceId := m.key.resourceId
  resourceKind := m.resourceKind
  memberOrdinal := m.key.ordinal
  logicalName := m.logicalName
  blobDigest := m.blobDigest
  byteLength := m.byteLength
  mediaType := m.mediaType
  location := location.map locationView

/-- The representations of a revision, the resources of a representation and
the members of a resource, from a given one on. -/
def representationsAfter (t : Tables) (revisionId : Id .assetRevision) (start : Option ℕ) :
    List RepresentationRow :=
  rowsAfter (fun r => r.representationId.key) start
    (t.representations.filter fun r => r.assetRevisionId = revisionId)

def resourcesAfter (t : Tables) (representationId : Id .representation) (start : Option ℕ) :
    List ResourceRow :=
  rowsAfter (fun r => r.resourceId.key) start
    (t.resources.filter fun r => r.representationId = representationId)

def membersAfter (t : Tables) (resourceId : Id .resource) (start : Option ℕ) : List MemberRow :=
  rowsAfter MemberRow.ordinal start (t.members.filter fun r => r.resourceId = resourceId)

/-- The join of `read_member`. -/
def memberJoin (t : Tables) (revisionId : Id .assetRevision) (key : MemberKey) :
    Option (RepresentationRow × ResourceRow × MemberRow × BlobRow) := do
  let rp ← t.representations.find? fun r =>
    r.assetRevisionId = revisionId && r.representationId = key.representationId
  let rs ← t.resources.find? fun r =>
    r.representationId = rp.representationId && r.resourceId = key.resourceId
  let rm ← t.members.find? fun r => r.resourceId = rs.resourceId && r.ordinal = key.ordinal
  let b ← t.blobs.find? fun b => b.digest = rm.blobDigest
  pure (rp, rs, rm, b)

/-- The member read from a joined row. -/
def inspectedMember (key : MemberKey) (rp : RepresentationRow) (rs : ResourceRow) (rm : MemberRow)
    (b : BlobRow) : InspectedMember where
  key := key
  representationPurpose := rp.purpose
  resourceKind := rs.kind
  logicalName := rm.logicalName
  blobDigest := rm.blobDigest
  byteLength := b.byteLength
  mediaType := b.mediaType
  blobRevision := b.revision

/-- `read_member`. -/
def readMember (t : Tables) (revisionId : Id .assetRevision) (key : MemberKey) :
    Read InspectedMember := do
  consume 1
  match memberJoin t revisionId key with
  | none => Txn.fail .validation
  | some (rp, rs, rm, b) =>
    if b.lifecycle ≠ .available ∨ 2 ^ 40 < b.byteLength ∨ b.revision = 0 then
      Txn.fail .storageCorruption
    else pure (inspectedMember key rp rs rm b)

/-- `first_resource`: of one to 64 resources. -/
def firstResource (t : Tables) (representationId : Id .representation) : Read (Id .resource) := do
  consume 1
  match (resourcesAfter t representationId none).take 65 with
  | [] => Txn.fail .storageCorruption
  | first :: rest =>
    if 64 < rest.length + 1 then Txn.fail .storageCorruption else pure first.resourceId

/-- `first_member_in_resource`. -/
def firstMemberInResource (t : Tables) (revisionId : Id .assetRevision)
    (representationId : Id .representation) (resourceId : Id .resource) :
    Read InspectedMember := do
  consume 1
  match (membersAfter t resourceId none).head? with
  | none => Txn.fail .storageCorruption
  | some first =>
    if first.ordinal ≠ 0 then Txn.fail .storageCorruption
    else readMember t revisionId ⟨representationId, resourceId, first.ordinal⟩

/-- `first_member_in_representation`. -/
def firstMemberInRepresentation (t : Tables) (revisionId : Id .assetRevision)
    (representationId : Id .representation) : Read InspectedMember := do
  let resourceId ← firstResource t representationId
  firstMemberInResource t revisionId representationId resourceId

/-- `first_member`. -/
def firstMember (t : Tables) (revisionId : Id .assetRevision) : Read (Option InspectedMember) := do
  consume 1
  match (representationsAfter t revisionId none).head? with
  | none => pure none
  | some first => do
    let member ← firstMemberInRepresentation t revisionId first.representationId
    pure (some member)

/-- `next_member`: the next ordinal of the resource, or else the first member of
the next resource, or else that of the next representation. -/
def nextMember (t : Tables) (revisionId : Id .assetRevision) (current : MemberKey) :
    Read (Option InspectedMember) := do
  consume 1
  match (membersAfter t current.resourceId (some current.ordinal)).head? with
  | some next =>
    if next.ordinal ≠ current.ordinal + 1 then Txn.fail .storageCorruption
    else do
      let member ← readMember t revisionId
        ⟨current.representationId, current.resourceId, next.ordinal⟩
      pure (some member)
  | none => do
    consume 1
    match (resourcesAfter t current.representationId (some current.resourceId.key)).head? with
    | some next => do
      let member ← firstMemberInResource t revisionId current.representationId next.resourceId
      pure (some member)
    | none => do
      consume 1
      match (representationsAfter t revisionId (some current.representationId.key)).head? with
      | some next => do
        let member ← firstMemberInRepresentation t revisionId next.representationId
        pure (some member)
      | none => pure none

/-! ## Locations -/

/-- The order of `(backend_id, location_id)`. The backends share all but their
hexadecimal digits, so their texts compare as the digests do. -/
def locationKey (l : LocationRow) : ℕ ×ₗ ℕ :=
  toLex (l.backendId.key, l.locationId.key)

/-- The locations of a blob, from a given one on. -/
def locationsAfter (t : Tables) (digest : Digest) (start : Option (ℕ ×ₗ ℕ)) : List LocationRow :=
  rowsAfter locationKey start (t.locations.filter fun l => l.blobDigest = digest)

/-- `read_locations`. -/
def readLocations (t : Tables) (digest : Digest) (last : Option (Id .location)) (limit : ℕ) :
    Read (List LocationRow) :=
  match last with
  | some last => do
    consume 1
    match t.locations.find? fun l => l.locationId = last with
    | none => Txn.fail .validation
    | some cursor =>
      if cursor.blobDigest ≠ digest then Txn.fail .validation
      else do
        consume 1
        pure ((locationsAfter t digest (some (locationKey cursor))).take limit)
  | none => do
    consume 1
    pure ((locationsAfter t digest none).take limit)

/-- `phase_after`. -/
def phaseAfter (current : InspectMemberPhase) (l : LocationRow) : InspectMemberPhase :=
  if current = .requiredCustodySeen ∨ l.custody = .managed ∧ l.durability = .durable then
    .requiredCustodySeen
  else .locationSeen

/-! ## The inspection -/

/-- What the pages of one inspection have in common. -/
structure Inspection where
  libraryId : BitVec 128
  assetId : Id .asset
  revisionId : Id .assetRevision
  assetRevision : RevisionNo
  custody : RevisionCustody

/-- `MemberRow::position`. -/
def Inspection.position (i : Inspection) (m : InspectedMember) (phase : InspectMemberPhase)
    (last : Option (Id .location)) : AssetResult InspectAssetPosition :=
  InspectAssetPosition.new i.libraryId i.assetId i.revisionId i.assetRevision (some m.key)
    (some phase) (some m.blobRevision) last

/-- The rows of one member that fit on the page, and the position to go on from
when there are more. -/
def Inspection.memberRows (i : Inspection) (t : Tables) (remaining : ℕ) (m : InspectedMember)
    (phase : InspectMemberPhase) (last : Option (Id .location)) :
    Read (List AssetMemberView × Option InspectAssetPosition) := do
  let locations ← readLocations t m.blobDigest last (remaining + 1)
  if locations = [] ∧ last = none then
    if i.custody = .managed then Txn.fail .storageCorruption else pure ([m.view none], none)
  else
    let shown := locations.take remaining
    let phase := shown.foldl phaseAfter phase
    let rows := shown.map fun l => m.view (some l)
    if remaining < locations.length then do
      let last := (shown.getLast?.map LocationRow.locationId).or last
      let position ← Txn.lift (i.position m phase last)
      pure (rows, some position)
    else if i.custody = .managed ∧ phase ≠ .requiredCustodySeen then Txn.fail .storageCorruption
    else pure (rows, none)

/-- The loop of `inspect_asset` over the members. Every turn but the first shows
a row, so that there are at most one more turns than rows. -/
def Inspection.memberLoop (i : Inspection) (t : Tables) :
    ℕ → ℕ → InspectedMember → InspectMemberPhase → Option (Id .location) →
      Read (List AssetMemberView × Option InspectAssetPosition)
  | 0, _, _, _, _ => Txn.fail .internal
  | fuel + 1, remaining, m, phase, last => do
    let (rows, stop) ← i.memberRows t remaining m phase last
    match stop with
    | some position => pure (rows, some position)
    | none => do
      let following ← nextMember t i.revisionId m.key
      match following with
      | none => pure (rows, none)
      | some following =>
        if rows.length = remaining then do
          let position ← Txn.lift (i.position following .noLocationSeen none)
          pure (rows, some position)
        else do
          let (others, next) ←
            i.memberLoop t fuel (remaining - rows.length) following .noLocationSeen none
          pure (rows ++ others, next)

/-- `read_revision`. -/
def readRevision (t : Tables) (assetId : Id .asset) (revisionId : Id .assetRevision) :
    Read AssetRevisionRow := do
  consume 1
  match t.assetRevisions.find? fun r => r.assetRevisionId = revisionId && r.assetId = assetId with
  | none => Txn.fail .notFound
  | some r => if r.sequence = 0 then Txn.fail .storageCorruption else pure r

/-- `read_parents`: at most 64, numbered from zero. -/
def readParents (t : Tables) (assetId : Id .asset) (revisionId : Id .assetRevision) :
    Read (List (Id .assetRevision)) := do
  consume 1
  let rows := (rowsAfter ParentRow.ordinal none (t.parents.filter fun r =>
    r.assetId = assetId && r.childRevisionId = revisionId)).take 65
  if rows.map ParentRow.ordinal ≠ List.range rows.length ∨ 64 < rows.length then
    Txn.fail .storageCorruption
  else pure (rows.map ParentRow.parentRevisionId)

/-- `validate_representations`: one to 64. -/
def validateRepresentations (t : Tables) (revisionId : Id .assetRevision) : Read Unit := do
  consume 1
  let rows := (representationsAfter t revisionId none).take 65
  if rows = [] ∨ 64 < rows.length then Txn.fail .storageCorruption else pure ()

/-- The asset with its registration. -/
def readAsset (t : Tables) (assetId : Id .asset) : Read AssetSummaryView := do
  consume 1
  match registeredEvent t assetId with
  | .error .notFound => do
    consume 1
    if t.assets.any fun a => a.assetId = assetId then Txn.fail .storageCorruption
    else Txn.fail .notFound
  | .error e => Txn.fail e
  | .ok e => do
    consume 2
    Txn.lift (readRegisteredAsset t e)

/-- The newest revision of an asset. -/
def newestRevision (t : Tables) (assetId : Id .asset) : Option AssetRevisionRow :=
  (sortedBy AssetRevisionRow.sequence
    (t.assetRevisions.filter fun r => r.assetId = assetId)).getLast?

/-- The revision to inspect, and the position in it. -/
def selectRevision (libraryId : BitVec 128) (t : Tables) (request : InspectAssetQuery)
    (asset : AssetSummaryView) : Read (Id .assetRevision × Option InspectAssetPosition) :=
  match request.start with
  | .first =>
    match request.selectedRevisionId with
    | some selected => pure (selected, none)
    | none => do
      consume 1
      match newestRevision t request.assetId with
      | none => Txn.fail .storageCorruption
      | some r => pure (r.assetRevisionId, none)
  | .continue_ position =>
    if position.libraryId ≠ libraryId ∨ position.assetId ≠ request.assetId then
      Txn.fail .validation
    else if position.assetRevision ≠ asset.revision then Txn.fail .conflict
    else pure (position.selectedRevisionId, some position)

/-- The member to start with. -/
def startMember (t : Tables) (revisionId : Id .assetRevision)
    (position : Option InspectAssetPosition) : Read InspectedMember :=
  match position.bind InspectAssetPosition.member with
  | some key => do
    let _ ← firstResource t key.representationId
    readMember t revisionId key
  | none => do
    match ← firstMember t revisionId with
    | some member => pure member
    | none => Txn.fail .storageCorruption

/-- `inspect_asset`, over its count of selects. -/
def inspectAssetRead (libraryId : BitVec 128) (t : Tables) (request : InspectAssetQuery) :
    Read AssetMemberPage := do
  let asset ← readAsset t request.assetId
  let (revisionId, position) ← selectRevision libraryId t request asset
  let revision ← readRevision t request.assetId revisionId
  let parents ← readParents t request.assetId revisionId
  validateRepresentations t revisionId
  let member ← startMember t revisionId position
  if position.any (fun p => p.blobRevision ≠ some member.blobRevision) then Txn.fail .conflict
  else do
    let phase := (position.bind InspectAssetPosition.phase).getD .noLocationSeen
    let last := position.bind InspectAssetPosition.lastLocationId
    let (rows, next) ← Inspection.memberLoop
      ⟨libraryId, request.assetId, revisionId, asset.revision, revision.custody⟩ t
      (request.pageSize + 1) request.pageSize member phase last
    if rows = [] ∧ next.isSome = true then Txn.fail .internal
    else Txn.lift (AssetMemberPage.fromStore
      ⟨asset, revisionId, revision.sequence, revision.contentKind, revision.custody, parents, rows,
        next⟩)

/-- `inspect_asset`. -/
def inspectAsset (libraryId : BitVec 128) (t : Tables) (request : InspectAssetQuery) :
    AssetResult AssetMemberPage :=
  ((inspectAssetRead libraryId t request).run 0).1

end AssetQuery

end MengXia.Store
