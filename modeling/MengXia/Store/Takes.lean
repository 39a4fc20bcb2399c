
import MengXia.Store.Creative
/-!
# Take mutations

Creation, transition and reopening of takes. Selecting a take may replace
the one selected before it, which is then superseded in the same
transaction, with its event first.
-/

namespace MengXia.Store

open Common

/-! ## Event payloads -/

/-- The loop of `EventPayload::from_fields`, from the bytes encoded so far
and the last tag. -/
def encodeFields : Bytes → ℕ → List (ℕ × Bytes) → Option Bytes
  | encoded, _, [] => some encoded
  | encoded, previous, (tag, value) :: fields =>
    if tag ≤ previous ∨ 256 ≤ tag ∨ value = [] ∨ 2 ^ 16 ≤ value.length then none
    else
      let encoded := encoded ++
        [UInt8.ofNat tag, UInt8.ofNat (value.length / 256), UInt8.ofNat (value.length % 256)] ++
        value
      if 2048 < encoded.length then none else encodeFields encoded tag fields

/-- `EventPayload::from_fields`; tag 0 is refused, so a first tag only has
to exceed 0. -/
def eventPayload (fields : List (ℕ × Bytes)) : Option (Option Bytes) :=
  match encodeFields [] 0 fields with
  | none => none
  | some [] => some none
  | some bytes => some (some bytes)

/-- `insert_payload_event`. -/
def insertPayloadEvent (eventId : Id .domainEvent) (sequence : ℕ) (binding : CommandBinding)
    (eventType : EventType) (aggregateId : Uuid) (revision : RevisionNo) (value : Option Bytes)
    (at_ : Timestamp) : Tx Unit :=
  match value with
  | none =>
    insertEvent (domainEventRow eventId sequence binding eventType .take aggregateId revision
      none at_)
  | some value =>
    match eventPayload [(1, value)] with
    | none => Txn.fail .internal
    | some payload =>
      insertEvent (domainEventRow eventId sequence binding eventType .take aggregateId revision
        payload at_)

/-! ## Reading takes -/

/-- `take_context_exists`; `list_takes` makes the same query. -/
def takeContextExists (t : Tables) (projectId : Id .project) (workItemId : Id .workItem)
    (workRevisionId : Id .workRevision) : Bool :=
  t.workItems.any fun w => w.projectId = projectId && w.workItemId = workItemId &&
    t.workRevisions.any fun r => r.workItemId = w.workItemId && r.workRevisionId = workRevisionId

/-- `asset_exists`. -/
def assetExists (t : Tables) (assetId : Id .asset) : Bool :=
  t.assets.any fun a => a.assetId = assetId

/-- `max(ordinal)` over the takes of a work revision, zero without takes. -/
def maxTakeOrdinal (t : Tables) (workRevisionId : Id .workRevision) : ℕ :=
  ((t.takes.filter fun r => r.workRevisionId = workRevisionId).map TakeRow.ordinal).foldl max 0

/-- `next_take_ordinal`. -/
def nextTakeOrdinal (t : Tables) (workRevisionId : Id .workRevision) : Option ℕ :=
  if maxTakeOrdinal t workRevisionId + 1 < 2 ^ 32 then
    some (maxTakeOrdinal t workRevisionId + 1)
  else none

/-- `read_take`. -/
def readTake (t : Tables) (takeId : Id .take) (workRevisionId : Id .workRevision) :
    Option TakeRow :=
  t.takes.find? fun r => r.takeId = takeId && r.workRevisionId = workRevisionId

/-- The row `insert_take` writes; every take starts as a candidate. -/
def newTakeRow (takeId : Id .take) (workRevisionId : Id .workRevision) (ordinal : ℕ)
    (primaryAssetId : Id .asset) (sequence : ℕ) (binding : CommandBinding) (at_ : Timestamp) :
    TakeRow where
  takeId := takeId
  workRevisionId := workRevisionId
  ordinal := ordinal
  state := .candidate
  primaryAssetId := primaryAssetId
  revision := 1
  creationCommitSequence := sequence
  createdByCommandId := binding.commandId
  createdAt := at_
  updatedAt := at_

/-- The row `insert_relationship` writes. -/
def takeEdgeRow (relationshipId : Id .relationship) (kind : RelationshipKind)
    (source target : Id .take) (binding : CommandBinding) (at_ : Timestamp) :
    RelationshipRow where
  relationshipId := relationshipId
  relationshipKind := kind
  sourceKind := .take
  sourceId := source.uuid
  targetKind := .take
  targetId := target.uuid
  createdByCommandId := binding.commandId
  createdAt := at_

/-! ## Creation -/

/-- What `create_take` draws. -/
def drawTake (source : ValueSource) : AssetResult
    (Id .take × Id .domainEvent × Timestamp) := do
  let takeId ← source.generatedId 0
  let eventId ← source.generatedId 1
  distinct [takeId.uuid, eventId.uuid]
  let at_ ← source.now
  source.checkpoint
  pure (takeId, eventId, at_)

/-- `create_take`, after the command has been found new. -/
def createTakeNew (context : StoreContext) (request : CreateTakeCommand) :
    Tx MutationOutcome := do
  let (takeId, eventId, at_) ← Txn.lift (drawTake request.values)
  insertClaim context request.binding at_
  let reject (code : ErrorCode) := commitRejection request.binding code at_
  let d ← Txn.read
  if !takeContextExists d request.projectId request.workItemId request.workRevisionId ||
      !assetExists d request.primaryAssetId then
    reject .notFound
  else
    match nextTakeOrdinal d request.workRevisionId with
    | none => reject .revisionExhausted
    | some ordinal =>
      match ← allocateEventSequences 1 with
      | none => reject .revisionExhausted
      | some sequence =>
        insertDomainEvent eventId sequence request.binding .takeCreated .take takeId.uuid 1 at_
        insertTakeRow (newTakeRow takeId request.workRevisionId ordinal request.primaryAssetId
          sequence request.binding at_)
        completeVersioned request.binding takeId.uuid
          (.take 1 ordinal .candidate request.primaryAssetId none) at_

/-- `create_take`. -/
def createTake (context : StoreContext) (request : CreateTakeCommand) : Tx MutationOutcome :=
  unlessKnown context request.binding .take (createTakeNew context request)

/-! ## Transition -/

/-- What `transition_take` draws. -/
structure TransitionDraw where
  firstEvent : Id .domainEvent
  secondEvent : Id .domainEvent
  relationshipId : Id .relationship
  at_ : Timestamp

def drawTransition (source : ValueSource) : AssetResult TransitionDraw := do
  let firstEvent ← source.generatedId 0
  let secondEvent ← source.generatedId 1
  let relationshipId ← source.generatedId 2
  distinct [firstEvent.uuid, secondEvent.uuid, relationshipId.uuid]
  let at_ ← source.now
  source.checkpoint
  pure ⟨firstEvent, secondEvent, relationshipId, at_⟩

/-- How a transition involves a second take. -/
inductive Involvement where
  /-- No other take is involved. -/
  | alone
  /-- Selecting replaces the selected take, found at this revision. -/
  | replacing (selected : Id .take) (revision next : RevisionNo)
  /-- The take is superseded by this replacement. -/
  | supersededBy (replacement : Id .take)
  deriving DecidableEq

/-- `related` of `transition_take`. -/
def Involvement.related : Involvement → Option (Id .take)
  | .alone => none
  | .replacing selected _ _ => some selected
  | .supersededBy replacement => some replacement

/-- The selected take of a work revision other than the given one. -/
def selectedOther (t : Tables) (workRevisionId : Id .workRevision) (takeId : Id .take) :
    Option TakeRow :=
  t.takes.find? fun r =>
    r.workRevisionId = workRevisionId && r.state = .selected && r.takeId ≠ takeId

/-- The middle part of `transition_take`: which second take is involved, or
the code of the rejection. -/
def involvement (t : Tables) (request : TransitionTakeCommand) : Except ErrorCode Involvement :=
  match request.transition with
  | .select =>
    match selectedOther t request.workRevisionId request.takeId, request.relatedTake with
    | none, none => .ok .alone
    | some selected, some (suppliedId, suppliedRevision) =>
      if selected.takeId ≠ suppliedId ∨ selected.revision ≠ suppliedRevision then
        .error .conflict
      else
        match checkedNext selected.revision with
        | none => .error .revisionExhausted
        | some next => .ok (.replacing suppliedId selected.revision next)
    | _, _ => .error .invalidTransition
  | .supersede =>
    match request.relatedTake with
    | none => .error .internalError
    | some (replacementId, replacementRevision) =>
      match readTake t replacementId request.workRevisionId with
      | none => .error .notFound
      | some replacement =>
        if replacementId = request.takeId ∨ replacement.revision ≠ replacementRevision then
          .error .conflict
        else .ok (.supersededBy replacementId)
  | _ => .ok .alone

/-- The event type of a transition. -/
def transitionEvent : TakeTransition → EventType
  | .shortlist => .takeShortlisted
  | .select => .takeSelected
  | .approve => .takeApproved
  | .reject => .takeRejected
  | .supersede => .takeSuperseded

/-- The payload value of a transition's event. -/
def transitionPayload (request : TransitionTakeCommand) (related : Option (Id .take)) :
    Option Bytes :=
  match request.transition with
  | .shortlist | .approve => none
  | .select | .supersede => related.map fun id => id.uuid.toBytes
  | .reject => request.reason.map fun reason => reason.text.utf8

/-- The writes for a second take, before the take itself is moved. -/
def writeInvolvement (request : TransitionTakeCommand) (draw : TransitionDraw)
    (sequence : ℕ) : Involvement → Tx Unit
  | .alone => pure ()
  | .replacing selected revision next => do
    let changed ← updateTakes
      (fun r => r.takeId = selected && r.revision = revision && r.state = .selected)
      .superseded next draw.at_
    if changed ≠ 1 then Txn.fail .storageCorruption
    else
      insertPayloadEvent draw.firstEvent sequence request.binding .takeSuperseded selected.uuid
        next (some request.takeId.uuid.toBytes) draw.at_
      insertRelationshipRow (takeEdgeRow draw.relationshipId .takeSupersedes request.takeId
        selected request.binding draw.at_)
  | .supersededBy replacement =>
    insertRelationshipRow (takeEdgeRow draw.relationshipId .takeSupersedes replacement
      request.takeId request.binding draw.at_)

/-- The number of events a transition records. -/
def Involvement.eventCount : Involvement → ℕ
  | .replacing .. => 2
  | _ => 1

/-- The last writes of `transition_take`: the take itself is moved. -/
def moveTake (request : TransitionTakeCommand) (draw : TransitionDraw) (take : TakeRow)
    (target : TakeState) (next : RevisionNo) (second : Involvement) (sequence : ℕ) :
    Tx MutationOutcome := do
  let changed ← updateTakes
    (fun r => r.takeId = request.takeId && r.revision = take.revision) target next draw.at_
  if changed ≠ 1 then Txn.fail .storageCorruption
  else
    insertPayloadEvent
      (if second.eventCount = 2 then draw.secondEvent else draw.firstEvent)
      (if second.eventCount = 2 then sequence + 1 else sequence)
      request.binding (transitionEvent request.transition) request.takeId.uuid next
      (transitionPayload request second.related) draw.at_
    completeVersioned request.binding request.takeId.uuid
      (.take next take.ordinal target take.primaryAssetId second.related) draw.at_

/-- The writes of `transition_take` once its checks have passed. -/
def writeTransition (request : TransitionTakeCommand) (draw : TransitionDraw) (take : TakeRow)
    (target : TakeState) (next : RevisionNo) (second : Involvement) (sequence : ℕ) :
    Tx MutationOutcome := do
  writeInvolvement request draw sequence second
  moveTake request draw take target next second sequence

/-- `transition_take`, after the command has been found new. -/
def transitionTakeNew (context : StoreContext) (request : TransitionTakeCommand) :
    Tx MutationOutcome := do
  let draw ← Txn.lift (drawTransition request.values)
  insertClaim context request.binding draw.at_
  let reject (code : ErrorCode) := commitRejection request.binding code draw.at_
  let d ← Txn.read
  if !takeContextExists d request.projectId request.workItemId
      request.workRevisionId then
    reject .notFound
  else
    match readTake d request.takeId request.workRevisionId with
    | none => reject .notFound
    | some take =>
      if take.revision ≠ request.expectedRevision then reject .conflict
      else
        match take.state.transition request.transition with
        | .error _ => reject .invalidTransition
        | .ok target =>
          if request.transition = .shortlist ∧
              assetExists d take.primaryAssetId = false then
            reject .notFound
          else
            match checkedNext take.revision with
            | none => reject .revisionExhausted
            | some next =>
              match involvement d request with
              | .error .internalError => Txn.fail .internal
              | .error code => reject code
              | .ok second =>
                match ← allocateEventSequences second.eventCount with
                | none => reject .revisionExhausted
                | some sequence =>
                  writeTransition request draw take target next second sequence

/-- `transition_take`. -/
def transitionTake (context : StoreContext) (request : TransitionTakeCommand) :
    Tx MutationOutcome :=
  unlessKnown context request.binding .take (transitionTakeNew context request)

/-! ## Reopening -/

/-- What `reopen_take` draws. -/
def drawReopen (source : ValueSource) : AssetResult
    (Id .take × Id .domainEvent × Id .relationship × Timestamp) := do
  let takeId ← source.generatedId 0
  let eventId ← source.generatedId 1
  let relationshipId ← source.generatedId 2
  distinct [takeId.uuid, eventId.uuid, relationshipId.uuid]
  let at_ ← source.now
  source.checkpoint
  pure (takeId, eventId, relationshipId, at_)

/-- `reopen_take`, after the command has been found new. -/
def reopenTakeNew (context : StoreContext) (request : ReopenTakeCommand) :
    Tx MutationOutcome := do
  let (takeId, eventId, relationshipId, at_) ← Txn.lift (drawReopen request.values)
  insertClaim context request.binding at_
  let reject (code : ErrorCode) := commitRejection request.binding code at_
  let d ← Txn.read
  if !takeContextExists d request.projectId request.workItemId request.workRevisionId ||
      !assetExists d request.newPrimaryAssetId then
    reject .notFound
  else
    match readTake d request.terminalTakeId request.workRevisionId with
    | none => reject .notFound
    | some terminal =>
      if terminal.revision ≠ request.expectedTerminalRevision then reject .conflict
      else if terminal.state.isTerminal = false ∨
          terminal.primaryAssetId = request.newPrimaryAssetId then
        reject .invalidTransition
      else
        match nextTakeOrdinal d request.workRevisionId with
        | none => reject .revisionExhausted
        | some ordinal =>
          match ← allocateEventSequences 1 with
          | none => reject .revisionExhausted
          | some sequence =>
            insertPayloadEvent eventId sequence request.binding .takeReopened takeId.uuid 1
              (some request.terminalTakeId.uuid.toBytes) at_
            insertTakeRow (newTakeRow takeId request.workRevisionId ordinal
              request.newPrimaryAssetId sequence request.binding at_)
            insertRelationshipRow (takeEdgeRow relationshipId .takeReopens takeId
              request.terminalTakeId request.binding at_)
            completeVersioned request.binding takeId.uuid
              (.take 1 ordinal .candidate request.newPrimaryAssetId
                (some request.terminalTakeId)) at_

/-- `reopen_take`. -/
def reopenTake (context : StoreContext) (request : ReopenTakeCommand) : Tx MutationOutcome :=
  unlessKnown context request.binding .take (reopenTakeNew context request)

end MengXia.Store
