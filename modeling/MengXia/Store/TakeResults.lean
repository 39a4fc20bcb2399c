import MengXia.Store.Creators
/-!
# Recorded take results

A completed take command names a take that is still there, not behind the
revision it reports, with the one event and the edge that its replay looks
for. No later change undoes that, so the command can be replayed for ever.
-/

namespace MengXia.Store

open Common

variable {allowed : Call → Prop}

variable {t t' : Tables} {take : TakeRow} {d : Database} {r : CommandRow} {revision : RevisionNo}
  {state : TakeState} {event : EventType}

/-- The operations that complete with a take. -/
def isTakeOperation : Operation → Bool
  | .takeCreate | .takeTransition | .takeReopen => true
  | _ => false

theorem isExternal_of_isTakeOperation {operation : Operation}
    (h : isTakeOperation operation = true) : isExternal operation = false := by
  cases operation <;> first | rfl | cases h

/-- What the replay of a completed take command finds in the tables. -/
structure TakeRecorded (t : Tables) (r : CommandRow) (take : TakeRow) (revision : RevisionNo)
    (state : TakeState) (related : Option (Id .take)) (event : EventType) : Prop where
  kind : r.resultKind = some .take
  id : r.resultId = some take.takeId.uuid
  payload : r.resultPayload = some (.take revision take.ordinal state take.primaryAssetId related)
  stored : take ∈ t.takes
  positive : 1 ≤ revision
  reached : revision ≤ take.revision
  operation : takeReplayEvent r.operationId state = some event
  counted : eventCountAt t r.commandId event .take (.uuid take.takeId.uuid) revision = 1
  edge : takeEdgeRecorded t r take.takeId.uuid state related = true

/-- **A recorded result is replayed.** -/
theorem TakeRecorded.replay {related : Option (Id .take)}
    (h : TakeRecorded t r take revision state related event)
    (hkeys : Distinct TakeRow.takeId t.takes) :
    replayCreativeResult t r = .ok (.versioned take.takeId.uuid
      (.take revision take.ordinal state take.primaryAssetId related) r.updatedAt) := by
  have hfind : t.takes.find? (fun x => decide (x.takeId.uuid = take.takeId.uuid)) = some take :=
    hkeys.find?_of h.stored (by simp) fun x hx => Id.uuid_injective (by simpa using hx)
  have hrecorded : creativeResultRecorded t r take.takeId.uuid
      (.take revision take.ordinal state take.primaryAssetId related) = true := by
    simp [creativeResultRecorded, h.operation, hfind, h.reached, h.counted, h.edge]
  unfold replayCreativeResult
  rw [h.id, h.kind, h.payload]
  simp only
  rw [if_pos]
  exact ⟨rfl, hrecorded, Nat.ne_of_gt h.positive⟩

/-- The row a take command completes with is recorded by the last event. -/
theorem takeRecorded_complete (context : StoreContext) {binding : CommandBinding} {at_ : Timestamp}
    {id : Id .take} {ordinal : ℕ} {asset : Id .asset} {related : Option (Id .take)}
    {events : List EventRow} {eventId : Id .domainEvent} {sequence : ℕ} {payload : Option Bytes}
    (hmem : take ∈ t.takes) (hid : take.takeId = id) (hordinal : take.ordinal = ordinal)
    (hasset : take.primaryAssetId = asset) (hpositive : 1 ≤ revision)
    (hreached : revision ≤ take.revision)
    (hop : takeReplayEvent binding.operationId state = some event)
    (hevents : t.domainEvents = events ++ [domainEventRow eventId sequence binding event .take
      id.uuid revision payload at_])
    (hnone : ∀ x ∈ events, x.commandId = binding.commandId → x.eventType ≠ event)
    (hedge : takeEdgeRecorded t ((claimRow context binding at_).complete .take id.uuid none
      (some (.take revision ordinal state asset related)) at_) id.uuid state related = true) :
    TakeRecorded t ((claimRow context binding at_).complete .take id.uuid none
      (some (.take revision ordinal state asset related)) at_) take revision state related
      event := by
  subst hid hordinal hasset
  refine ⟨rfl, rfl, rfl, hmem, hpositive, hreached, hop, ?_, hedge⟩
  unfold eventCountAt
  rw [hevents]
  refine countP_concat (fun x hx => ?_) (by simp [CommandRow.complete, claimRow, domainEventRow])
  by_cases hx' : x.commandId = binding.commandId
  · simp [hnone x hx hx']
  · simp [CommandRow.complete, claimRow, hx']

theorem takeEdgeCount_concat {edges : List RelationshipRow} {id : Id .relationship}
    {kind : RelationshipKind} {source target : Id .take} {binding : CommandBinding}
    {at_ : Timestamp}
    (hedges : t.relationships = edges ++ [takeEdgeRow id kind source target binding at_])
    (hnone : ∀ x ∈ edges, x.createdByCommandId ≠ binding.commandId) :
    takeEdgeCount t binding.commandId kind source.uuid target.uuid = 1 := by
  unfold takeEdgeCount
  rw [hedges]
  exact countP_concat (fun x hx => by simp [hnone x hx]) (by simp [takeEdgeRow])

/-- Every completed take command can be replayed. -/
def TakesRecorded (t : Tables) : Prop :=
  ∀ r ∈ t.commands, r.state = .completed → isTakeOperation r.operationId = true →
    ∃ result, replayResult t r = .ok result

/-- **Every completed take command can be replayed** in every later state. -/
theorem Reachable.takesRecorded (h : Reachable allowed d) : TakesRecorded d := by
  intro r hr hstate hop
  refine h.resultsReplay r hr hstate fun hmaterialize => ?_
  rw [hmaterialize] at hop
  cases hop

end MengXia.Store
