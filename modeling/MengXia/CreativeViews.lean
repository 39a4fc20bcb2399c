
import MengXia.Ports
/-!
# Creative queries of the ports

What a client asks the store about its projects, subjects, work and takes,
and what it is shown. The four listings share their positions, their
queries and the form of their pages.
-/

namespace MengXia

/-! ## Positions -/

/-- The checks of `CreativeListPosition::after`. -/
def isCreativePosition (libraryId : BitVec 128) (snapshotEndpoint lastKey : ℕ) : Bool :=
  libraryId ≠ 0 && snapshotEndpoint ≠ 0 && snapshotEndpoint < 2 ^ 63 && lastKey ≠ 0 &&
    lastKey < snapshotEndpoint

/-- `CreativeListPosition`. -/
inductive CreativeListPosition where
  | first
  | after (libraryId : BitVec 128) (snapshotEndpoint lastKey : ℕ)
      (valid : isCreativePosition libraryId snapshotEndpoint lastKey = true)
  deriving DecidableEq

/-- `CreativeListPosition::after`. -/
def CreativeListPosition.newAfter (libraryId : BitVec 128) (snapshotEndpoint lastKey : ℕ) :
    AssetResult CreativeListPosition :=
  if h : isCreativePosition libraryId snapshotEndpoint lastKey = true then
    .ok (.after libraryId snapshotEndpoint lastKey h)
  else .error .validation

/-- `CreativeListQuery`. -/
structure CreativeListQuery where
  pageSize : ℕ
  position : CreativeListPosition
  bounded : 1 ≤ pageSize ∧ pageSize ≤ 64

/-- `CreativeListQuery::new`. -/
def CreativeListQuery.new (pageSize : ℕ) (position : CreativeListPosition) :
    AssetResult CreativeListQuery :=
  if h : 1 ≤ pageSize ∧ pageSize ≤ 64 then .ok ⟨pageSize, position, h⟩ else .error .validation

theorem CreativeListQuery.new_eq_ok {pageSize : ℕ} {position : CreativeListPosition}
    {query : CreativeListQuery} (h : CreativeListQuery.new pageSize position = .ok query) :
    query.pageSize = pageSize ∧ query.position = position := by
  unfold CreativeListQuery.new at h
  split at h
  · cases h
    exact ⟨rfl, rfl⟩
  · cases h

/-! ## Views -/

/-- `ProjectView`. -/
structure ProjectView where
  projectId : Id .project
  name : ProjectName
  revision : RevisionNo
  createdAt : Timestamp
  updatedAt : Timestamp
  creationCommitSequence : ℕ
  specRevisionId : Id .projectSpecRevision
  specSequence : ℕ
  specification : ProjectSpecification
  deriving DecidableEq

/-- `SubjectView`. -/
structure SubjectView where
  subjectId : Id .subject
  kind : SubjectKind
  name : SubjectName
  revision : RevisionNo
  createdAt : Timestamp
  creationCommitSequence : ℕ
  deriving DecidableEq

/-- `WorkView`. -/
structure WorkView where
  workItemId : Id .workItem
  projectId : Id .project
  kind : WorkKind
  code : WorkCode
  revision : RevisionNo
  createdAt : Timestamp
  updatedAt : Timestamp
  creationCommitSequence : ℕ
  workRevisionId : Id .workRevision
  workRevisionSequence : ℕ
  specification : WorkSpecification
  deriving DecidableEq

/-- `TakeRelationshipView`. -/
structure TakeRelationshipView where
  relationshipId : Id .relationship
  kind : RelationshipKind
  targetTakeId : Id .take
  deriving DecidableEq

/-- `TakeView`. -/
structure TakeView where
  takeId : Id .take
  workRevisionId : Id .workRevision
  ordinal : ℕ
  state : TakeState
  primaryAssetId : Id .asset
  revision : RevisionNo
  createdAt : Timestamp
  updatedAt : Timestamp
  outgoingRelationships : List TakeRelationshipView
  deriving DecidableEq

/-- `CreativePage`. -/
structure CreativePage (α : Type) where
  snapshotEndpoint : ℕ
  items : List α
  next : Option CreativeListPosition
  deriving DecidableEq

end MengXia
