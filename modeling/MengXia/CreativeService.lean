
import MengXia.Store.CreativeQuery
/-!
# The creative query service

The cursors of the app crate and the service around the four listings. A
cursor is a record of 160 bytes that names the listing and its scope and
ends with the hash of the rest, which anyone can compute.
-/

namespace MengXia

open Common

variable {libraryId : BitVec 128} {bytes : Bytes}

/-! ## Cursors -/

/-- `CreativeCursorKind`. -/
inductive CreativeCursorKind where
  | projects
  | subjects
  | work (projectId : Id .project)
  | takes (workRevisionId : Id .workRevision)
  deriving DecidableEq

namespace CreativeCursorKind

/-- The characters of `CreativeCursorKind::magic`. -/
def magicText : CreativeCursorKind → String
  | .projects => "MX9_PROJECTS_V1"
  | .subjects => "MX9_SUBJECTS_V1"
  | .work _ => "MX9_WORKLIST_V1"
  | .takes _ => "MX9_TAKELIST_V1"

/-- `CreativeCursorKind::magic`. -/
def magic (kind : CreativeCursorKind) : Bytes :=
  Text.utf8 kind.magicText.toList ++ [0]

/-- `CreativeCursorKind::operation`. -/
def operation : CreativeCursorKind → String
  | .projects => "project.list.v1"
  | .subjects => "subject.list.v1"
  | .work _ => "work.list.v1"
  | .takes _ => "take.list.v1"

/-- `CreativeCursorKind::scope`. -/
def scope : CreativeCursorKind → UInt8 × Bytes
  | .projects | .subjects => (0, List.replicate 16 0)
  | .work id => (1, id.uuid.toBytes)
  | .takes id => (2, id.uuid.toBytes)

/-- `creative_filter_digest`. -/
def filterDigest (kind : CreativeCursorKind) : Bytes :=
  Digest.toBytes ⟨sha256 (Text.utf8 "MENGXIA_".toList ++ Text.utf8 kind.operation.toList ++
    Text.utf8 "_FILTER_V1".toList ++ [0] ++ [kind.scope.1] ++ kind.scope.2)⟩

end CreativeCursorKind

/-- The first 128 bytes of a cursor, field by field. -/
def creativeCursorFields (libraryId : BitVec 128) (kind : CreativeCursorKind)
    (snapshotEndpoint lastKey : ℕ) : List Bytes :=
  [kind.magic, beBytes 2 1, beBytes 2 160, List.replicate 4 0, beBytes 16 libraryId.toNat,
    [kind.scope.1], List.replicate 7 0, kind.scope.2, beBytes 8 snapshotEndpoint,
    beBytes 8 lastKey, kind.filterDigest, List.replicate 16 0]

/-- `encode_creative_cursor`. -/
def encodeCreativeCursor (position : CreativeListPosition) (libraryId : BitVec 128)
    (kind : CreativeCursorKind) : AssetResult Bytes :=
  match position with
  | .first => .error .internal
  | .after stored snapshotEndpoint lastKey _ =>
    if stored ≠ libraryId then .error .internal
    else
      let record := (creativeCursorFields libraryId kind snapshotEndpoint lastKey).flatten
      .ok (record ++ Digest.toBytes ⟨sha256 record⟩)

/-- `decode_creative_cursor`. -/
def decodeCreativeCursor (bytes : Bytes) (libraryId : BitVec 128) (kind : CreativeCursorKind) :
    AssetResult CreativeListPosition :=
  if bytes.length ≠ 160 then .error .validation
  else if slice bytes 0 16 ≠ kind.magic ∨ ofBeBytes (slice bytes 16 18) ≠ 1 ∨
      ofBeBytes (slice bytes 18 20) ≠ 160 ∨ (slice bytes 20 24).any (· ≠ 0) ∨
      slice bytes 24 40 ≠ beBytes 16 libraryId.toNat ∨ slice bytes 40 41 ≠ [kind.scope.1] ∨
      (slice bytes 41 48).any (· ≠ 0) ∨ slice bytes 48 64 ≠ kind.scope.2 ∨
      slice bytes 80 112 ≠ kind.filterDigest ∨ (slice bytes 112 128).any (· ≠ 0) ∨
      Digest.toBytes ⟨sha256 (slice bytes 0 128)⟩ ≠ slice bytes 128 160 then .error .validation
  else
    CreativeListPosition.newAfter libraryId (ofBeBytes (slice bytes 64 72))
      (ofBeBytes (slice bytes 72 80))

theorem CreativeCursorKind.length_magic (kind : CreativeCursorKind) : kind.magic.length = 16 := by
  have h : (Text.utf8 kind.magicText.toList).length = 15 := by
    cases kind <;> simp only [magicText] <;> decide
  rw [magic, List.length_append, h, List.length_singleton]

theorem CreativeCursorKind.length_scope (kind : CreativeCursorKind) :
    kind.scope.2.length = 16 := by
  cases kind <;> simp [scope]

/-- **A cursor has 160 bytes.** -/
theorem length_encodeCreativeCursor {position : CreativeListPosition} {kind : CreativeCursorKind}
    (h : encodeCreativeCursor position libraryId kind = .ok bytes) : bytes.length = 160 := by
  unfold encodeCreativeCursor at h
  split at h
  · cases h
  · obtain ⟨-, h⟩ := refusal_eq_ok.1 h
    cases h
    simp [creativeCursorFields, kind.length_magic, kind.length_scope,
      CreativeCursorKind.filterDigest]

/-- The widths of the fields of a creative cursor. -/
def creativeCursorWidths : List ℕ := [16, 2, 2, 4, 16, 1, 7, 16, 8, 8, 32, 16]

theorem map_length_creativeCursorFields (libraryId : BitVec 128) (kind : CreativeCursorKind)
    (snapshotEndpoint lastKey : ℕ) :
    (creativeCursorFields libraryId kind snapshotEndpoint lastKey).map List.length =
      creativeCursorWidths := by
  simp [creativeCursorFields, creativeCursorWidths, kind.length_magic, kind.length_scope,
    CreativeCursorKind.filterDigest]

/-- **The decoder accepts the cursors that are written**, and no other bytes. -/
theorem decodeCreativeCursor_eq_ok {kind : CreativeCursorKind} {position : CreativeListPosition} :
    decodeCreativeCursor bytes libraryId kind = .ok position ↔
      encodeCreativeCursor position libraryId kind = .ok bytes := by
  cases position with
  | first =>
    simp only [decodeCreativeCursor, encodeCreativeCursor, refusal_eq_ok,
      CreativeListPosition.newAfter]
    grind
  | after stored endpoint lastKey valid =>
    have hrecord := @eq_sealed_iff _ _ _
      (map_length_creativeCursorFields libraryId kind endpoint lastKey)
      (fun record => Digest.toBytes ⟨sha256 record⟩) 32 (fun _ => Digest.length_toBytes _) bytes
    have hbounds : endpoint < 256 ^ 8 ∧ lastKey < 256 ^ 8 := by
      simp only [isCreativePosition, Bool.and_eq_true, decide_eq_true_eq] at valid
      omega
    have hnew (x y : ℕ) :
        CreativeListPosition.newAfter libraryId x y = .ok (.after stored endpoint lastKey valid) ↔
          stored = libraryId ∧ x = endpoint ∧ y = lastKey := by
      unfold CreativeListPosition.newAfter
      split <;> grind
    simp only [decodeCreativeCursor, encodeCreativeCursor, refusal_eq_ok, not_or, not_not,
      Except.ok.injEq, hrecord, hnew]
    by_cases hlength : bytes.length = 160
    · simp only [hlength, any_slice_ne_zero_iff, ofBeBytes_slice_eq_iff, creativeCursorFields,
        creativeCursorWidths, fieldsAt, List.cons.injEq, Nat.reduceAdd, Nat.reduceLeDiff,
        Nat.reduceSub, not_not, Nat.reducePow, Nat.reduceLT, List.sum_cons, List.sum_nil, true_and,
        and_true]
      grind
    · simp [hlength, creativeCursorWidths]

/-- **A cursor is read back as the position it was written for.** -/
theorem decodeCreativeCursor_encode {kind : CreativeCursorKind} {snapshotEndpoint lastKey : ℕ}
    (valid : isCreativePosition libraryId snapshotEndpoint lastKey = true) :
    ∃ bytes, encodeCreativeCursor (.after libraryId snapshotEndpoint lastKey valid) libraryId
        kind = .ok bytes ∧ bytes ≠ [] ∧
      decodeCreativeCursor bytes libraryId kind =
        .ok (.after libraryId snapshotEndpoint lastKey valid) := by
  have hencode : ∃ bytes, encodeCreativeCursor (.after libraryId snapshotEndpoint lastKey valid)
      libraryId kind = .ok bytes := by
    simp [encodeCreativeCursor]
  obtain ⟨bytes, hencode⟩ := hencode
  have hlength := length_encodeCreativeCursor hencode
  exact ⟨bytes, hencode, List.ne_nil_of_length_pos (by omega), decodeCreativeCursor_eq_ok.2 hencode⟩

theorem onlyFails_decodeCreativeCursor {kind : CreativeCursorKind} :
    OnlyFails .validation (decodeCreativeCursor bytes libraryId kind) :=
  .ite .error (.ite .error (.dite (fun _ => .ok) fun _ => .error))

/-! ## The service -/

/-- `CreativePageResponse`. -/
structure CreativePageResponse (α : Type) where
  page : CreativePage α
  nextCursor : Option Bytes
  deriving DecidableEq

namespace CreativeQueryService

/-- `CreativeQueryService::position`. -/
def position (libraryId : BitVec 128) (cursor : Option Bytes) (kind : CreativeCursorKind) :
    AssetResult CreativeListPosition :=
  match cursor with
  | none => .ok .first
  | some [] => .ok .first
  | some cursor => decodeCreativeCursor cursor libraryId kind

/-- `CreativeQueryService::response`. -/
def response {α : Type} (libraryId : BitVec 128) (page : CreativePage α)
    (kind : CreativeCursorKind) : AssetResult (CreativePageResponse α) :=
  match page.next with
  | none => .ok ⟨page, none⟩
  | some next => do
    let cursor ← encodeCreativeCursor next libraryId kind
    .ok ⟨page, some cursor⟩

/-- What the four methods share: the query is built from the cursor, the
port is asked and its page answered. -/
def list {α : Type} (libraryId : BitVec 128) (kind : CreativeCursorKind) (pageSize : ℕ)
    (cursor : Option Bytes) (port : CreativeListQuery → AssetResult (CreativePage α)) :
    AssetResult (CreativePageResponse α) := do
  let start ← position libraryId cursor kind
  let query ← CreativeListQuery.new pageSize start
  let page ← port query
  response libraryId page kind

variable {N : Type} [DecidableEq N] (numbers : JsonNumbers N)

/-- `CreativeQueryService::list_projects`. -/
def listProjects (libraryId : BitVec 128) (t : Store.Tables) (pageSize : ℕ)
    (cursor : Option Bytes) : AssetResult (CreativePageResponse ProjectView) :=
  list libraryId .projects pageSize cursor (Store.CreativeQuery.listProjects numbers libraryId t)

/-- `CreativeQueryService::list_subjects`. -/
def listSubjects (libraryId : BitVec 128) (t : Store.Tables) (pageSize : ℕ)
    (cursor : Option Bytes) : AssetResult (CreativePageResponse SubjectView) :=
  list libraryId .subjects pageSize cursor (Store.CreativeQuery.listSubjects libraryId t)

/-- `CreativeQueryService::list_work`. -/
def listWork (libraryId : BitVec 128) (t : Store.Tables) (projectId : Id .project) (pageSize : ℕ)
    (cursor : Option Bytes) : AssetResult (CreativePageResponse WorkView) :=
  list libraryId (.work projectId) pageSize cursor
    (Store.CreativeQuery.listWork numbers libraryId t projectId)

/-- `CreativeQueryService::list_takes`. -/
def listTakes (libraryId : BitVec 128) (t : Store.Tables) (projectId : Id .project)
    (workItemId : Id .workItem) (workRevisionId : Id .workRevision) (pageSize : ℕ)
    (cursor : Option Bytes) : AssetResult (CreativePageResponse TakeView) :=
  list libraryId (.takes workRevisionId) pageSize cursor
    (Store.CreativeQuery.listTakes libraryId t projectId workItemId workRevisionId)

/-- **An answered page is the port's**, with a cursor of 160 bytes exactly
if it has a next position. -/
theorem list_eq_ok {α : Type} {kind : CreativeCursorKind} {pageSize : ℕ} {cursor : Option Bytes}
    {port : CreativeListQuery → AssetResult (CreativePage α)}
    {answer : CreativePageResponse α} (h : list libraryId kind pageSize cursor port = .ok answer) :
    ∃ query : CreativeListQuery, query.pageSize = pageSize ∧
      position libraryId cursor kind = .ok query.position ∧ port query = .ok answer.page ∧
      answer.nextCursor.isSome = answer.page.next.isSome ∧
      ∀ bytes ∈ answer.nextCursor, bytes.length = 160 := by
  unfold list at h
  obtain ⟨start, hstart, h⟩ := exceptBind_eq_ok.1 h
  obtain ⟨query, hquery, h⟩ := exceptBind_eq_ok.1 h
  obtain ⟨page, hpage, h⟩ := exceptBind_eq_ok.1 h
  obtain ⟨hsize, hposition⟩ := CreativeListQuery.new_eq_ok hquery
  refine ⟨query, hsize, hposition ▸ hstart, ?_⟩
  unfold response at h
  split at h
  · rename_i hnone
    cases h
    exact ⟨hpage, by rw [hnone]; rfl, fun bytes hbytes => by cases hbytes⟩
  · rename_i next hnext
    obtain ⟨encoded, hencoded, h⟩ := exceptBind_eq_ok.1 h
    cases h
    refine ⟨hpage, by rw [hnext]; rfl, fun bytes hbytes => ?_⟩
    cases hbytes
    exact length_encodeCreativeCursor hencoded

end CreativeQueryService

end MengXia
