import MengXia.Ports
import Mathlib.Data.List.Nodup
/-!
# Numbered identifiers

Identifiers and value sources that count. They show that a store never
lacks fresh identifiers, and give runs their values.
-/

namespace MengXia

/-- The identifier with a given number in its random field. -/
def Uuid.numbered (n : ℕ) : Uuid where
  bits := BitVec.ofNat 128 (7 * 2 ^ 76 + 2 * 2 ^ 62 + n % 2 ^ 62)
  isV7 := by
    have h : n % 2 ^ 62 < 2 ^ 62 := Nat.mod_lt _ (by decide)
    have hlt : 7 * 2 ^ 76 + 2 * 2 ^ 62 + n % 2 ^ 62 < 2 ^ 128 := by omega
    unfold isUuidV7
    rw [BitVec.toNat_ofNat, Nat.mod_eq_of_lt hlt]
    have h1 : (7 * 2 ^ 76 + 2 * 2 ^ 62 + n % 2 ^ 62) / 2 ^ 76 % 16 = 7 := by omega
    have h2 : (7 * 2 ^ 76 + 2 * 2 ^ 62 + n % 2 ^ 62) / 2 ^ 62 % 4 = 2 := by omega
    rw [h1, h2]
    rfl

theorem Uuid.key_numbered (n : ℕ) :
    (Uuid.numbered n).key = 7 * 2 ^ 76 + 2 * 2 ^ 62 + n % 2 ^ 62 := by
  unfold Uuid.key Uuid.numbered
  rw [BitVec.toNat_ofNat, Nat.mod_eq_of_lt]
  have h : n % 2 ^ 62 < 2 ^ 62 := Nat.mod_lt _ (by decide)
  omega

/-- **Different numbers are different identifiers.** -/
theorem Uuid.numbered_inj {m n : ℕ} (hm : m < 2 ^ 62) (hn : n < 2 ^ 62) :
    Uuid.numbered m = Uuid.numbered n ↔ m = n := by
  refine ⟨fun h => ?_, fun h => h ▸ rfl⟩
  have h := congrArg Uuid.key h
  rw [Uuid.key_numbered, Uuid.key_numbered, Nat.mod_eq_of_lt hm, Nat.mod_eq_of_lt hn] at h
  omega

/-- Consecutive numbers give distinct identifiers. -/
theorem Uuid.numbered_nodup {n k : ℕ} (h : n + k ≤ 2 ^ 62) :
    ((List.range k).map fun i => Uuid.numbered (n + i)).Nodup := by
  refine List.Nodup.map_on (fun i hi j hj hij => ?_) List.nodup_range
  have hi := List.mem_range.1 hi
  have hj := List.mem_range.1 hj
  rw [Uuid.numbered_inj (by omega) (by omega)] at hij
  exact Nat.add_left_cancel hij

def Id.numbered {entity : Entity} (n : ℕ) : Id entity :=
  ⟨Uuid.numbered n⟩

/-- The start of the Unix epoch. -/
def Timestamp.epoch : Timestamp where
  seconds := 0
  nanos := 0
  valid := rfl

/-- A source that counts from a number on. -/
def ValueSource.numbered (start : ℕ) : ValueSource where
  nextUuid i := .ok (Uuid.numbered (start + i)).bits
  now := .ok .epoch
  checkpoint := .ok ()

/-! ## Plain values -/

/-- The binding of a command with its number. -/
def CommandBinding.numbered (operation : Operation) (n : ℕ) : CommandBinding where
  commandId := .numbered n
  operationId := operation
  canonicalRequestDigest := ⟨BitVec.ofNat 256 n⟩

theorem CommandBinding.numbered_operationId (operation : Operation) (n : ℕ) :
    (CommandBinding.numbered operation n).operationId = operation :=
  rfl

/-- The canonical empty object and its SHA-256. -/
def CanonicalJson.emptyObject : CanonicalJson where
  bytes := [0x7b, 0x7d]
  digest := ⟨0x44136fa355b3678a1146ad16f7e8649e94fb4fc21fe77e8310c060f61caaff8a⟩
  shape := rfl

def ProjectSpecification.plain : ProjectSpecification where
  resolution := none
  frameRate := none
  aspectRatio := none
  colorPolicy := .emptyObject
  audioPolicy := .emptyObject
  qualityPolicy := .emptyObject
  privacyPolicy := .emptyObject
  policyDigest := ⟨0x5d6a606f465353d6be2e9ac19946fcb192356dc2d2fc3e048d76dede50c969ab⟩

def Token.plain : Token := ⟨['k'], by decide⟩

def LogicalName.plain : LogicalName := ⟨['n'], by decide⟩

/-- One byte of managed content, told apart by its digest. -/
def DurableBlob.numbered (n : ℕ) : DurableBlob where
  digest := ⟨BitVec.ofNat 256 n⟩
  byteLength := 1
  backend := ⟨0⟩
  lengthBounded := by decide

/-- The content of `blob` recorded at another backend by command `n`. -/
def RecordManagedLocationCommand.numbered (n : ℕ) (blob : DurableBlob)
    (expected : RevisionNo) : RecordManagedLocationCommand where
  binding := .numbered .blobLocationRecord n
  durableBlob := { blob with backend := ⟨1⟩ }
  candidateLocationId := .numbered (n + 1)
  expectedRevision := expected
  domainEventId := .numbered (n + 2)
  operationAt := .epoch
  operation := rfl

/-- The claim of ingest command `n`. -/
def ExternalIngestClaim.numbered (n : ℕ) : ExternalIngestClaim where
  binding := .numbered .assetIngest n
  claimedAt := .epoch
  operation := rfl

/-- The completion of ingest command `n` with identifiers from `n + 1` on. -/
def ExternalIngestCompletion.numbered (n : ℕ) (blob : DurableBlob) (h : n + 8 ≤ 2 ^ 62) :
    ExternalIngestCompletion where
  binding := .numbered .assetIngest n
  durableBlob := blob
  plan :=
    { assetId := .numbered (n + 1)
      assetKind := .plain
      assetRevisionId := .numbered (n + 2)
      contentKind := .plain
      representationId := .numbered (n + 3)
      representationPurpose := .plain
      resourceId := .numbered (n + 4)
      resourceKind := .plain
      logicalName := .plain
      mediaType := none
      candidateLocationId := .numbered (n + 5) }
  domainEventId := .numbered (n + 6)
  provenanceEventId := .numbered (n + 7)
  completedAt := .epoch
  operation := rfl
  pairwiseUnique := Uuid.numbered_nodup (n := n + 1) (k := 7) (by omega)

/-- A lifecycle change of an asset at a revision. -/
def DeferredAssetLifecycleCommand.numbered (n : ℕ) (assetId : Id .asset)
    (expectedRevision : RevisionNo) (target : AssetLifecycle) :
    DeferredAssetLifecycleCommand where
  binding := .numbered (lifecycleOperation target) n
  assetId := assetId
  expectedRevision := expectedRevision
  target := target
  values := .numbered (n + 1)
  operation := rfl

/-- A revision of an asset with one member, drawn from `n + 1` on. -/
def DeferredCreateAssetRevisionCommand.numbered (n : ℕ) (assetId : Id .asset)
    (expectedRevision : RevisionNo) (parent : Id .assetRevision) (content : Digest) :
    DeferredCreateAssetRevisionCommand where
  binding := .numbered .assetRevisionCreate n
  assetId := assetId
  expectedRevision := expectedRevision
  parentRevisionIds := [parent]
  contentKind := .plain
  representations := [⟨.plain, [⟨.plain, [⟨.plain, content⟩], by simp, by simp⟩], by simp, by simp⟩]
  values := .numbered (n + 1)
  operation := rfl
  parentsNonempty := by simp
  parentsBounded := by simp
  representationsNonempty := by simp
  representationsBounded := by simp
  parentsDistinct := by simp

/-- A project, created by command `n` with identifiers from `n + 1` on. -/
def CreateProjectCommand.numbered (n : ℕ) : CreateProjectCommand where
  binding := .numbered .projectCreate n
  name := ⟨['p'], by decide⟩
  specification := .plain
  values := .numbered (n + 1)
  operation := rfl

/-- A new specification of a project at a revision. -/
def ReviseProjectSpecCommand.numbered (n : ℕ) (projectId : Id .project)
    (expectedRevision : RevisionNo) : ReviseProjectSpecCommand where
  binding := .numbered .projectSpecRevise n
  projectId := projectId
  expectedRevision := expectedRevision
  specification := .plain
  values := .numbered (n + 1)
  operation := rfl

def WorkSpecification.plain : WorkSpecification where
  json := .emptyObject
  subjectIds := []
  assetIds := []
  subjectsSorted := List.Pairwise.nil
  assetsSorted := List.Pairwise.nil
  subjectsBounded := by decide
  assetsBounded := by decide

/-- A shot of a project, created by command `n` as work item `n + 1` with
its first revision `n + 2`. -/
def CreateWorkCommand.numbered (n : ℕ) (projectId : Id .project) : CreateWorkCommand where
  binding := .numbered .workCreate n
  projectId := projectId
  kind := .shot
  code := ⟨['w'], by decide⟩
  specification := .plain
  values := .numbered (n + 1)
  operation := rfl

/-- A take of a work revision, created by command `n` as take `n + 1`. -/
def CreateTakeCommand.numbered (n : ℕ) (projectId : Id .project) (workItemId : Id .workItem)
    (workRevisionId : Id .workRevision) (primaryAssetId : Id .asset) : CreateTakeCommand where
  binding := .numbered .takeCreate n
  projectId := projectId
  workItemId := workItemId
  workRevisionId := workRevisionId
  primaryAssetId := primaryAssetId
  values := .numbered (n + 1)
  operation := rfl

end MengXia
