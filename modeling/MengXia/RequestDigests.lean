import MengXia.Common.SelfDelimiting
import MengXia.Store.Documents
import MengXia.Store.Idempotence
/-!
# Canonical request digests

A command is bound to the digest of its request, and a replay is granted to
whoever brings the same digest. The app crate computes it in three framings:
one for ingests, one for materializations, and one for the metadata and
creative operations. A digest is a hash of a string that determines the
request, so that two requests share one only where the hash has a collision
among the few strings that were hashed for them.
-/

namespace MengXia

open Common

variable {strings : List Bytes}

/-! ## Fields of requests -/

/-- `OperationId::as_str`. -/
def Operation.asStr : Operation → String
  | .assetIngest => "asset.ingest.v1"
  | .assetRevisionCreate => "asset.revision.create.v1"
  | .blobLocationRecord => "blob.location.record.v1"
  | .assetMaterialize => "asset.materialize.v1"
  | .assetRetire => "asset.retire.v1"
  | .assetRestore => "asset.restore.v1"
  | .projectCreate => "project.create.v1"
  | .projectSpecRevise => "project.spec.revise.v1"
  | .subjectCreate => "subject.create.v1"
  | .workCreate => "work.create.v1"
  | .workRevise => "work.revise.v1"
  | .takeCreate => "take.create.v1"
  | .takeTransition => "take.transition.v1"
  | .takeReopen => "take.reopen.v1"

def Operation.bytes (operation : Operation) : Bytes :=
  Text.utf8 operation.asStr.toList

/-- `WorkKind::code`. -/
def WorkKind.code : WorkKind → UInt8
  | .scene => 1
  | .shot => 2

/-- `TakeTransition::code`. -/
def TakeTransition.code : TakeTransition → UInt8
  | .shortlist => 1
  | .select => 2
  | .approve => 3
  | .reject => 4
  | .supersede => 5

/-- `optional_pair`. -/
def optionalPair : Option (ℕ × ℕ) → Bytes
  | none => [0]
  | some pair => [1] ++ (beBytes 4 pair.1 ++ beBytes 4 pair.2)

/-- `project_spec_fields`. -/
def projectSpecFields (specification : ProjectSpecification) : List Bytes :=
  [optionalPair (specification.resolution.map fun value => (value.width, value.height)),
    optionalPair (specification.frameRate.map fun value => (value.numerator, value.denominator)),
    optionalPair (specification.aspectRatio.map fun value => (value.numerator, value.denominator)),
    specification.colorPolicy.digest.toBytes, specification.audioPolicy.digest.toBytes,
    specification.qualityPolicy.digest.toBytes, specification.privacyPolicy.digest.toBytes]

/-- `id_set`. -/
def idSet {entity : Entity} (values : List (Id entity)) : Bytes :=
  beBytes 4 values.length ++ values.flatMap fun id => id.uuid.toBytes

/-- `ordered_ids`, which has the body of `id_set`. -/
def orderedIds {entity : Entity} (items : List (Id entity)) : Bytes :=
  idSet items

/-- A text behind its length of two bytes. -/
def shortText (text : Text) : Bytes :=
  beBytes 2 text.utf8.length ++ text.utf8

def memberBytes (member : RevisionMember) : Bytes :=
  shortText member.logicalName.text ++ member.blobDigest.toBytes

def resourceBytes (resource : AssetRevisionResourceInput) : Bytes :=
  shortText resource.kind.text ++
    (beBytes 4 resource.members.length ++ resource.members.flatMap memberBytes)

def representationBytes (representation : AssetRevisionRepresentationInput) : Bytes :=
  shortText representation.purpose.text ++
    (beBytes 4 representation.resources.length ++
      representation.resources.flatMap resourceBytes)

/-- `revision_graph_bytes`. -/
def revisionGraphBytes (items : List AssetRevisionRepresentationInput) : Bytes :=
  beBytes 4 items.length ++ items.flatMap representationBytes

/-- The reason of a transition, if there is one. -/
def optionalReason : Option TakeReason → Bytes
  | none => [0]
  | some reason => [1] ++ reason.text.utf8

/-- The related take of a transition, if there is one. -/
def optionalRelated : Option (Id .take × RevisionNo) → Bytes
  | none => [0]
  | some related => [1] ++ (related.1.uuid.toBytes ++ beBytes 8 related.2)

/-! ## Requests -/

/-- `validate_source_selector`. -/
def isSourceSelector (path : Bytes) : Bool :=
  1 ≤ path.length && path.length ≤ 1023 && !path.contains 0 && path.head? == some 0x2f &&
    1 < path.length && path.getLast? != some 0x2f &&
    ((path.drop 1).splitOn 0x2f).all fun component =>
      !component.isEmpty && component != [0x2e] && component != [0x2e, 0x2e]

/-- `IngestAssetCopyRequest`, with the check of its path; its command id is
bound beside the digest. -/
structure IngestRequest where
  sourcePath : Bytes
  assetKind : AssetKind
  contentKind : ContentKind
  representationPurpose : RepresentationPurpose
  resourceKind : ResourceKind
  logicalName : LogicalName
  expectedDigest : Option Digest
  selector : isSourceSelector sourcePath = true

/-- `MaterializeAssetRequest`, with the checks of its constructor. -/
structure MaterializeRequest where
  assetId : Id .asset
  assetRevisionId : Id .assetRevision
  representationId : Id .representation
  resourceId : Id .resource
  memberOrdinal : ℕ
  destination : Bytes
  ordinalBounded : memberOrdinal ≤ 4095
  destinationNonempty : destination ≠ []
  destinationBounded : destination.length ≤ 1023
  destinationPlain : (0 : UInt8) ∉ destination

section Requests

variable {N : Type} [DecidableEq N] (numbers : JsonNumbers N)

/-- The requests of the metadata and creative operations, as the command
services get them: documents come from the parser, and revisions are of 64
bits. -/
inductive MetadataRequest where
  | createRevision (assetId : Id .asset) (expectedRevision : RevisionNo)
      (parents : List (Id .assetRevision)) (contentKind : ContentKind)
      (representations : List AssetRevisionRepresentationInput)
      (revisionBounded : expectedRevision < 2 ^ 64) (parentsBounded : parents.length ≤ 64)
      (representationsBounded : representations.length ≤ 64)
  | changeLifecycle (assetId : Id .asset) (expectedRevision : RevisionNo)
      (target : AssetLifecycle) (revisionBounded : expectedRevision < 2 ^ 64)
  | createProject (name : ProjectName) (specification : ProjectSpecification)
      (parsed : specification.Parsed numbers)
  | reviseProjectSpec (projectId : Id .project) (expectedRevision : RevisionNo)
      (specification : ProjectSpecification) (revisionBounded : expectedRevision < 2 ^ 64)
      (parsed : specification.Parsed numbers)
  | createSubject (kind : SubjectKind) (name : SubjectName)
  | createWork (projectId : Id .project) (kind : WorkKind) (code : WorkCode)
      (specification : WorkSpecification) (parsed : specification.Parsed numbers)
  | reviseWork (projectId : Id .project) (workItemId : Id .workItem)
      (expectedRevision : RevisionNo) (specification : WorkSpecification)
      (revisionBounded : expectedRevision < 2 ^ 64) (parsed : specification.Parsed numbers)
  | createTake (projectId : Id .project) (workItemId : Id .workItem)
      (workRevisionId : Id .workRevision) (assetId : Id .asset)
  | transitionTake (projectId : Id .project) (workItemId : Id .workItem)
      (workRevisionId : Id .workRevision) (takeId : Id .take) (expectedRevision : RevisionNo)
      (transition : TakeTransition) (reason : Option TakeReason)
      (related : Option (Id .take × RevisionNo)) (revisionBounded : expectedRevision < 2 ^ 64)
      (relatedBounded : ∀ pair ∈ related, pair.2 < 2 ^ 64)
  | reopenTake (projectId : Id .project) (workItemId : Id .workItem)
      (workRevisionId : Id .workRevision) (terminalTakeId : Id .take)
      (expectedRevision : RevisionNo) (newAssetId : Id .asset)
      (revisionBounded : expectedRevision < 2 ^ 64)

/-- The requests that bind a command. -/
inductive Request where
  | ingest (request : IngestRequest)
  | materialize (request : MaterializeRequest)
  | metadata (request : MetadataRequest numbers)

variable {numbers}

namespace MetadataRequest

/-- The operation a request binds. -/
def operation : MetadataRequest numbers → Operation
  | .createRevision .. => .assetRevisionCreate
  | .changeLifecycle _ _ target _ => lifecycleOperation target
  | .createProject .. => .projectCreate
  | .reviseProjectSpec .. => .projectSpecRevise
  | .createSubject .. => .subjectCreate
  | .createWork .. => .workCreate
  | .reviseWork .. => .workRevise
  | .createTake .. => .takeCreate
  | .transitionTake .. => .takeTransition
  | .reopenTake .. => .takeReopen

/-- The fields that its service hands to `task009_digest`. -/
def fields : MetadataRequest numbers → List Bytes
  | .createRevision assetId expectedRevision parents contentKind representations _ _ _ =>
    [assetId.uuid.toBytes, beBytes 8 expectedRevision, orderedIds parents, contentKind.text.utf8,
      revisionGraphBytes representations]
  | .changeLifecycle assetId expectedRevision _ _ =>
    [assetId.uuid.toBytes, beBytes 8 expectedRevision]
  | .createProject name specification _ => name.text.utf8 :: projectSpecFields specification
  | .reviseProjectSpec projectId expectedRevision specification _ _ =>
    projectId.uuid.toBytes :: beBytes 8 expectedRevision :: projectSpecFields specification
  | .createSubject kind name => [kind.text.utf8, name.text.utf8]
  | .createWork projectId kind code specification _ =>
    [projectId.uuid.toBytes, [kind.code], code.text.utf8, specification.json.digest.toBytes,
      idSet specification.subjectIds, idSet specification.assetIds]
  | .reviseWork projectId workItemId expectedRevision specification _ _ =>
    [projectId.uuid.toBytes, workItemId.uuid.toBytes, beBytes 8 expectedRevision,
      specification.json.digest.toBytes, idSet specification.subjectIds,
      idSet specification.assetIds]
  | .createTake projectId workItemId workRevisionId assetId =>
    [projectId.uuid.toBytes, workItemId.uuid.toBytes, workRevisionId.uuid.toBytes,
      assetId.uuid.toBytes]
  | .transitionTake projectId workItemId workRevisionId takeId expectedRevision transition reason
      related _ _ =>
    [projectId.uuid.toBytes, workItemId.uuid.toBytes, workRevisionId.uuid.toBytes,
      takeId.uuid.toBytes, beBytes 8 expectedRevision, [transition.code], optionalReason reason,
      optionalRelated related]
  | .reopenTake projectId workItemId workRevisionId terminalTakeId expectedRevision newAssetId _ =>
    [projectId.uuid.toBytes, workItemId.uuid.toBytes, workRevisionId.uuid.toBytes,
      terminalTakeId.uuid.toBytes, beBytes 8 expectedRevision, newAssetId.uuid.toBytes]

/-- The canonical documents of a request, of which it carries the digests. -/
def documents : MetadataRequest numbers → List Bytes
  | .createProject _ specification _ | .reviseProjectSpec _ _ specification _ _ =>
    specification.policies.map CanonicalJson.bytes
  | .createWork _ _ _ specification _ | .reviseWork _ _ _ specification _ _ =>
    [specification.json.bytes]
  | _ => []

end MetadataRequest

/-! ## Digests -/

/-- What `task009_digest` hashes; a field of four gigabytes would end it. -/
def task009Preimage (operation : Operation) (fields : List Bytes) : Option Bytes :=
  if fields.all (fun field => field.length < 2 ^ 32) then
    some (Text.utf8 "MENGXIA_TASK009_REQUEST_V1".toList ++ [0] ++
      ((beBytes 2 operation.bytes.length ++ operation.bytes) ++ tagged 1 fields))
  else none

/-- What `source_selector_digest` hashes. -/
def selectorPreimage (path : Bytes) : Bytes :=
  Text.utf8 "MENGXIA_SOURCE_SELECTOR_V1".toList ++ [0] ++ (beBytes 2 path.length ++ path)

/-- `tlv` of the ingest service. -/
def tlv (tag : UInt8) (value : Bytes) : Bytes :=
  [tag] ++ (beBytes 4 (min value.length (2 ^ 32 - 1)) ++ value)

/-- The expected digest of an ingest, if it has one. -/
def optionalDigest : Option Digest → Bytes
  | none => [0]
  | some digest => [1] ++ digest.toBytes

/-- What `canonical_request_digest` of the ingest service hashes. -/
def ingestPreimage (request : IngestRequest) : Bytes :=
  Text.utf8 "MENGXIA_ASSET_INGEST_COPY_REQUEST_V1".toList ++ [0] ++
    (tlv 1 (Text.utf8 "COPY_V1".toList) ++
      (tlv 2 (Digest.toBytes ⟨sha256 (selectorPreimage request.sourcePath)⟩) ++
        (tlv 3 request.assetKind.text.utf8 ++ (tlv 4 request.contentKind.text.utf8 ++
          (tlv 5 request.representationPurpose.text.utf8 ++
            (tlv 6 request.resourceKind.text.utf8 ++ (tlv 7 request.logicalName.text.utf8 ++
              (tlv 8 [0] ++ tlv 9 (optionalDigest request.expectedDigest)))))))))

/-- The first hash of `canonical_request_digest` of the materialize service. -/
def destinationPreimage (destination : Bytes) : Bytes :=
  Text.utf8 "MENGXIA_DESTINATION_SELECTOR_V1".toList ++ [0] ++
    (beBytes 2 destination.length ++ destination)

/-- What `canonical_request_digest` of the materialize service hashes. -/
def materializePreimage (request : MaterializeRequest) : Bytes :=
  Text.utf8 "MENGXIA_ASSET_MATERIALIZE_MEMBER_REQUEST_V1".toList ++ [0] ++
    tagged 1 [request.assetId.uuid.toBytes, request.assetRevisionId.uuid.toBytes,
      request.representationId.uuid.toBytes, request.resourceId.uuid.toBytes,
      beBytes 4 request.memberOrdinal,
      Digest.toBytes ⟨sha256 (destinationPreimage request.destination)⟩,
      Text.utf8 "NO_REPLACE_FILE_V1".toList]

namespace Request

/-- What the digest of a request is the hash of. -/
def preimage : Request numbers → Option Bytes
  | .ingest request => some (ingestPreimage request)
  | .materialize request => some (materializePreimage request)
  | .metadata request => task009Preimage request.operation request.fields

/-- `canonical_request_digest` and `task009_digest`. -/
def digest (request : Request numbers) : Option Digest :=
  request.preimage.map fun bytes => ⟨sha256 bytes⟩

/-- The operation a request binds. -/
def operation : Request numbers → Operation
  | .ingest _ => .assetIngest
  | .materialize _ => .assetMaterialize
  | .metadata request => request.operation

/-- All strings that are hashed on the way to the digest of a request. -/
def hashed : Request numbers → List Bytes
  | .ingest request => [ingestPreimage request, selectorPreimage request.sourcePath]
  | .materialize request => [materializePreimage request, destinationPreimage request.destination]
  | .metadata request =>
    (task009Preimage request.operation request.fields).toList ++ request.documents

end Request

end Requests

/-! ## Fields determine what they encode -/

theorem selfDelimiting_shortText :
    SelfDelimiting (fun text : Text => text.byteLength < 256 ^ 2) shortText :=
  (selfDelimiting_string 2).comap Text.utf8 (fun _ => rfl)
    (fun text h => by rwa [Text.length_utf8]) fun _ _ _ _ h => Text.utf8_injective h

theorem selfDelimiting_id {entity : Entity} :
    SelfDelimiting (fun _ : Id entity => True) fun id => id.uuid.toBytes :=
  .fixed (fun id _ => id.uuid.length_toBytes) fun _ _ _ _ h => Id.toBytes_injective h

theorem selfDelimiting_digest : SelfDelimiting (fun _ => True) Digest.toBytes :=
  .fixed (fun digest _ => digest.length_toBytes) fun _ _ _ _ h => Digest.toBytes_injective h

theorem Token.byteLength_lt (token : Token) : token.text.byteLength < 256 ^ 2 := by
  have h := token.valid
  unfold isToken at h
  split at h
  · cases h
  · simp only [Bool.and_eq_true, decide_eq_true_eq] at h
    omega

theorem LogicalName.byteLength_lt (name : LogicalName) : name.text.byteLength < 256 ^ 2 := by
  have h := name.valid
  simp only [isLogicalName, Bool.and_eq_true, decide_eq_true_eq] at h
  omega

attribute [ext] Token LogicalName BoundedText CanonicalJson Resolution PositiveRatio
  ProjectSpecification WorkSpecification RevisionMember AssetRevisionResourceInput
  AssetRevisionRepresentationInput IngestRequest MaterializeRequest

theorem selfDelimiting_member : SelfDelimiting (fun _ => True) memberBytes := by
  refine (selfDelimiting_shortText.prod selfDelimiting_digest).comap
    (fun member => (member.logicalName.text, member.blobDigest)) (fun _ => rfl)
    (fun member _ => ⟨member.logicalName.byteLength_lt, trivial⟩) ?_
  intro a b _ _ h
  obtain ⟨hname, hdigest⟩ := Prod.mk.inj h
  exact RevisionMember.ext (LogicalName.ext hname) hdigest

theorem selfDelimiting_resource : SelfDelimiting (fun _ => True) resourceBytes := by
  refine (selfDelimiting_shortText.prod (selfDelimiting_member.counted 4)).comap
    (fun resource => (resource.kind.text, resource.members)) (fun _ => rfl)
    (fun resource _ => ⟨resource.kind.byteLength_lt,
      Nat.lt_of_le_of_lt resource.bounded (by decide), fun _ _ => trivial⟩) ?_
  intro a b _ _ h
  obtain ⟨hkind, hmembers⟩ := Prod.mk.inj h
  exact AssetRevisionResourceInput.ext (Token.ext hkind) hmembers

theorem selfDelimiting_representation : SelfDelimiting (fun _ => True) representationBytes := by
  refine (selfDelimiting_shortText.prod (selfDelimiting_resource.counted 4)).comap
    (fun representation => (representation.purpose.text, representation.resources))
    (fun _ => rfl) (fun representation _ => ⟨representation.purpose.byteLength_lt,
      Nat.lt_of_le_of_lt representation.bounded (by decide), fun _ _ => trivial⟩) ?_
  intro a b _ _ h
  obtain ⟨hpurpose, hresources⟩ := Prod.mk.inj h
  exact AssetRevisionRepresentationInput.ext (Token.ext hpurpose) hresources

/-- **A revision graph is told by its bytes.** -/
theorem revisionGraphBytes_injective {a b : List AssetRevisionRepresentationInput}
    (ha : a.length ≤ 64) (hb : b.length ≤ 64)
    (h : revisionGraphBytes a = revisionGraphBytes b) : a = b :=
  (selfDelimiting_representation.counted 4).injective
    ⟨Nat.lt_of_le_of_lt ha (by decide), fun _ _ => trivial⟩
    ⟨Nat.lt_of_le_of_lt hb (by decide), fun _ _ => trivial⟩ h

theorem idSet_injective {entity : Entity} {a b : List (Id entity)} (ha : a.length ≤ 64)
    (hb : b.length ≤ 64) (h : idSet a = idSet b) : a = b :=
  (selfDelimiting_id.counted 4).injective
    ⟨Nat.lt_of_le_of_lt ha (by decide), fun _ _ => trivial⟩
    ⟨Nat.lt_of_le_of_lt hb (by decide), fun _ _ => trivial⟩ h

theorem beBytes_inj (width : ℕ) {m n : ℕ} (hm : m < 256 ^ width) (hn : n < 256 ^ width) :
    beBytes width m = beBytes width n ↔ m = n :=
  ⟨(selfDelimiting_beBytes width).injective hm hn, congrArg _⟩

/-- An optional pair is told by its bytes. -/
theorem optionalPair_injective {a b : Option (ℕ × ℕ)}
    (ha : ∀ pair ∈ a, pair.1 < 256 ^ 4 ∧ pair.2 < 256 ^ 4)
    (hb : ∀ pair ∈ b, pair.1 < 256 ^ 4 ∧ pair.2 < 256 ^ 4)
    (h : optionalPair a = optionalPair b) : a = b :=
  eq_of_flagged rfl (fun _ => rfl) (fun _ _ =>
    ((selfDelimiting_beBytes 4).prod (selfDelimiting_beBytes 4)).injective) ha hb h

theorem optionalReason_injective {a b : Option TakeReason}
    (h : optionalReason a = optionalReason b) : a = b :=
  eq_of_flagged rfl (fun _ => rfl)
    (fun _ _ _ _ h => BoundedText.ext (Text.utf8_injective h))
    (fun _ _ => trivial) (fun _ _ => trivial) h

theorem optionalRelated_injective {a b : Option (Id .take × RevisionNo)}
    (ha : ∀ pair ∈ a, pair.2 < 2 ^ 64) (hb : ∀ pair ∈ b, pair.2 < 2 ^ 64)
    (h : optionalRelated a = optionalRelated b) : a = b :=
  eq_of_flagged rfl (fun _ => rfl)
    (fun _ _ => (selfDelimiting_id.prod (selfDelimiting_beBytes 8)).injective)
    (fun pair hpair => ⟨trivial, ha pair hpair⟩) (fun pair hpair => ⟨trivial, hb pair hpair⟩) h

theorem optionalDigest_injective {a b : Option Digest}
    (h : optionalDigest a = optionalDigest b) : a = b :=
  eq_of_flagged rfl (fun _ => rfl) (fun _ _ _ _ h => Digest.toBytes_injective h)
    (fun _ _ => trivial) (fun _ _ => trivial) h

/-! ## Documents -/

/-- **The hash has no collision among these strings.** -/
def CollisionFree (strings : List Bytes) : Prop :=
  ∀ x ∈ strings, ∀ y ∈ strings, sha256 x = sha256 y → x = y

theorem CollisionFree.eq_of_toBytes (h : CollisionFree strings) {x y : Bytes} (hx : x ∈ strings)
    (hy : y ∈ strings) (heq : Digest.toBytes ⟨sha256 x⟩ = Digest.toBytes ⟨sha256 y⟩) : x = y :=
  h x hx y hy (congrArg Digest.bits (Digest.toBytes_injective heq))

/-- A document with its own digest. -/
def CanonicalJson.Hashed (json : CanonicalJson) : Prop :=
  json.digest = ⟨sha256 json.bytes⟩

/-- **A document is told by its digest.** -/
theorem CanonicalJson.Hashed.eq {a b : CanonicalJson} (ha : a.Hashed) (hb : b.Hashed)
    (hfree : CollisionFree strings) (hmem : a.bytes ∈ strings) (hmem' : b.bytes ∈ strings)
    (h : a.digest.toBytes = b.digest.toBytes) : a = b := by
  unfold CanonicalJson.Hashed at ha hb
  rw [ha, hb] at h
  have hbytes := hfree.eq_of_toBytes hmem hmem' h
  exact CanonicalJson.ext hbytes (by rw [ha, hb, hbytes])

section Documents

variable {N : Type} [DecidableEq N] {numbers : JsonNumbers N}

theorem hashed_of_parse {maximum : ℕ} {input : Bytes} {json : CanonicalJson}
    (h : numbers.parseCanonicalObject maximum input = .ok json) : json.Hashed := by
  obtain ⟨value, hvalue⟩ := JsonNumbers.isCanonical_of_parse h
  exact hvalue.digest

/-- The parser puts its own digests beside the policies. -/
theorem ProjectSpecification.Parsed.hashed {specification : ProjectSpecification}
    (h : specification.Parsed numbers) : ∀ json ∈ specification.policies, json.Hashed := by
  intro json hjson
  obtain ⟨input, hinput⟩ := h.policies.1 json hjson
  exact hashed_of_parse hinput

/-- The bounds of an optional resolution or ratio. -/
theorem bounded_map {α : Type} {u : α → ℕ × ℕ} (hu : ∀ a, (u a).1 < 256 ^ 4 ∧ (u a).2 < 256 ^ 4)
    (value : Option α) : ∀ pair ∈ value.map u, pair.1 < 256 ^ 4 ∧ pair.2 < 256 ^ 4 := by
  intro pair hpair
  obtain ⟨a, -, rfl⟩ := Option.mem_map.1 hpair
  exact hu a

/-- **A specification is told by its fields**, of which the policies are
digests. -/
theorem projectSpec_eq {a b : ProjectSpecification} (ha : a.Parsed numbers) (hb : b.Parsed numbers)
    (hfree : CollisionFree strings)
    (hmem : ∀ x ∈ a.policies.map CanonicalJson.bytes, x ∈ strings)
    (hmem' : ∀ x ∈ b.policies.map CanonicalJson.bytes, x ∈ strings)
    (h : projectSpecFields a = projectSpecFields b) : a = b := by
  have hresolution : ∀ r : Resolution, (r.width, r.height).1 < 256 ^ 4 ∧
      (r.width, r.height).2 < 256 ^ 4 := fun r => by
    have := r.bounded
    exact ⟨by omega, by omega⟩
  have hratio : ∀ r : PositiveRatio, (r.numerator, r.denominator).1 < 256 ^ 4 ∧
      (r.numerator, r.denominator).2 < 256 ^ 4 := fun r => r.bounded
  simp only [projectSpecFields, List.cons.injEq, and_true] at h
  obtain ⟨h1, h2, h3, h4, h5, h6, h7⟩ := h
  have hpolicies : ∀ x ∈ a.policies, ∀ y ∈ b.policies, x.digest.toBytes = y.digest.toBytes →
      x = y := fun x hx y hy => (ha.hashed x hx).eq (hb.hashed y hy) hfree
    (hmem _ (List.mem_map_of_mem hx)) (hmem' _ (List.mem_map_of_mem hy))
  have hcolor := hpolicies _ (by simp) _ (by simp) h4
  have haudio := hpolicies _ (by simp) _ (by simp) h5
  have hquality := hpolicies _ (by simp) _ (by simp) h6
  have hprivacy := hpolicies _ (by simp) _ (by simp) h7
  have hpolicy : a.policyDigest = b.policyDigest := by
    simp only [ha.policies.2, hb.policies.2, ProjectSpecification.policies, hcolor, haudio,
      hquality, hprivacy]
  have hsize : Function.Injective fun r : Resolution => (r.width, r.height) :=
    fun _ _ h => Resolution.ext (congrArg Prod.fst h) (congrArg Prod.snd h)
  have hparts : Function.Injective fun r : PositiveRatio => (r.numerator, r.denominator) :=
    fun _ _ h => PositiveRatio.ext (congrArg Prod.fst h) (congrArg Prod.snd h)
  exact ProjectSpecification.ext
    (Option.map_injective hsize
      (optionalPair_injective (bounded_map hresolution _) (bounded_map hresolution _) h1))
    (Option.map_injective hparts
      (optionalPair_injective (bounded_map hratio _) (bounded_map hratio _) h2))
    (Option.map_injective hparts
      (optionalPair_injective (bounded_map hratio _) (bounded_map hratio _) h3))
    hcolor haudio hquality hprivacy hpolicy

/-- **A work specification is told by its fields.** -/
theorem workSpec_eq {a b : WorkSpecification} (ha : a.Parsed numbers) (hb : b.Parsed numbers)
    (hfree : CollisionFree strings) (hmem : a.json.bytes ∈ strings) (hmem' : b.json.bytes ∈ strings)
    (hjson : a.json.digest.toBytes = b.json.digest.toBytes)
    (hsubjects : idSet a.subjectIds = idSet b.subjectIds)
    (hassets : idSet a.assetIds = idSet b.assetIds) : a = b := by
  obtain ⟨_, hparse⟩ := ha
  obtain ⟨_, hparse'⟩ := hb
  exact WorkSpecification.ext
    ((hashed_of_parse hparse).eq (hashed_of_parse hparse') hfree hmem hmem' hjson)
    (idSet_injective a.subjectsBounded b.subjectsBounded hsubjects)
    (idSet_injective a.assetsBounded b.assetsBounded hassets)

/-- A number for the constructor that binds an operation. -/
def operationTag : Operation → ℕ
  | .assetIngest => 0
  | .blobLocationRecord => 1
  | .assetMaterialize => 2
  | .assetRevisionCreate => 3
  | .assetRetire | .assetRestore => 4
  | .projectCreate => 5
  | .projectSpecRevise => 6
  | .subjectCreate => 7
  | .workCreate => 8
  | .workRevise => 9
  | .takeCreate => 10
  | .takeTransition => 11
  | .takeReopen => 12

theorem operationTag_lifecycle (target : AssetLifecycle) :
    operationTag (lifecycleOperation target) = 4 := by
  cases target <;> rfl

theorem lifecycleOperation_injective {a b : AssetLifecycle}
    (h : lifecycleOperation a = lifecycleOperation b) : a = b := by
  cases a <;> cases b <;> first | rfl | cases h

theorem WorkKind.code_injective {a b : WorkKind} (h : a.code = b.code) : a = b := by
  cases a <;> cases b <;> first | rfl | exact absurd h (by decide)

theorem TakeTransition.code_injective {a b : TakeTransition} (h : a.code = b.code) : a = b := by
  cases a <;> cases b <;> first | rfl | exact absurd h (by decide)

/-- **A metadata request is told by its operation and its fields.** -/
theorem MetadataRequest.eq_of_fields {r r' : MetadataRequest numbers}
    (hfree : CollisionFree strings) (hmem : ∀ x ∈ r.documents, x ∈ strings)
    (hmem' : ∀ x ∈ r'.documents, x ∈ strings) (hoperation : r.operation = r'.operation)
    (hfields : r.fields = r'.fields) : r = r' := by
  have htag := congrArg operationTag hoperation
  -- The operation leaves one constructor; its fields are then compared one by one.
  cases r <;> cases r' <;> try
    (simp only [operation, operationTag_lifecycle] at htag
     simp [operationTag] at htag)
  all_goals simp only [fields, List.cons.injEq, and_true, Id.toBytes_inj, Text.utf8_inj,
    ← Token.ext_iff, ← BoundedText.ext_iff] at hfields
  case createRevision.createRevision hr hp hg _ _ _ _ _ hr' hp' hg' =>
    rw [beBytes_inj 8 hr hr'] at hfields
    obtain ⟨rfl, rfl, hparents, rfl, hgraph⟩ := hfields
    cases idSet_injective hp hp' hparents
    cases revisionGraphBytes_injective hg hg' hgraph
    rfl
  case changeLifecycle.changeLifecycle hr _ _ _ hr' =>
    rw [beBytes_inj 8 hr hr'] at hfields
    obtain ⟨rfl, rfl⟩ := hfields
    cases lifecycleOperation_injective hoperation
    rfl
  case createProject.createProject hs _ _ hs' =>
    obtain ⟨rfl, hspec⟩ := hfields
    cases projectSpec_eq hs hs' hfree hmem hmem' hspec
    rfl
  case reviseProjectSpec.reviseProjectSpec hr hs _ _ _ hr' hs' =>
    rw [beBytes_inj 8 hr hr'] at hfields
    obtain ⟨rfl, rfl, hspec⟩ := hfields
    cases projectSpec_eq hs hs' hfree hmem hmem' hspec
    rfl
  case createSubject.createSubject =>
    obtain ⟨rfl, rfl⟩ := hfields
    rfl
  case createWork.createWork hs _ _ _ _ hs' =>
    obtain ⟨rfl, hkind, rfl, hjson, hsubjects, hassets⟩ := hfields
    cases WorkKind.code_injective hkind
    cases workSpec_eq hs hs' hfree (hmem _ List.mem_cons_self) (hmem' _ List.mem_cons_self) hjson
      hsubjects hassets
    rfl
  case reviseWork.reviseWork hr hs _ _ _ _ hr' hs' =>
    rw [beBytes_inj 8 hr hr'] at hfields
    obtain ⟨rfl, rfl, rfl, hjson, hsubjects, hassets⟩ := hfields
    cases workSpec_eq hs hs' hfree (hmem _ List.mem_cons_self) (hmem' _ List.mem_cons_self) hjson
      hsubjects hassets
    rfl
  case createTake.createTake =>
    obtain ⟨rfl, rfl, rfl, rfl⟩ := hfields
    rfl
  case transitionTake.transitionTake hr hrelated _ _ _ _ _ _ _ _ hr' hrelated' =>
    rw [beBytes_inj 8 hr hr'] at hfields
    obtain ⟨rfl, rfl, rfl, rfl, rfl, htransition, hreason, hpair⟩ := hfields
    cases TakeTransition.code_injective htransition
    cases optionalReason_injective hreason
    cases optionalRelated_injective hrelated hrelated' hpair
    rfl
  case reopenTake.reopenTake hr _ _ _ _ _ _ hr' =>
    rw [beBytes_inj 8 hr hr'] at hfields
    obtain ⟨rfl, rfl, rfl, rfl, rfl, rfl⟩ := hfields
    rfl

end Documents

/-! ## Framings determine the fields -/

theorem Operation.asStr_injective {a b : Operation} (h : a.asStr = b.asStr) : a = b := by
  cases a <;> cases b <;> first | rfl | exact absurd h (by decide)

theorem Operation.bytes_injective {a b : Operation} (h : a.bytes = b.bytes) : a = b :=
  Operation.asStr_injective (String.toList_injective (Text.utf8_injective h))

theorem Operation.length_bytes_lt (operation : Operation) :
    operation.bytes.length < 256 ^ 2 := by
  cases operation <;> decide

/-- **The framing of the metadata operations.** -/
theorem task009Preimage_injective {operation operation' : Operation} {fields fields' : List Bytes}
    {bytes : Bytes} (h : task009Preimage operation fields = some bytes)
    (h' : task009Preimage operation' fields' = some bytes) :
    operation = operation' ∧ fields = fields' := by
  unfold task009Preimage at h h'
  obtain ⟨hlengths, h⟩ := Option.ite_none_right_eq_some.1 h
  split at h'
  · rename_i hlengths'
    rw [List.all_eq_true] at hlengths hlengths'
    have heq := List.append_cancel_left ((Option.some.inj h).trans (Option.some.inj h').symm)
    obtain ⟨hoperation, hfields⟩ := selfDelimiting_string 2 _ _ operation.length_bytes_lt
      operation'.length_bytes_lt _ _ heq
    exact ⟨Operation.bytes_injective hoperation, tagged_injective
      (fun field hfield => by simpa using hlengths field hfield)
      (fun field hfield => by simpa using hlengths' field hfield) hfields⟩
  · cases h'

theorem tlv_of_lt {tag : UInt8} {value : Bytes} (h : value.length < 2 ^ 32) :
    tlv tag value = [tag] ++ (beBytes 4 value.length ++ value) := by
  unfold tlv
  rw [Nat.min_eq_left (by omega)]

/-- The fields of an ingest. -/
def ingestFields (request : IngestRequest) : List Bytes :=
  [Text.utf8 "COPY_V1".toList, Digest.toBytes ⟨sha256 (selectorPreimage request.sourcePath)⟩,
    request.assetKind.text.utf8, request.contentKind.text.utf8,
    request.representationPurpose.text.utf8, request.resourceKind.text.utf8,
    request.logicalName.text.utf8, [0], optionalDigest request.expectedDigest]

theorem length_optionalDigest_le (value : Option Digest) : (optionalDigest value).length ≤ 33 := by
  cases value <;> simp [optionalDigest]

theorem ingestFields_short (request : IngestRequest) :
    ∀ field ∈ ingestFields request, field.length < 256 ^ 4 := by
  have htoken : ∀ token : Token, token.text.utf8.length < 256 ^ 4 := fun token => by
    rw [Text.length_utf8]
    exact Nat.lt_of_lt_of_le token.byteLength_lt (by decide)
  have hname : request.logicalName.text.utf8.length < 256 ^ 4 := by
    rw [Text.length_utf8]
    exact Nat.lt_of_lt_of_le request.logicalName.byteLength_lt (by decide)
  have hexpected := length_optionalDigest_le request.expectedDigest
  intro field hfield
  simp only [ingestFields, List.mem_cons, List.not_mem_nil, or_false] at hfield
  obtain rfl | rfl | rfl | rfl | rfl | rfl | rfl | rfl | rfl := hfield
  · decide
  · rw [Digest.length_toBytes]
    decide
  · exact htoken _
  · exact htoken _
  · exact htoken _
  · exact htoken _
  · exact hname
  · decide
  · omega

/-- **The framing of ingests** is that of tagged fields. -/
theorem ingestPreimage_eq (request : IngestRequest) : ingestPreimage request =
    Text.utf8 "MENGXIA_ASSET_INGEST_COPY_REQUEST_V1".toList ++ [0] ++
      tagged 1 (ingestFields request) := by
  have hshort := ingestFields_short request
  simp only [ingestFields, List.mem_cons, List.not_mem_nil, or_false, forall_eq_or_imp,
    forall_eq] at hshort
  obtain ⟨h1, h2, h3, h4, h5, h6, h7, h8, h9⟩ := hshort
  unfold ingestPreimage
  rw [tlv_of_lt h1, tlv_of_lt h2, tlv_of_lt h3, tlv_of_lt h4, tlv_of_lt h5, tlv_of_lt h6,
    tlv_of_lt h7, tlv_of_lt h8, tlv_of_lt h9]
  simp only [ingestFields, tagged, List.append_nil]
  rfl

/-- **An ingest is told by what is hashed for it.** -/
theorem ingestRequest_eq {r r' : IngestRequest} (hfree : CollisionFree strings)
    (hmem : selectorPreimage r.sourcePath ∈ strings)
    (hmem' : selectorPreimage r'.sourcePath ∈ strings) (h : ingestPreimage r = ingestPreimage r') :
    r = r' := by
  rw [ingestPreimage_eq, ingestPreimage_eq] at h
  have hfields := tagged_injective (ingestFields_short r) (ingestFields_short r')
    (List.append_cancel_left h)
  simp only [ingestFields, List.cons.injEq, and_true, true_and, Text.utf8_inj, ← Token.ext_iff,
    ← LogicalName.ext_iff] at hfields
  obtain ⟨hselector, hasset, hcontent, hpurpose, hresource, hname, hexpected⟩ := hfields
  have hbounded : ∀ r : IngestRequest, r.sourcePath.length < 256 ^ 2 := fun r => by
    have hselector := r.selector
    simp only [isSourceSelector, Bool.and_eq_true, decide_eq_true_eq] at hselector
    omega
  have hpath := (selfDelimiting_string 2).injective (hbounded r) (hbounded r')
    (List.append_cancel_left (hfree.eq_of_toBytes hmem hmem' hselector))
  exact IngestRequest.ext hpath hasset hcontent hpurpose hresource hname
    (optionalDigest_injective hexpected)

/-- **A materialization is told by what is hashed for it.** -/
theorem materializeRequest_eq {r r' : MaterializeRequest} (hfree : CollisionFree strings)
    (hmem : destinationPreimage r.destination ∈ strings)
    (hmem' : destinationPreimage r'.destination ∈ strings)
    (h : materializePreimage r = materializePreimage r') : r = r' := by
  have hshort : ∀ r : MaterializeRequest, ∀ field ∈ [r.assetId.uuid.toBytes,
      r.assetRevisionId.uuid.toBytes, r.representationId.uuid.toBytes, r.resourceId.uuid.toBytes,
      beBytes 4 r.memberOrdinal, Digest.toBytes ⟨sha256 (destinationPreimage r.destination)⟩,
      Text.utf8 "NO_REPLACE_FILE_V1".toList], field.length < 256 ^ 4 := by
    intro r field hfield
    simp only [List.mem_cons, List.not_mem_nil, or_false] at hfield
    obtain rfl | rfl | rfl | rfl | rfl | rfl | rfl := hfield <;> first
      | decide
      | rw [Uuid.length_toBytes]; decide
      | rw [length_beBytes]; decide
      | rw [Digest.length_toBytes]; decide
  have hfields := tagged_injective (hshort r) (hshort r') (List.append_cancel_left h)
  simp only [List.cons.injEq, and_true, Id.toBytes_inj, beBytes_inj 4
    (Nat.lt_of_le_of_lt r.ordinalBounded (by decide))
    (Nat.lt_of_le_of_lt r'.ordinalBounded (by decide))] at hfields
  obtain ⟨hasset, hrevision, hrepresentation, hresource, hordinal, hdestination⟩ := hfields
  exact MaterializeRequest.ext hasset hrevision hrepresentation hresource hordinal
    ((selfDelimiting_string 2).injective
      (Nat.lt_of_le_of_lt r.destinationBounded (by decide))
      (Nat.lt_of_le_of_lt r'.destinationBounded (by decide))
      (List.append_cancel_left (hfree.eq_of_toBytes hmem hmem' hdestination)))

/-! ## Digests identify requests -/

namespace Request

variable {N : Type} [DecidableEq N] {numbers : JsonNumbers N} {r r' : Request numbers}

theorem preimage_mem {bytes : Bytes} (h : r.preimage = some bytes) : bytes ∈ r.hashed := by
  cases r with
  | ingest request | materialize request =>
    cases h
    exact List.mem_cons_self
  | metadata request =>
    simp only [preimage] at h
    simp only [hashed, h, Option.toList_some]
    exact List.mem_append_left _ (List.mem_singleton_self _)

/-- The start of the domain of a framing: the domains differ there. -/
def domain : Request numbers → Bytes
  | .ingest _ => Text.utf8 "MENGXIA_ASSET_I".toList
  | .materialize _ => Text.utf8 "MENGXIA_ASSET_M".toList
  | .metadata _ => Text.utf8 "MENGXIA_TASK009".toList

theorem take_preimage {bytes : Bytes} (h : r.preimage = some bytes) :
    bytes.take 15 = r.domain := by
  cases r with
  | metadata request =>
    unfold preimage task009Preimage at h
    obtain ⟨-, h⟩ := Option.ite_none_right_eq_some.1 h
    cases h
    exact List.take_append_of_le_length (by decide)
  | _ =>
    cases h
    exact List.take_append_of_le_length (by decide)

/-- **A request is told by the string whose hash is its digest**, and by the
strings hashed into that. -/
theorem eq_of_preimage (hfree : CollisionFree (r.hashed ++ r'.hashed)) {bytes : Bytes}
    (h : r.preimage = some bytes) (h' : r'.preimage = some bytes) : r = r' := by
  have hleft : ∀ x ∈ r.hashed, x ∈ r.hashed ++ r'.hashed := fun x => List.mem_append_left _
  have hright : ∀ x ∈ r'.hashed, x ∈ r.hashed ++ r'.hashed := fun x => List.mem_append_right _
  have hdomain : r.domain = r'.domain := (take_preimage h).symm.trans (take_preimage h')
  cases r <;> cases r' <;> try exact absurd hdomain (by simp only [domain]; decide)
  case ingest.ingest =>
    cases h
    rw [ingestRequest_eq hfree (hleft _ (List.mem_cons_of_mem _ List.mem_cons_self))
      (hright _ (List.mem_cons_of_mem _ List.mem_cons_self)) (Option.some.inj h').symm]
  case materialize.materialize =>
    cases h
    rw [materializeRequest_eq hfree (hleft _ (List.mem_cons_of_mem _ List.mem_cons_self))
      (hright _ (List.mem_cons_of_mem _ List.mem_cons_self)) (Option.some.inj h').symm]
  case metadata.metadata =>
    obtain ⟨hoperation, hfields⟩ := task009Preimage_injective h h'
    rw [MetadataRequest.eq_of_fields hfree (fun x hx => hleft x (List.mem_append_right _ hx))
      (fun x hx => hright x (List.mem_append_right _ hx)) hoperation hfields]

theorem eq_of_digest (hfree : CollisionFree (r.hashed ++ r'.hashed)) {digest : Digest}
    (h : r.digest = some digest) (h' : r'.digest = some digest) : r = r' := by
  obtain ⟨bytes, hbytes, hdigest⟩ := Option.map_eq_some_iff.1 h
  obtain ⟨bytes', hbytes', hdigest'⟩ := Option.map_eq_some_iff.1 h'
  have heq := hfree bytes (List.mem_append_left _ (preimage_mem hbytes)) bytes'
    (List.mem_append_right _ (preimage_mem hbytes'))
    (congrArg Digest.bits (hdigest.trans hdigest'.symm))
  subst heq
  exact eq_of_preimage hfree hbytes hbytes'

/-- The binding that a service makes of a request. -/
def binding (commandId : Id .command) (request : Request numbers) : Option CommandBinding :=
  request.digest.map fun digest => ⟨commandId, request.operation, digest⟩

open Store in
/-- **Digests identify requests.** Two requests for which nothing collides
have the same digest only if they are the same operation with the same
fields. So once a command is settled, any other request under its id is
refused, in whatever state of the library and by whatever call. -/
theorem digests_identify (hfree : CollisionFree (r.hashed ++ r'.hashed)) :
    (∀ digest, r.digest = some digest → r'.digest = some digest → r = r') ∧
    ∀ (commandId : Id .command) (bound bound' : CommandBinding),
      r.binding commandId = some bound → r'.binding commandId = some bound' → r ≠ r' →
      ∀ (d d1 d' : Database) (context context' : StoreContext) (submission : Submission)
        (settlement : Settlement), submission.binding = bound →
        Settles context d submission settlement d1 → Later (fun _ => True) d1 d' →
        ∀ call : Call, call.binding = some bound' →
          (call.exec context').run d' = (.error .conflict, d') := by
  refine ⟨fun digest => eq_of_digest hfree, ?_⟩
  intro commandId bound bound' hbound hbound' hne d d1 d' context context' submission settlement
    hsubmission hsettles hlater call hcall
  obtain ⟨digest, hdigest, rfl⟩ := Option.map_eq_some_iff.1 hbound
  obtain ⟨digest', hdigest', rfl⟩ := Option.map_eq_some_iff.1 hbound'
  have hreuses : Reuses submission.binding ⟨commandId, r'.operation, digest'⟩ := by
    rw [hsubmission]
    refine ⟨rfl, Or.inr ?_⟩
    rintro rfl
    exact hne (eq_of_digest hfree hdigest hdigest')
  obtain ⟨row, hrow⟩ := (hsettles.settledAs.stays hlater.grows).bound
  refine call.run_conflict hcall ?_ (hrow.not_matches hreuses)
  exact readCommand_of_mem hrow.mem (hrow.id.trans hreuses.id.symm)

/-- A request to create a subject. -/
def namedSubject (name : SubjectName) : Request JsonNumbers.verbatim :=
  .metadata (.createSubject .plain name)

/-- The command it is handed to the store as, under one id. -/
def namedSubjectCommand (name : SubjectName) : CreateSubjectCommand where
  binding := ⟨.numbered 10, .subjectCreate, (namedSubject name).digest.getD ⟨0⟩⟩
  kind := .plain
  name := name
  values := .numbered 11
  operation := rfl

open Store in
/-- Two names have two digests, and the command that created a subject cannot
create one of another name. -/
theorem other_name_conflicts :
    ((Call.execute (.createSubject (namedSubjectCommand ⟨['b'], by decide⟩))).exec firstProcess).run
      (((PureCall.createSubject (namedSubjectCommand ⟨['a'], by decide⟩)).mutate
        firstProcess).run Database.empty).2 =
      (.error .conflict, (((PureCall.createSubject (namedSubjectCommand ⟨['a'],
        by decide⟩)).mutate firstProcess).run Database.empty).2) := by
  have hfree : CollisionFree ((namedSubject ⟨['a'], by decide⟩).hashed ++
      (namedSubject ⟨['b'], by decide⟩).hashed) := by
    unfold CollisionFree
    decide +kernel
  have hne : namedSubject ⟨['a'], by decide⟩ ≠ namedSubject ⟨['b'], by decide⟩ := by
    intro h
    injection h with h
    injection h with _ h
    exact absurd h (by decide)
  have hanswer : (((PureCall.createSubject (namedSubjectCommand ⟨['a'], by decide⟩)).mutate
      firstProcess).run Database.empty).1 =
        .ok (.applied (.versioned (.numbered 11) (.subject 1) .epoch)) := by
    decide +kernel
  exact (digests_identify hfree).2 (.numbered 10) _ _ rfl rfl hne _ _ _ _ _
    (.execute (.createSubject (namedSubjectCommand ⟨['a'], by decide⟩))) _ rfl
    (.applied _ _ hanswer) .refl _ rfl

end Request

end MengXia
