import MengXia.Types
import Mathlib.Tactic.MkIffOfInductiveProp
/-!
# Domain values

The value objects of the domain crate: bounded texts, the asset graph and
its collection bounds, the take state machine and the specifications of
projects and work. A value that a Rust constructor refuses cannot be
built here, because the constructor's condition is a field.
-/

namespace MengXia

/-! ## Bounded texts -/

/-- The grammar of `Token::new`: `[a-z][a-z0-9._-]{0,63}`. -/
def isToken (t : Text) : Bool :=
  match t with
  | [] => false
  | c :: _ =>
    t.byteLength ≤ 64 && isAsciiLowercase c &&
      t.all fun d => isAsciiLowercase d || isAsciiDigit d || ['.', '_', '-'].contains d

/-- `Token`, and with it `AssetKind`, `ContentKind`, `RepresentationPurpose`,
`ResourceKind` and `SubjectKind`, which wrap the same grammar. -/
structure Token where
  text : Text
  valid : isToken text = true
  deriving DecidableEq

/-- `AssetKind`. -/
abbrev AssetKind : Type := Token
/-- `ContentKind`. -/
abbrev ContentKind : Type := Token
/-- `RepresentationPurpose`. -/
abbrev RepresentationPurpose : Type := Token
/-- `ResourceKind`. -/
abbrev ResourceKind : Type := Token
/-- `SubjectKind`. -/
abbrev SubjectKind : Type := Token

/-- `LogicalName::new`. -/
def isLogicalName (t : Text) : Bool :=
  t.byteLength ≤ 255 && !t.any isControl

structure LogicalName where
  text : Text
  valid : isLogicalName text = true
  deriving DecidableEq

/-- The characters a media type may hold. -/
def isMediaTypeChar (c : Char) : Bool :=
  isAsciiLowercase c || isAsciiDigit c ||
    ['!', '#', '$', '&', '^', '_', '.', '+', '-', '/'].contains c

/-- `MediaType::new`. -/
def isMediaType (t : Text) : Bool :=
  3 ≤ t.byteLength && t.byteLength ≤ 255 && t.count '/' == 1 && t.head? != some '/' &&
    t.getLast? != some '/' && t.all isMediaTypeChar

structure MediaType where
  text : Text
  valid : isMediaType text = true
  deriving DecidableEq

/-- `str::trim`. -/
def trim (t : Text) : Text :=
  ((t.dropWhile isWhitespace).reverse.dropWhile isWhitespace).reverse

/-- `validate_text`. -/
def validateText (maximum : ℕ) (t : Text) : Bool :=
  !t.isEmpty && t.byteLength ≤ maximum && trim t == t && !t.any isControl

/-- `bounded_text!`. -/
structure BoundedText (maximum : ℕ) where
  text : Text
  valid : validateText maximum text = true
  deriving DecidableEq

/-- `ProjectName`. -/
abbrev ProjectName : Type := BoundedText 255
/-- `SubjectName`. -/
abbrev SubjectName : Type := BoundedText 255
/-- `WorkCode`. -/
abbrev WorkCode : Type := BoundedText 64
/-- `TakeReason`. -/
abbrev TakeReason : Type := BoundedText 1024

/-! ## The asset graph -/

inductive AssetLifecycle where
  | active
  | retired
  deriving DecidableEq

inductive RevisionCustody where
  | managed
  | unmanaged
  deriving DecidableEq

inductive BlobLifecycle where
  | available
  | gcPending
  | purged
  deriving DecidableEq

inductive LocationLifecycle where
  | available
  | corrupt
  | missing
  | removed
  deriving DecidableEq

inductive LocationCustody where
  | managed
  | unmanaged
  deriving DecidableEq

inductive LocationDurability where
  | durable
  | unknown
  deriving DecidableEq

inductive ProvenanceVerification where
  | unknown
  | verified
  | conflicted
  | rejected
  deriving DecidableEq

/-- `AssetError`. -/
inductive AssetError where
  | invalidValue
  | invalidGraph
  | invalidTransition
  | conflict
  | revisionExhausted
  deriving DecidableEq

structure RevisionMember where
  logicalName : LogicalName
  blobDigest : Digest
  deriving DecidableEq

/-- `RevisionResource`, with the member bound its constructor checks. -/
structure RevisionResource where
  id : Id .resource
  kind : ResourceKind
  members : List RevisionMember
  nonempty : members ≠ []
  bounded : members.length ≤ 4096
  deriving DecidableEq

/-- `RevisionResource::new`. -/
def RevisionResource.new (id : Id .resource) (kind : ResourceKind)
    (members : List RevisionMember) : Except AssetError RevisionResource :=
  if h : members ≠ [] ∧ members.length ≤ 4096 then .ok ⟨id, kind, members, h.1, h.2⟩
  else .error .invalidGraph

/-- `RevisionRepresentation`: one to 64 resources with distinct ids. -/
structure RevisionRepresentation where
  id : Id .representation
  purpose : RepresentationPurpose
  resources : List RevisionResource
  nonempty : resources ≠ []
  bounded : resources.length ≤ 64
  distinct : (resources.map RevisionResource.id).Nodup
  deriving DecidableEq

/-- `RevisionRepresentation::new`. -/
def RevisionRepresentation.new (id : Id .representation) (purpose : RepresentationPurpose)
    (resources : List RevisionResource) : Except AssetError RevisionRepresentation :=
  if h : resources ≠ [] ∧ resources.length ≤ 64 ∧ (resources.map RevisionResource.id).Nodup then
    .ok ⟨id, purpose, resources, h.1, h.2.1, h.2.2⟩
  else .error .invalidGraph

/-- The ids of all resources of a revision. -/
def resourceIds (representations : List RevisionRepresentation) : List (Id .resource) :=
  representations.flatMap fun representation => representation.resources.map RevisionResource.id

/-- The members of all resources of a revision. -/
def revisionMembers (representations : List RevisionRepresentation) : List RevisionMember :=
  representations.flatMap fun representation =>
    representation.resources.flatMap RevisionResource.members

/-- The graph checks of `AssetRecord::create_revision`. -/
@[mk_iff]
structure IsRevisionGraph (revisionId : Id .assetRevision) (parents : List (Id .assetRevision))
    (representations : List RevisionRepresentation) : Prop where
  parentsNonempty : parents ≠ []
  parentsBounded : parents.length ≤ 64
  representationsNonempty : representations ≠ []
  representationsBounded : representations.length ≤ 64
  notOwnParent : revisionId ∉ parents
  parentsDistinct : parents.Nodup
  representationsDistinct : (representations.map RevisionRepresentation.id).Nodup
  resourcesDistinct : (resourceIds representations).Nodup

instance (revisionId : Id .assetRevision) (parents : List (Id .assetRevision))
    (representations : List RevisionRepresentation) :
    Decidable (IsRevisionGraph revisionId parents representations) :=
  decidable_of_iff' _ (isRevisionGraph_iff revisionId parents representations)

/-- `NewAssetRevision`, which only `create_revision` builds. -/
structure NewAssetRevision where
  assetId : Id .asset
  revisionId : Id .assetRevision
  parentRevisionIds : List (Id .assetRevision)
  contentKind : ContentKind
  representations : List RevisionRepresentation
  resultingRevision : RevisionNo
  createdAt : Timestamp
  graph : IsRevisionGraph revisionId parentRevisionIds representations
  successor : 0 < resultingRevision ∧ resultingRevision < 2 ^ 64

/-- `AssetRecord`. -/
structure AssetRecord where
  id : Id .asset
  kind : AssetKind
  lifecycle : AssetLifecycle
  revision : RevisionNo
  createdAt : Timestamp

/-- `CreateAssetRevisionValues`. -/
structure CreateAssetRevisionValues where
  expectedRevision : RevisionNo
  revisionId : Id .assetRevision
  parentRevisionIds : List (Id .assetRevision)
  contentKind : ContentKind
  representations : List RevisionRepresentation
  createdAt : Timestamp

/-- `AssetRecord::create_revision`. -/
def AssetRecord.createRevision (record : AssetRecord) (values : CreateAssetRevisionValues) :
    Except AssetError NewAssetRevision :=
  if record.lifecycle ≠ .active ∨ values.expectedRevision ≠ record.revision then
    .error .conflict
  else if graph : IsRevisionGraph values.revisionId values.parentRevisionIds
      values.representations then
    -- `checked_next` of the record's counter
    if next : record.revision + 1 < 2 ^ 64 then
      .ok {
        assetId := record.id
        revisionId := values.revisionId
        parentRevisionIds := values.parentRevisionIds
        contentKind := values.contentKind
        representations := values.representations
        resultingRevision := record.revision + 1
        createdAt := values.createdAt
        graph := graph
        successor := ⟨Nat.succ_pos _, next⟩ }
    else
      .error .revisionExhausted
  else
    .error .invalidGraph

/-! ## Specifications -/

/-- `CreativeError`. -/
inductive CreativeError where
  | invalidValue
  | invalidTransition
  | conflict
  | revisionExhausted
  deriving DecidableEq

/-- `Resolution`, two positive `u16` values. -/
structure Resolution where
  width : ℕ
  height : ℕ
  positive : 0 < width ∧ 0 < height
  bounded : width < 2 ^ 16 ∧ height < 2 ^ 16
  deriving DecidableEq

/-- `PositiveRatio`, in lowest terms. -/
structure PositiveRatio where
  numerator : ℕ
  denominator : ℕ
  positive : 0 < numerator ∧ 0 < denominator
  bounded : numerator < 2 ^ 32 ∧ denominator < 2 ^ 32
  coprime : Nat.gcd numerator denominator = 1
  deriving DecidableEq

/-- The shape `CanonicalJson::__from_validated_object` checks. -/
def isObjectShaped (bytes : Bytes) : Bool :=
  2 ≤ bytes.length && bytes.head? == some 0x7b && bytes.getLast? == some 0x7d

/-- `CanonicalJson`. -/
structure CanonicalJson where
  bytes : Bytes
  digest : Digest
  shape : isObjectShaped bytes = true
  deriving DecidableEq

/-- `ProjectSpecification`. -/
structure ProjectSpecification where
  resolution : Option Resolution
  frameRate : Option PositiveRatio
  aspectRatio : Option PositiveRatio
  colorPolicy : CanonicalJson
  audioPolicy : CanonicalJson
  qualityPolicy : CanonicalJson
  privacyPolicy : CanonicalJson
  policyDigest : Digest
  deriving DecidableEq

/-- The four policies. -/
abbrev ProjectSpecification.policies (s : ProjectSpecification) : List CanonicalJson :=
  [s.colorPolicy, s.audioPolicy, s.qualityPolicy, s.privacyPolicy]

/-- `WorkSpecification`, whose id sets `validate_relationship_set` has
sorted and bounded. -/
structure WorkSpecification where
  json : CanonicalJson
  subjectIds : List (Id .subject)
  assetIds : List (Id .asset)
  subjectsSorted : (subjectIds.map Id.key).Pairwise (· < ·)
  assetsSorted : (assetIds.map Id.key).Pairwise (· < ·)
  subjectsBounded : subjectIds.length ≤ 64
  assetsBounded : assetIds.length ≤ 64
  deriving DecidableEq

inductive WorkKind where
  | scene
  | shot
  deriving DecidableEq

/-! ## The take state machine -/

inductive TakeState where
  | candidate
  | shortlisted
  | selected
  | approved
  | rejected
  | superseded
  deriving DecidableEq

inductive TakeTransition where
  | shortlist
  | select
  | approve
  | reject
  | supersede
  deriving DecidableEq

/-- `TakeState::is_terminal`. -/
def TakeState.isTerminal : TakeState → Bool
  | .approved | .rejected | .superseded => true
  | .candidate | .shortlisted | .selected => false

/-- `TakeState::transition`. -/
def TakeState.transition : TakeState → TakeTransition → Except CreativeError TakeState
  | .candidate, .shortlist => .ok .shortlisted
  | .candidate, .select => .ok .selected
  | .shortlisted, .select => .ok .selected
  | .selected, .approve => .ok .approved
  | .candidate, .reject => .ok .rejected
  | .shortlisted, .reject => .ok .rejected
  | .selected, .reject => .ok .rejected
  | .candidate, .supersede => .ok .superseded
  | .shortlisted, .supersede => .ok .superseded
  | .selected, .supersede => .ok .superseded
  | _, _ => .error .invalidTransition

/-- **A terminal take admits no transition.** -/
theorem TakeState.transition_terminal {s : TakeState} (h : s.isTerminal = true)
    (x : TakeTransition) : s.transition x = .error .invalidTransition := by
  cases s with
  | candidate | shortlisted | selected => cases h
  | approved | rejected | superseded => cases x <;> rfl

/-- The target state of each transition, when it is allowed. -/
def TakeTransition.target : TakeTransition → TakeState
  | .shortlist => .shortlisted
  | .select => .selected
  | .approve => .approved
  | .reject => .rejected
  | .supersede => .superseded

theorem TakeState.transition_ok {s s' : TakeState} {x : TakeTransition}
    (h : s.transition x = .ok s') : s' = x.target := by
  cases s <;> cases x <;> cases h <;> rfl

inductive RelationshipKind where
  | workSubject
  | workAsset
  | takeReopens
  | takeSupersedes
  deriving DecidableEq

end MengXia
