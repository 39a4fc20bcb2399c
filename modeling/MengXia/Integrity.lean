
import MengXia.Ports
/-!
# Ports: verification

Findings, issues and scan pages of a library verification. An issue whose
severity is not the one of its kind, or whose object id does not fit its
object kind, is refused by the Rust constructor and cannot be built here.
-/

namespace MengXia

inductive VerificationMode where
  | normal
  | deep
  deriving DecidableEq

inductive IntegrityIssueKind where
  | databaseIntegrityFailure
  | schemaOrMigrationMismatch
  | libraryAuthorityMismatch
  | commandRecoveryRequired
  | eventOrGraphInconsistent
  | localBackendMismatch
  | managedBlobMissing
  | managedBlobUnsafe
  | managedBlobLengthMismatch
  | managedBlobDigestMismatch
  | unregisteredCanonicalBlob
  | stagingOrphan
  | unsafeCasNamespaceEntry
  | materializationRecoveryRequired
  deriving DecidableEq

inductive IntegritySeverity where
  | fatalLocal
  | readOnlyCustody
  | degradedCustody
  | operatorAction
  deriving DecidableEq

inductive IntegrityObjectKind where
  | library
  | command
  | asset
  | assetRevision
  | blob
  | location
  | staging
  | materialization
  deriving DecidableEq

inductive IntegrityRemediation where
  | none
  | retryExactCommand
  | rerunWhenIdle
  | operatorConfiguration
  | futureAdminAction
  | operatorOrRuntimeAction
  deriving DecidableEq

inductive IntegrityObjectId where
  | uuid (id : Uuid)
  | digest (digest : Digest)
  deriving DecidableEq

/-- The severity `IntegrityIssue::new` expects of a kind. -/
def IntegrityIssueKind.expectedSeverity : IntegrityIssueKind → IntegritySeverity
  | .databaseIntegrityFailure | .schemaOrMigrationMismatch | .libraryAuthorityMismatch
  | .eventOrGraphInconsistent => .fatalLocal
  | .commandRecoveryRequired | .unregisteredCanonicalBlob | .stagingOrphan
  | .materializationRecoveryRequired => .operatorAction
  | .localBackendMismatch | .unsafeCasNamespaceEntry => .readOnlyCustody
  | .managedBlobMissing | .managedBlobUnsafe | .managedBlobLengthMismatch
  | .managedBlobDigestMismatch => .degradedCustody

/-- A digest names a blob, and a UUID anything else. -/
def IntegrityObjectKind.admits : IntegrityObjectKind → Option IntegrityObjectId → Bool
  | _, none => true
  | .blob, some (.digest _) => true
  | .blob, some (.uuid _) => false
  | _, some (.uuid _) => true
  | _, some (.digest _) => false

/-- `IntegrityFinding`. -/
structure IntegrityFinding where
  kind : IntegrityIssueKind
  severity : IntegritySeverity
  objectKind : IntegrityObjectKind
  objectId : Option IntegrityObjectId
  remediation : IntegrityRemediation
  expected : severity = kind.expectedSeverity
  admitted : objectKind.admits objectId = true
  deriving DecidableEq

/-- `IntegrityIssue`: a finding and its place in a report, a `u32` from 1 on. -/
structure IntegrityIssue extends IntegrityFinding where
  ordinal : ℕ
  positive : 0 < ordinal
  bounded : ordinal < 2 ^ 32
  deriving DecidableEq

/-- `VerificationSnapshot`, which is refused for the zero library and above
the largest `i64`. -/
structure VerificationSnapshot where
  libraryId : BitVec 128
  commitSequence : ℕ
  named : libraryId ≠ 0
  bounded : commitSequence < 2 ^ 63
  deriving DecidableEq

/-- `VerificationScanPosition`. -/
inductive VerificationScanPosition where
  | commandsAfter (after : Option (Id .command))
  | managedLocationsAfter (after : Option (Id .location))
  | complete
  deriving DecidableEq

/-- `RegisteredBlobVerificationCandidate`; the backend and the locator
stand for their texts. -/
structure BlobCandidate where
  blobDigest : Digest
  byteLength : ℕ
  blobRevision : RevisionNo
  locationId : Id .location
  locationRevision : RevisionNo
  backend : Digest
  locator : Digest
  deriving DecidableEq

/-- The text checks of `RegisteredBlobVerificationCandidate::__from_store`. -/
def isStoredText (value : Text) (maximum : ℕ) : Bool :=
  !value.isEmpty && value.byteLength ≤ maximum && !value.contains (Char.ofNat 0)

/-- `RegisteredBlobVerificationCandidate::__from_store`. -/
def BlobCandidate.fromStore (candidate : BlobCandidate) : AssetResult BlobCandidate :=
  if candidate.blobRevision = 0 ∨ candidate.locationRevision = 0 ∨
      isStoredText (backendText candidate.backend) 255 = false ∨
      isStoredText (locatorText candidate.locator) 1024 = false then
    .error .storageCorruption
  else .ok candidate

/-- `VerificationStorePage`. -/
structure VerificationStorePage where
  findings : List IntegrityFinding
  candidates : List BlobCandidate
  next : VerificationScanPosition
  deriving DecidableEq

/-- `VerificationStorePage::__from_store`. -/
def VerificationStorePage.fromStore (page : VerificationStorePage) :
    AssetResult VerificationStorePage :=
  if 256 < page.findings.length ∨ 256 < page.candidates.length then .error .internal
  else .ok page

/-! ## Texts of managed copies -/

/-- A printable ASCII character. -/
def isPrintable (c : Char) : Bool :=
  0x20 ≤ c.toNat && c.toNat < 0x7f

theorem hexDigit_printable : ∀ n < 16, isPrintable (Common.hexDigit n) = true := by
  decide

theorem lowercaseHex_printable (d : Digest) : (lowercaseHex d).all isPrintable = true := by
  refine List.all_eq_true.2 fun c hc => ?_
  obtain ⟨n, hn, rfl⟩ := List.mem_map.1 hc
  exact hexDigit_printable n (Common.lt_of_mem_digits (by decide) hn)

theorem utf8Size_of_printable {c : Char} (h : isPrintable c = true) : c.utf8Size = 1 := by
  simp only [isPrintable, Bool.and_eq_true, decide_eq_true_eq] at h
  rw [Char.utf8Size_eq_one_iff]
  have : c.val.toNat < 0x7f := h.2
  exact Nat.le_trans (Nat.le_of_lt this) (by decide)

/-- Printable text has as many bytes as characters. -/
theorem byteLength_of_printable {t : Text} (h : t.all isPrintable = true) :
    t.byteLength = t.length := by
  unfold Text.byteLength
  rw [List.map_congr_left fun c hc => utf8Size_of_printable (List.all_eq_true.1 h c hc)]
  simp

/-- Printable text has no zero byte. -/
theorem isStoredText_of_printable {t : Text} (h : t.all isPrintable = true) {maximum : ℕ}
    (hpositive : 0 < t.length) (hlength : t.length ≤ maximum) :
    isStoredText t maximum = true := by
  have hall := List.all_eq_true.1 h
  have hbytes := byteLength_of_printable h
  have hzero : t.contains (Char.ofNat 0) = false := by
    rw [List.contains_eq_mem, decide_eq_false_iff_not]
    exact fun hmem => absurd (hall _ hmem) (by decide)
  unfold isStoredText
  rw [hbytes, hzero]
  simp [List.ne_nil_of_length_pos hpositive, hlength]

@[simp] theorem length_lowercaseHex (d : Digest) : (lowercaseHex d).length = 64 := by
  simp [lowercaseHex]

theorem length_backendText (backend : Digest) : (backendText backend).length = 85 := by
  unfold backendText
  rw [List.length_append, length_lowercaseHex]
  rfl

theorem length_locatorText (digest : Digest) : (locatorText digest).length = 85 := by
  unfold locatorText
  simp only [List.length_append, List.length_take, List.length_drop, length_lowercaseHex]
  rfl

theorem backendText_printable (backend : Digest) :
    (backendText backend).all isPrintable = true := by
  unfold backendText
  rw [List.all_append, lowercaseHex_printable]
  decide

/-- **The texts of a managed copy pass the checks** made when they are read. -/
theorem isStoredText_backendText (backend : Digest) :
    isStoredText (backendText backend) 255 = true :=
  isStoredText_of_printable (backendText_printable backend)
    (by rw [length_backendText]; decide) (by rw [length_backendText]; decide)

theorem locatorText_printable (digest : Digest) :
    (locatorText digest).all isPrintable = true := by
  have hhex := List.all_eq_true.1 (lowercaseHex_printable digest)
  unfold locatorText
  simp only [List.all_append, Bool.and_eq_true]
  refine ⟨⟨⟨⟨⟨⟨by decide, ?_⟩, by decide⟩, ?_⟩, by decide⟩, ?_⟩, by decide⟩
  · exact List.all_eq_true.2 fun c hc => hhex c (List.mem_of_mem_take hc)
  · exact List.all_eq_true.2 fun c hc => hhex c (List.mem_of_mem_drop (List.mem_of_mem_take hc))
  · exact lowercaseHex_printable digest

theorem isStoredText_locatorText (digest : Digest) :
    isStoredText (locatorText digest) 1024 = true :=
  isStoredText_of_printable (locatorText_printable digest)
    (by rw [length_locatorText]; decide) (by rw [length_locatorText]; decide)

end MengXia
