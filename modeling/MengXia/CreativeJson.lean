import MengXia.Domain
import MengXia.Common.JsonLimits
import MengXia.Common.Sha256
import MengXia.Common.Txn
/-!
# Creative JSON

The bounded reader of the app crate for the policies of a project and the
specification of work, and the canonical form it stores. How numbers are
read and written, and which of them `visit_f64` takes, is left to a
parameter. What is accepted once is accepted again in its canonical form,
and is that form (`parseCanonicalObject_stable`).
-/

namespace MengXia

open Common

/-- `CreativeInputError`. -/
inductive CreativeInputError where
  | invalidJson
  deriving DecidableEq

/-- The numbers of `serde_json`, with the envelope of `visit_f64`. -/
structure JsonNumbers (N : Type) extends Json.NumberFormat N where
  accepted : N → Bool

/-- Numbers that are kept as they are written. -/
def JsonNumbers.verbatim : JsonNumbers Json.NumberText where
  read := some
  write := id
  accepted _ := true

namespace JsonNumbers

variable {N : Type} (numbers : JsonNumbers N)

/-- The limits of `ValueVisitor`. -/
def limits : Json.Limits N where
  depth := 32
  items := 1024
  key t := Text.byteLength t ≤ 64 && !t.any isControl
  string t := Text.byteLength t ≤ 8192
  number := numbers.accepted

/-- `ValueSeed::deserialize` on a whole input, up to `Deserializer::end`. -/
def readValue (input : Bytes) : Option (Json N) := do
  let text ← Text.ofUtf8 input
  let document ← numbers.readJson text
  if document.nodeCount ≤ 4096 && document.within numbers.limits 1 then some document.normalize
  else none

/-- `serde_json::from_slice` to a `Value`. Its own recursion limit is 128,
which no document of `readValue` reaches. -/
def fromSlice (input : Bytes) : Option (Json N) := do
  let text ← Text.ofUtf8 input
  let document ← numbers.readJson text
  some document.normalize

/-- `serde_json::to_vec`. -/
def toVec (value : Json N) : Bytes :=
  Text.utf8 (numbers.writeJson value)

/-- `Value::is_object`. -/
def isObject : Json N → Bool
  | .object _ => true
  | _ => false

/-- `CanonicalJson::__from_validated_object`, with the digest of the bytes. -/
def fromValidatedObject (maximum : ℕ) (bytes : Bytes) :
    Except CreativeInputError CanonicalJson :=
  if h : isObjectShaped bytes = true then
    if bytes.length ≤ maximum then .ok ⟨bytes, ⟨sha256 bytes⟩, h⟩ else .error .invalidJson
  else .error .invalidJson

variable [DecidableEq N]

/-- `parse_canonical_object`. -/
def parseCanonicalObject (maximum : ℕ) (input : Bytes) :
    Except CreativeInputError CanonicalJson :=
  if input.length < 2 ∨ maximum < input.length then .error .invalidJson
  else
    match numbers.readValue input with
    | none => .error .invalidJson
    | some value =>
      if isObject value = false then .error .invalidJson
      else
        let canonical := numbers.toVec value
        if canonical.length < 2 ∨ maximum < canonical.length then .error .invalidJson
        else if numbers.fromSlice canonical = some value then
          fromValidatedObject maximum canonical
        else .error .invalidJson

/-- `parse_project_policy`. -/
def parseProjectPolicy (input : Bytes) : Except CreativeInputError CanonicalJson :=
  numbers.parseCanonicalObject 65536 input

/-- `parse_work_specification`. -/
def parseWorkSpecification (input : Bytes) : Except CreativeInputError CanonicalJson :=
  numbers.parseCanonicalObject 262144 input

end JsonNumbers

/-- The digest of four policies, as the parser of the app and the reader of
the store both compute it. -/
def policyDigest (policies : List Bytes) : Digest :=
  ⟨sha256 (Text.utf8 "MENGXIA_PROJECT_POLICIES_V1".toList ++ [0] ++
    policies.flatMap fun bytes => beBytes 4 bytes.length ++ bytes)⟩

/-- `parse_project_specification`. -/
def JsonNumbers.parseProjectSpecification {N : Type} [DecidableEq N] (numbers : JsonNumbers N)
    (resolution : Option Resolution) (frameRate aspectRatio : Option PositiveRatio)
    (color audio quality privacy : Bytes) : Except CreativeInputError ProjectSpecification := do
  if 262144 < color.length + audio.length + quality.length + privacy.length then
    .error .invalidJson
  let color ← numbers.parseProjectPolicy color
  let audio ← numbers.parseProjectPolicy audio
  let quality ← numbers.parseProjectPolicy quality
  let privacy ← numbers.parseProjectPolicy privacy
  pure
    { resolution := resolution
      frameRate := frameRate
      aspectRatio := aspectRatio
      colorPolicy := color
      audioPolicy := audio
      qualityPolicy := quality
      privacyPolicy := privacy
      policyDigest := policyDigest [color.bytes, audio.bytes, quality.bytes, privacy.bytes] }

/-! ## Canonical documents -/

namespace JsonNumbers

variable {N : Type} (numbers : JsonNumbers N)

/-- The canonical form of a value within the limits. -/
structure IsCanonical (maximum : ℕ) (value : Json N) (json : CanonicalJson) : Prop where
  object : isObject value = true
  sorted : value.Sorted
  nodes : value.nodeCount ≤ 4096
  within : value.within numbers.limits 1 = true
  /-- The numbers in the value are read back as they are written. -/
  stable : numbers.readJson (numbers.writeJson value) = some value
  bytes : json.bytes = numbers.toVec value
  bounded : 2 ≤ json.bytes.length ∧ json.bytes.length ≤ maximum
  digest : json.digest = ⟨sha256 json.bytes⟩

variable {numbers} {maximum : ℕ} {value : Json N} {json : CanonicalJson}

theorem readValue_eq_some {input : Bytes} (h : numbers.readValue input = some value) :
    value.Sorted ∧ value.nodeCount ≤ 4096 ∧ value.within numbers.limits 1 = true := by
  unfold readValue at h
  obtain ⟨text, -, h⟩ := Option.bind_eq_some_iff.1 h
  obtain ⟨document, -, h⟩ := Option.bind_eq_some_iff.1 h
  obtain ⟨hlimits, h⟩ := Option.ite_none_right_eq_some.1 h
  obtain ⟨hnodes, hwithin⟩ := Bool.and_eq_true_iff.1 hlimits
  cases h
  refine ⟨Json.sorted_normalize document, ?_, Json.within_normalize hwithin⟩
  rw [Json.nodeCount_normalize hwithin]
  exact of_decide_eq_true hnodes

theorem fromSlice_toVec_eq_some (hsorted : value.Sorted)
    (h : numbers.fromSlice (numbers.toVec value) = some value) :
    numbers.readJson (numbers.writeJson value) = some value := by
  unfold fromSlice toVec at h
  rw [Text.ofUtf8_utf8, Option.bind_eq_bind, Option.bind_some] at h
  obtain ⟨document, hread, h⟩ := Option.bind_eq_some_iff.1 h
  exact Json.NumberFormat.readJson_of_normalize hsorted hread (Option.some.inj h)

theorem fromValidatedObject_eq_ok {bytes : Bytes}
    (h : fromValidatedObject maximum bytes = .ok json) :
    json.bytes = bytes ∧ json.digest = ⟨sha256 bytes⟩ := by
  unfold fromValidatedObject at h
  split at h
  · split at h
    · cases h
      exact ⟨rfl, rfl⟩
    · cases h
  · cases h

theorem IsCanonical.readValue (h : numbers.IsCanonical maximum value json) :
    numbers.readValue json.bytes = some value := by
  have hread : numbers.readValue (numbers.toVec value) = some value.normalize := by
    unfold JsonNumbers.readValue toVec
    rw [Text.ofUtf8_utf8]
    simp only [Option.bind_eq_bind, Option.bind_some, h.stable, h.within, h.nodes, decide_true,
      Bool.and_self, if_true]
  rw [h.bytes, hread, h.sorted.normalize_eq]

theorem IsCanonical.fromSlice (h : numbers.IsCanonical maximum value json) :
    numbers.fromSlice (numbers.toVec value) = some value := by
  unfold JsonNumbers.fromSlice toVec
  rw [Text.ofUtf8_utf8]
  simp only [Option.bind_eq_bind, Option.bind_some, h.stable, h.sorted.normalize_eq]

variable [DecidableEq N]

/-- **What the parser accepts is canonical.** -/
theorem isCanonical_of_parse {input : Bytes}
    (h : numbers.parseCanonicalObject maximum input = .ok json) :
    ∃ value, numbers.IsCanonical maximum value json := by
  unfold parseCanonicalObject at h
  obtain ⟨-, h⟩ := refusal_eq_ok.1 h
  split at h
  · cases h
  rename_i value hread
  obtain ⟨hsorted, hnodes, hwithin⟩ := readValue_eq_some hread
  obtain ⟨hobject, h⟩ := refusal_eq_ok.1 h
  obtain ⟨hlength, h⟩ := refusal_eq_ok.1 h
  obtain ⟨hslice, h⟩ := requirement_eq_ok.1 h
  obtain ⟨hbytes, hdigest⟩ := fromValidatedObject_eq_ok h
  refine ⟨value, Bool.eq_true_of_not_eq_false hobject, hsorted, hnodes, hwithin,
    fromSlice_toVec_eq_some hsorted hslice, hbytes, ?_, ?_⟩
  · rw [hbytes]
    omega
  · rw [hbytes]
    exact hdigest

/-- **A canonical document is parsed to itself.** -/
theorem IsCanonical.parse (h : numbers.IsCanonical maximum value json) :
    numbers.parseCanonicalObject maximum json.bytes = .ok json := by
  obtain ⟨hlow, hhigh⟩ := h.bounded
  have hlength : ¬ (json.bytes.length < 2 ∨ maximum < json.bytes.length) := by omega
  unfold parseCanonicalObject
  rw [if_neg hlength, h.readValue]
  simp only [h.object, Bool.true_eq_false, if_false, h.fromSlice, if_true]
  rw [← h.bytes, if_neg hlength]
  unfold fromValidatedObject
  rw [dif_pos json.shape, if_pos hhigh, ← h.digest]

/-- **Parsing is stable.** The canonical form of an accepted document is
accepted, as itself. -/
theorem parseCanonicalObject_stable {input : Bytes}
    (h : numbers.parseCanonicalObject maximum input = .ok json) :
    numbers.parseCanonicalObject maximum json.bytes = .ok json := by
  obtain ⟨value, hvalue⟩ := isCanonical_of_parse h
  exact hvalue.parse

end JsonNumbers

end MengXia
