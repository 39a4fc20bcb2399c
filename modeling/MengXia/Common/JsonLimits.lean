import MengXia.Common.JsonValue
import Mathlib.Algebra.GroupWithZero.Nat
/-!
# Bounded JSON documents

Limits that a reader sets on the documents it takes: how deep they nest,
how many values a container holds, and which keys, strings and numbers may
stand in them. Keys of an object are distinct. The limits do not depend on
the order of fields, so a document within them is within them in its normal
form, with as many values.
-/

namespace Common.Json

variable {N : Type}

/-- What a reader accepts. -/
structure Limits (N : Type) where
  depth : ℕ
  items : ℕ
  key : List Char → Bool
  string : List Char → Bool
  number : N → Bool

mutual

/-- The number of values in a document. -/
def nodeCount : Json N → ℕ
  | .array items => 1 + nodeCountItems items
  | .object fields => 1 + nodeCountFields fields
  | _ => 1

def nodeCountItems : List (Json N) → ℕ
  | [] => 0
  | item :: items => nodeCount item + nodeCountItems items

def nodeCountFields : List (List Char × Json N) → ℕ
  | [] => 0
  | (_, value) :: fields => nodeCount value + nodeCountFields fields

end

mutual

/-- A document, standing at a depth, is within limits. -/
def within (limits : Limits N) (depth : ℕ) : Json N → Bool
  | .null => depth ≤ limits.depth
  | .bool _ => depth ≤ limits.depth
  | .number n => depth ≤ limits.depth && limits.number n
  | .string t => depth ≤ limits.depth && limits.string t
  | .array items =>
    depth ≤ limits.depth && items.length ≤ limits.items && withinItems limits (depth + 1) items
  | .object fields =>
    depth ≤ limits.depth && fields.length ≤ limits.items &&
      decide (fields.map Prod.fst).Nodup && withinFields limits (depth + 1) fields

def withinItems (limits : Limits N) (depth : ℕ) : List (Json N) → Bool
  | [] => true
  | item :: items => within limits depth item && withinItems limits depth items

def withinFields (limits : Limits N) (depth : ℕ) : List (List Char × Json N) → Bool
  | [] => true
  | (key, value) :: fields =>
    limits.key key && within limits depth value && withinFields limits depth fields

end

/-- The values of an array add up. -/
theorem nodeCountItems_eq (items : List (Json N)) :
    nodeCountItems items = (items.map nodeCount).sum := by
  induction items with
  | nil => rfl
  | cons item items ih => rw [nodeCountItems, ih, List.map_cons, List.sum_cons]

/-- The values of an object add up. -/
theorem nodeCountFields_eq (fields : List (List Char × Json N)) :
    nodeCountFields fields = (fields.map fun field => nodeCount field.2).sum := by
  induction fields with
  | nil => rfl
  | cons field fields ih => rw [nodeCountFields, ih, List.map_cons, List.sum_cons]

variable {limits : Limits N} {depth : ℕ}

/-- Every item keeps the limits. -/
theorem withinItems_iff {items : List (Json N)} :
    withinItems limits depth items = true ↔ ∀ item ∈ items, within limits depth item = true := by
  induction items with
  | nil => simp [withinItems]
  | cons item items ih => rw [withinItems, Bool.and_eq_true, ih, List.forall_mem_cons]

/-- Every key and value keeps the limits. -/
theorem withinFields_iff {fields : List (List Char × Json N)} :
    withinFields limits depth fields = true ↔
      ∀ field ∈ fields, limits.key field.1 = true ∧ within limits depth field.2 = true := by
  induction fields with
  | nil => simp [withinFields]
  | cons field fields ih =>
    rw [withinFields, Bool.and_eq_true, Bool.and_eq_true, ih, List.forall_mem_cons]

theorem within_array_iff {items : List (Json N)} :
    within limits depth (.array items) = true ↔
      depth ≤ limits.depth ∧ items.length ≤ limits.items ∧
        ∀ item ∈ items, within limits (depth + 1) item = true := by
  rw [within, Bool.and_eq_true, Bool.and_eq_true, withinItems_iff, decide_eq_true_iff,
    decide_eq_true_iff, and_assoc]

theorem within_object_iff {fields : List (List Char × Json N)} :
    within limits depth (.object fields) = true ↔
      depth ≤ limits.depth ∧ fields.length ≤ limits.items ∧ (fields.map Prod.fst).Nodup ∧
        ∀ field ∈ fields, limits.key field.1 = true ∧ within limits (depth + 1) field.2 = true := by
  rw [within, Bool.and_eq_true, Bool.and_eq_true, Bool.and_eq_true, withinFields_iff,
    decide_eq_true_iff, decide_eq_true_iff, decide_eq_true_iff, and_assoc, and_assoc]

/-- The fields of an object with distinct keys, in normal form. -/
theorem normalize_object_perm {fields : List (List Char × Json N)}
    (h : (fields.map Prod.fst).Nodup) :
    (insertFields (normalizeFields fields) []).Perm
      (fields.map fun field => (field.1, normalize field.2)) := by
  have hkeys : ((fields.map fun field => (field.1, normalize field.2)).map Prod.fst).Nodup := by
    rw [List.map_map]
    exact h
  rw [normalizeFields_eq]
  have hperm := @insertFields_perm N (fields.map fun field => (field.1, normalize field.2)) []
  rw [List.append_nil] at hperm
  exact hperm hkeys

/-- **The normal form stays within the limits.** -/
theorem within_normalize {document : Json N} (h : within limits depth document = true) :
    within limits depth (normalize document) = true := by
  induction document using induct generalizing depth with
  | null | bool | number | string => exact h
  | array items ih =>
    obtain ⟨hdepth, hlength, hitems⟩ := within_array_iff.1 h
    rw [normalize, normalizeItems_eq, within_array_iff, List.length_map]
    exact ⟨hdepth, hlength,
      List.forall_mem_map.2 fun item hitem => ih item hitem (hitems item hitem)⟩
  | object fields ih =>
    obtain ⟨hdepth, hlength, hkeys, hfields⟩ := within_object_iff.1 h
    have hperm := normalize_object_perm hkeys
    rw [normalize, within_object_iff, hperm.length_eq, List.length_map,
      (hperm.map Prod.fst).nodup_iff, List.map_map]
    refine ⟨hdepth, hlength, hkeys, fun field hfield => ?_⟩
    obtain ⟨f, hf, rfl⟩ := List.mem_map.1 (hperm.mem_iff.1 hfield)
    exact ⟨(hfields f hf).1, ih f hf (hfields f hf).2⟩

/-- **The normal form has as many values.** -/
theorem nodeCount_normalize {document : Json N} (h : within limits depth document = true) :
    nodeCount (normalize document) = nodeCount document := by
  induction document using induct generalizing depth with
  | null | bool | number | string => rfl
  | array items ih =>
    obtain ⟨-, -, hitems⟩ := within_array_iff.1 h
    rw [normalize, normalizeItems_eq, nodeCount, nodeCount, nodeCountItems_eq, nodeCountItems_eq,
      List.map_map]
    congr 2
    exact List.map_congr_left fun item hitem => ih item hitem (hitems item hitem)
  | object fields ih =>
    obtain ⟨-, -, hkeys, hfields⟩ := within_object_iff.1 h
    have hperm := normalize_object_perm hkeys
    rw [normalize, nodeCount, nodeCount, nodeCountFields_eq, nodeCountFields_eq,
      (hperm.map _).sum_eq, List.map_map]
    congr 2
    exact List.map_congr_left fun field hfield => ih field hfield (hfields field hfield).2

end Common.Json
