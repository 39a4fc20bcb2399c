import MengXia.Common.Json
import Mathlib.Data.List.Lex
import Mathlib.Data.Char
import Mathlib.Algebra.BigOperators.Group.List.Basic
/-!
# JSON values

What a document denotes: numbers by a number format, objects as maps in
the order of their keys, a later field replacing an earlier one of the same
key. A value is written in that order, so that equal values have equal
texts.
-/

namespace Common.Json

/-- Induction over a document with the nested lists as membership. -/
theorem induct {N : Type} {P : Json N → Prop} (null : P .null) (bool : ∀ b, P (.bool b))
    (number : ∀ n, P (.number n)) (string : ∀ t, P (.string t))
    (array : ∀ items, (∀ item ∈ items, P item) → P (.array items))
    (object : ∀ fields, (∀ field ∈ fields, P field.2) → P (.object fields))
    (document : Json N) : P document :=
  @Json.rec N P (fun items => ∀ item ∈ items, P item) (fun fields => ∀ field ∈ fields, P field.2)
    (fun field => P field.2) null bool number string array object (fun _ h => by cases h)
    (fun _ _ hitem hitems => List.forall_mem_cons.2 ⟨hitem, hitems⟩) (fun _ h => by cases h)
    (fun _ _ hfield hfields => List.forall_mem_cons.2 ⟨hfield, hfields⟩) (fun _ _ h => h) document

variable {L M N : Type}
variable {fields : List (List Char × Json N)} {value : Json N} {key : List Char} {f : M → Option N}

/-! ## Equality -/

section Equality

variable [DecidableEq N]

mutual

def beq : Json N → Json N → Bool
  | .null, .null => true
  | .bool a, .bool b => a == b
  | .number m, .number n => m == n
  | .string s, .string t => s == t
  | .array xs, .array ys => beqItems xs ys
  | .object xs, .object ys => beqFields xs ys
  | _, _ => false

def beqItems : List (Json N) → List (Json N) → Bool
  | [], [] => true
  | x :: xs, y :: ys => beq x y && beqItems xs ys
  | _, _ => false

def beqFields : List (List Char × Json N) → List (List Char × Json N) → Bool
  | [], [] => true
  | (k, x) :: xs, (l, y) :: ys => k == l && beq x y && beqFields xs ys
  | _, _ => false

end

theorem beqItems_iff {xs ys : List (Json N)} (h : ∀ x ∈ xs, ∀ y, beq x y = true ↔ x = y) :
    beqItems xs ys = true ↔ xs = ys := by
  induction xs generalizing ys with
  | nil => cases ys <;> simp [beqItems]
  | cons x xs ih =>
    obtain ⟨hx, hxs⟩ := List.forall_mem_cons.1 h
    cases ys with
    | nil => simp [beqItems]
    | cons y ys => rw [beqItems, Bool.and_eq_true, hx, ih hxs, List.cons.injEq]

theorem beqFields_iff {xs ys : List (List Char × Json N)}
    (h : ∀ x ∈ xs, ∀ y, beq x.2 y = true ↔ x.2 = y) : beqFields xs ys = true ↔ xs = ys := by
  induction xs generalizing ys with
  | nil => cases ys <;> simp [beqFields]
  | cons x xs ih =>
    obtain ⟨hx, hxs⟩ := List.forall_mem_cons.1 h
    cases ys with
    | nil => simp [beqFields]
    | cons y ys =>
      rw [beqFields, Bool.and_eq_true, Bool.and_eq_true, hx, ih hxs, beq_iff_eq, List.cons.injEq,
        Prod.ext_iff]

/-- The comparison decides equality. -/
theorem beq_iff {x y : Json N} : beq x y = true ↔ x = y := by
  induction x using induct generalizing y with
  | null | bool b | number n | string t => cases y <;> simp [beq]
  | array items ih =>
    cases y with
    | array ys => rw [beq, beqItems_iff fun x hx y => ih x hx, array.injEq]
    | _ => simp [beq]
  | object fields ih =>
    cases y with
    | object ys => rw [beq, beqFields_iff fun x hx y => ih x hx, object.injEq]
    | _ => simp [beq]

instance : DecidableEq (Json N) :=
  fun _ _ => decidable_of_iff _ beq_iff

end Equality

/-! ## Numbers -/

mutual

/-- Every number through `f`. -/
def map (f : M → N) : Json M → Json N
  | .null => .null
  | .bool b => .bool b
  | .number n => .number (f n)
  | .string t => .string t
  | .array items => .array (mapItems f items)
  | .object fields => .object (mapFields f fields)

def mapItems (f : M → N) : List (Json M) → List (Json N)
  | [] => []
  | item :: items => map f item :: mapItems f items

def mapFields (f : M → N) : List (List Char × Json M) → List (List Char × Json N)
  | [] => []
  | (key, value) :: fields => (key, map f value) :: mapFields f fields

end

mutual

/-- Every number through `f`, if it has a result for all of them. -/
def convert (f : M → Option N) : Json M → Option (Json N)
  | .null => some .null
  | .bool b => some (.bool b)
  | .number n => (f n).map .number
  | .string t => some (.string t)
  | .array items => (convertItems f items).map .array
  | .object fields => (convertFields f fields).map .object

def convertItems (f : M → Option N) : List (Json M) → Option (List (Json N))
  | [] => some []
  | item :: items => do
    let item ← convert f item
    let items ← convertItems f items
    return item :: items

def convertFields (f : M → Option N) :
    List (List Char × Json M) → Option (List (List Char × Json N))
  | [] => some []
  | (key, value) :: fields => do
    let value ← convert f value
    let fields ← convertFields f fields
    return (key, value) :: fields

end

mutual

/-- **Conversion after a map is conversion by the composition.** -/
theorem convert_map (f : L → M) (g : M → Option N) :
    (document : Json L) → convert g (map f document) = convert (fun n => g (f n)) document
  | .null => rfl
  | .bool _ => rfl
  | .number _ => rfl
  | .string _ => rfl
  | .array items => by rw [map, convert, convert, convertItems_mapItems f g items]
  | .object fields => by rw [map, convert, convert, convertFields_mapFields f g fields]

/-- A conversion after a map is one conversion. -/
theorem convertItems_mapItems (f : L → M) (g : M → Option N) : (items : List (Json L)) →
    convertItems g (mapItems f items) = convertItems (fun n => g (f n)) items
  | [] => rfl
  | item :: items => by
    rw [mapItems, convertItems, convertItems, convert_map f g item,
      convertItems_mapItems f g items]

theorem convertFields_mapFields (f : L → M) (g : M → Option N) :
    (fields : List (List Char × Json L)) →
    convertFields g (mapFields f fields) = convertFields (fun n => g (f n)) fields
  | [] => rfl
  | (key, value) :: fields => by
    rw [mapFields, convertFields, convertFields, convert_map f g value,
      convertFields_mapFields f g fields]

end

/-- How numbers are read and written. The grammar of a number is part of
`read`, which answers nothing for a run that is not one. -/
structure NumberFormat (N : Type) where
  read : NumberText → Option N
  write : N → NumberText

/-- The document in a text. -/
def NumberFormat.readJson (F : NumberFormat N) (cs : List Char) : Option (Json N) :=
  (readText cs).bind (convert F.read)

/-- The text of a document. -/
def NumberFormat.writeJson (F : NumberFormat N) (document : Json N) : List Char :=
  writeText (map F.write document)

/-- **What is read back is the document with its numbers read back.** -/
theorem NumberFormat.readJson_writeJson (F : NumberFormat N) (document : Json N) :
    F.readJson (F.writeJson document) = convert (fun n => F.read (F.write n)) document := by
  rw [readJson, writeJson, readText_writeText, Option.bind_some, convert_map]

/-! ## Objects as maps -/

/-- Inserting into a map in key order; an equal key is replaced. -/
def insertField (key : List Char) (value : Json N) :
    List (List Char × Json N) → List (List Char × Json N)
  | [] => [(key, value)]
  | field :: fields =>
    if key < field.1 then (key, value) :: field :: fields
    else if key = field.1 then (key, value) :: fields
    else field :: insertField key value fields

/-- Inserting fields one after another. -/
def insertFields (fields : List (List Char × Json N)) (map : List (List Char × Json N)) :
    List (List Char × Json N) :=
  fields.foldl (fun map field => insertField field.1 field.2 map) map

mutual

/-- A document with its objects as maps. -/
def normalize : Json N → Json N
  | .null => .null
  | .bool b => .bool b
  | .number n => .number n
  | .string t => .string t
  | .array items => .array (normalizeItems items)
  | .object fields => .object (insertFields (normalizeFields fields) [])

def normalizeItems : List (Json N) → List (Json N)
  | [] => []
  | item :: items => normalize item :: normalizeItems items

def normalizeFields : List (List Char × Json N) → List (List Char × Json N)
  | [] => []
  | (key, value) :: fields => (key, normalize value) :: normalizeFields fields

end

/-- Every item is normalized. -/
theorem normalizeItems_eq (items : List (Json N)) :
    normalizeItems items = items.map normalize := by
  induction items with
  | nil => rfl
  | cons item items ih => rw [normalizeItems, ih, List.map_cons]

/-- Every value is normalized, before the fields are sorted. -/
theorem normalizeFields_eq (fields : List (List Char × Json N)) :
    normalizeFields fields = fields.map fun field => (field.1, normalize field.2) := by
  induction fields with
  | nil => rfl
  | cons field fields ih => rw [normalizeFields, ih, List.map_cons]

/-- Fields in strictly ascending order of their keys. -/
def KeySorted (fields : List (List Char × Json N)) : Prop :=
  fields.Pairwise fun a b => a.1 < b.1

/-- An insertion adds one field. -/
theorem mem_insertField {field : List Char × Json N} (h : field ∈ insertField key value fields) :
    field = (key, value) ∨ field ∈ fields := by
  induction fields with
  | nil => exact Or.inl (List.mem_singleton.1 h)
  | cons f fields ih =>
    rw [insertField] at h
    split_ifs at h with hlt heq
    · exact List.mem_cons.1 h
    · exact (List.mem_cons.1 h).imp_right (List.mem_cons_of_mem f)
    · rcases List.mem_cons.1 h with rfl | h
      · exact Or.inr List.mem_cons_self
      · exact (ih h).imp_right (List.mem_cons_of_mem f)

/-- An insertion keeps the keys in order. -/
theorem KeySorted.insertField (h : KeySorted fields) (key : List Char) (value : Json N) :
    KeySorted (insertField key value fields) := by
  induction fields with
  | nil => exact List.pairwise_singleton _ _
  | cons f fields ih =>
    obtain ⟨hf, hfields⟩ := List.pairwise_cons.1 h
    rw [Json.insertField]
    split_ifs with hlt heq
    · refine List.pairwise_cons.2 ⟨fun g hg => ?_, h⟩
      rcases List.mem_cons.1 hg with rfl | hg
      · exact hlt
      · exact hlt.trans (hf g hg)
    · exact List.pairwise_cons.2 ⟨fun g hg => heq ▸ hf g hg, hfields⟩
    · refine List.pairwise_cons.2 ⟨fun g hg => ?_, ih hfields⟩
      rcases mem_insertField hg with rfl | hg
      · exact lt_of_le_of_ne (not_lt.1 hlt) (Ne.symm heq)
      · exact hf g hg

/-- Insertions keep the keys in order. -/
theorem KeySorted.insertFields {map : List (List Char × Json N)} (h : KeySorted map) :
    KeySorted (insertFields fields map) := by
  induction fields generalizing map with
  | nil => exact h
  | cons field fields ih => exact ih (h.insertField field.1 field.2)

/-- Several insertions add these fields only. -/
theorem mem_insertFields {map : List (List Char × Json N)} {field : List Char × Json N}
    (h : field ∈ insertFields fields map) : field ∈ fields ∨ field ∈ map := by
  induction fields generalizing map with
  | nil => exact Or.inr h
  | cons f fields ih =>
    rcases ih h with h | h
    · exact Or.inl (List.mem_cons_of_mem f h)
    · rcases mem_insertField h with rfl | h
      · exact Or.inl List.mem_cons_self
      · exact Or.inr h

/-- A largest key goes to the end. -/
theorem insertField_of_lt {map : List (List Char × Json N)} (h : ∀ field ∈ map, field.1 < key) :
    insertField key value map = map ++ [(key, value)] := by
  induction map with
  | nil => rfl
  | cons f map ih =>
    obtain ⟨hf, hmap⟩ := List.forall_mem_cons.1 h
    rw [insertField, if_neg hf.asymm, if_neg (ne_of_gt hf), ih hmap, List.cons_append]

/-- **Fields in order are a map as they stand.** -/
theorem insertFields_of_keySorted {map : List (List Char × Json N)} (h : KeySorted (map ++ fields))
    : insertFields fields map = map ++ fields := by
  induction fields generalizing map with
  | nil => rw [List.append_nil]; rfl
  | cons field fields ih =>
    have hlast : ∀ f ∈ map, f.1 < field.1 := fun f hf =>
      (List.pairwise_append.1 h).2.2 f hf field List.mem_cons_self
    have hstep : insertFields (field :: fields) map =
        insertFields fields (insertField field.1 field.2 map) := rfl
    rw [hstep, insertField_of_lt hlast, ih (by rwa [List.append_assoc, List.singleton_append]),
      List.append_assoc, List.singleton_append]

/-- A new key loses no field. -/
theorem insertField_perm {map : List (List Char × Json N)} (h : ∀ field ∈ map, field.1 ≠ key) :
    (insertField key value map).Perm ((key, value) :: map) := by
  induction map with
  | nil => exact .refl _
  | cons f map ih =>
    obtain ⟨hf, hmap⟩ := List.forall_mem_cons.1 h
    rw [insertField]
    split_ifs with hlt heq
    · exact .refl _
    · exact absurd heq.symm hf
    · exact ((ih hmap).cons f).trans (.swap _ _ _)

/-- **Distinct keys keep every field.** -/
theorem insertFields_perm {map : List (List Char × Json N)}
    (h : ((fields ++ map).map Prod.fst).Nodup) :
    (insertFields fields map).Perm (fields ++ map) := by
  induction fields generalizing map with
  | nil => exact .refl _
  | cons field fields ih =>
    rw [List.cons_append, List.map_cons, List.nodup_cons] at h
    obtain ⟨hfresh, hrest⟩ := h
    have hne : ∀ f ∈ map, f.1 ≠ field.1 := fun f hf he =>
      hfresh (List.mem_map.2 ⟨f, List.mem_append_right _ hf, he⟩)
    have hperm : (fields ++ insertField field.1 field.2 map).Perm (field :: (fields ++ map)) :=
      ((insertField_perm hne).append_left fields).trans List.perm_middle
    have hnodup : ((fields ++ insertField field.1 field.2 map).map Prod.fst).Nodup := by
      rw [(hperm.map Prod.fst).nodup_iff, List.map_cons, List.nodup_cons]
      exact ⟨hfresh, hrest⟩
    exact (ih hnodup).trans hperm

/-! ## Normal form -/

/-- A document whose objects are maps. -/
inductive Sorted : Json N → Prop
  | null : Sorted .null
  | bool (b : Bool) : Sorted (.bool b)
  | number (n : N) : Sorted (.number n)
  | string (t : List Char) : Sorted (.string t)
  | array {items : List (Json N)} : (∀ item ∈ items, Sorted item) → Sorted (.array items)
  | object {fields : List (List Char × Json N)} : KeySorted fields →
      (∀ field ∈ fields, Sorted field.2) → Sorted (.object fields)

/-- **A normal document is sorted throughout.** -/
theorem sorted_normalize (document : Json N) : Sorted (normalize document) := by
  induction document using induct with
  | null => exact .null
  | bool b => exact .bool b
  | number n => exact .number n
  | string t => exact .string t
  | array items ih =>
    rw [normalize, normalizeItems_eq]
    exact .array (List.forall_mem_map.2 ih)
  | object fields ih =>
    rw [normalize, normalizeFields_eq]
    refine .object (KeySorted.insertFields .nil) fun field hfield => ?_
    rcases mem_insertFields hfield with hfield | hfield
    · obtain ⟨f, hf, rfl⟩ := List.mem_map.1 hfield
      exact ih f hf
    · cases hfield

/-- **A normal form is its own normal form.** -/
theorem Sorted.normalize_eq {document : Json N} (h : Sorted document) :
    normalize document = document := by
  induction document using induct with
  | null | bool | number | string => rfl
  | array items ih =>
    obtain - | - | - | - | hitems := h
    rw [normalize, normalizeItems_eq, List.map_congr_left fun item hitem =>
      ih item hitem (hitems item hitem), List.map_id']
  | object fields ih =>
    obtain - | - | - | - | - | ⟨hkeys, hfields⟩ := h
    have hvalues : normalizeFields fields = fields := by
      rw [normalizeFields_eq]
      refine (List.map_congr_left fun field hfield => ?_).trans (List.map_id _)
      exact Prod.ext rfl (ih field hfield (hfields field hfield))
    have hmap : insertFields fields [] = [] ++ fields := insertFields_of_keySorted hkeys
    rw [normalize, hvalues, hmap, List.nil_append]

/-- Every converted item comes from one. -/
theorem mem_convertItems {items : List (Json M)} {items' : List (Json N)}
    (h : convertItems f items = some items') {item' : Json N} (hitem : item' ∈ items') :
    ∃ item ∈ items, convert f item = some item' := by
  induction items generalizing items' with
  | nil =>
    cases h
    cases hitem
  | cons x xs ih =>
    simp only [convertItems, Option.bind_eq_bind, Option.bind_eq_some_iff, Option.pure_def,
      Option.some_inj] at h
    obtain ⟨y, hy, ys, hys, rfl⟩ := h
    rcases List.mem_cons.1 hitem with rfl | hitem
    · exact ⟨x, List.mem_cons_self, hy⟩
    · obtain ⟨item, hmem, hconvert⟩ := ih hys hitem
      exact ⟨item, List.mem_cons_of_mem x hmem, hconvert⟩

/-- Conversion keeps the keys. -/
theorem mem_convertFields {fields : List (List Char × Json M)} {fields' : List (List Char × Json N)}
    (h : convertFields f fields = some fields') :
    fields'.map Prod.fst = fields.map Prod.fst ∧
      ∀ field' ∈ fields', ∃ field ∈ fields, convert f field.2 = some field'.2 := by
  induction fields generalizing fields' with
  | nil =>
    cases h
    exact ⟨rfl, fun _ hfield => by cases hfield⟩
  | cons x xs ih =>
    simp only [convertFields, Option.bind_eq_bind, Option.bind_eq_some_iff, Option.pure_def,
      Option.some_inj] at h
    obtain ⟨y, hy, ys, hys, rfl⟩ := h
    obtain ⟨hkeys, hvalues⟩ := ih hys
    refine ⟨by rw [List.map_cons, List.map_cons, hkeys], List.forall_mem_cons.2 ⟨?_, ?_⟩⟩
    · exact ⟨x, List.mem_cons_self, hy⟩
    · intro field' hfield'
      obtain ⟨field, hmem, hconvert⟩ := hvalues field' hfield'
      exact ⟨field, List.mem_cons_of_mem x hmem, hconvert⟩

/-- **Converting the numbers keeps the normal form.** -/
theorem Sorted.convert {document : Json M} (h : Sorted document) {document' : Json N}
    (hconvert : convert f document = some document') : Sorted document' := by
  induction document using induct generalizing document' with
  | null =>
    cases hconvert
    exact .null
  | bool b =>
    cases hconvert
    exact .bool b
  | number n =>
    obtain ⟨m, -, rfl⟩ := Option.map_eq_some_iff.1 hconvert
    exact .number m
  | string t =>
    cases hconvert
    exact .string t
  | array items ih =>
    obtain - | - | - | - | hitems := h
    obtain ⟨items', hitems', rfl⟩ := Option.map_eq_some_iff.1 hconvert
    refine .array fun item' hitem' => ?_
    obtain ⟨item, hitem, hconvert⟩ := mem_convertItems hitems' hitem'
    exact ih item hitem (hitems item hitem) hconvert
  | object fields ih =>
    obtain - | - | - | - | - | ⟨hkeys, hfields⟩ := h
    obtain ⟨fields', hfields', rfl⟩ := Option.map_eq_some_iff.1 hconvert
    obtain ⟨hsame, hvalues⟩ := mem_convertFields hfields'
    refine .object ?_ fun field' hfield' => ?_
    · exact List.pairwise_map.1 (hsame ▸ List.pairwise_map.2 hkeys)
    · obtain ⟨field, hfield, hconvert⟩ := hvalues field' hfield'
      exact ih field hfield (hfields field hfield) hconvert

/-- **A value that is read back at all up to its normal form is read back
exactly.** -/
theorem NumberFormat.readJson_of_normalize {F : NumberFormat N} {document : Json N}
    (hvalue : Sorted value) (hread : F.readJson (F.writeJson value) = some document)
    (hsame : normalize document = value) : F.readJson (F.writeJson value) = some value := by
  have hsorted : Sorted document := by
    rw [readJson_writeJson] at hread
    exact hvalue.convert hread
  rw [hread, ← hsame, hsorted.normalize_eq]

end Common.Json
