import MengXia.Common.Digits
/-!
# Binary records of fixed fields

A record is the concatenation of its fields, numbers in big-endian order,
and a reader takes each field back from its offset.
-/

namespace Common

variable {α : Type} {widths : List ℕ} {width n b a start stop : ℕ} {bytes : List UInt8}

variable {fields : List (List α)}

/-- The last `width` bytes of a number. -/
def beBytes (width n : ℕ) : List UInt8 :=
  (digits 256 width n).map UInt8.ofNat

/-- The number that bytes spell. -/
def ofBeBytes (bytes : List UInt8) : ℕ :=
  ofDigits 256 (bytes.map UInt8.toNat)

@[simp] theorem length_beBytes : (beBytes width n).length = width := by
  simp [beBytes]

/-- **A number that fits its field is read back.** -/
theorem ofBeBytes_beBytes (h : n < 256 ^ width) :
    ofBeBytes (beBytes width n) = n := by
  have hmap : (beBytes width n).map UInt8.toNat = digits 256 width n := by
    unfold beBytes
    rw [List.map_map]
    refine (List.map_congr_left fun x hx => ?_).trans (List.map_id _)
    have hx : x < 256 := lt_of_mem_digits (by decide) hx
    exact UInt8.toNat_ofNat_of_lt' hx
  rw [ofBeBytes, hmap, ofDigits_digits h]

/-- Digits after a number stay below the next number. -/
theorem ofDigitsFrom_lt {xs : List ℕ} (hxs : ∀ x ∈ xs, x < b) :
    ofDigitsFrom b a xs < (a + 1) * b ^ xs.length := by
  induction xs generalizing a with
  | nil => simp [ofDigitsFrom]
  | cons x xs ih =>
    have hx := hxs x List.mem_cons_self
    calc ofDigitsFrom b (a * b + x) xs
        < (a * b + x + 1) * b ^ xs.length := ih fun y hy => hxs y (List.mem_cons_of_mem x hy)
      _ ≤ (a + 1) * b * b ^ xs.length := by
          refine Nat.mul_le_mul_right _ ?_
          rw [Nat.add_mul, Nat.one_mul]
          omega
      _ = (a + 1) * b ^ (x :: xs).length := by
          rw [List.length_cons, pow_succ, Nat.mul_assoc, Nat.mul_comm b]

/-- Bytes are digits. -/
theorem lt_of_mem_map_toNat : ∀ x ∈ bytes.map UInt8.toNat, x < 256 := by
  intro x hx
  obtain ⟨byte, -, rfl⟩ := List.mem_map.1 hx
  exact byte.toNat_lt

/-- A field of `n` bytes holds a number below `256 ^ n`. -/
theorem ofBeBytes_lt (bytes : List UInt8) : ofBeBytes bytes < 256 ^ bytes.length := by
  have h : ofDigitsFrom 256 0 (bytes.map UInt8.toNat) < (0 + 1) * 256 ^ (bytes.map _).length :=
    ofDigitsFrom_lt lt_of_mem_map_toNat
  simpa [ofBeBytes, ofDigits] using h

/-- Digits after a number do not lower it. -/
theorem le_ofDigitsFrom (xs : List ℕ) : a * b ^ xs.length ≤ ofDigitsFrom b a xs := by
  induction xs generalizing a with
  | nil => simp [ofDigitsFrom]
  | cons x xs ih =>
    calc a * b ^ (x :: xs).length
        = a * b * b ^ xs.length := by
          rw [List.length_cons, pow_succ, Nat.mul_assoc, Nat.mul_comm b]
      _ ≤ (a * b + x) * b ^ xs.length := Nat.mul_le_mul_right _ (Nat.le_add_right _ _)
      _ ≤ ofDigitsFrom b a (x :: xs) := ih

/-- **Digits below the base are the digits of the number they spell.** -/
theorem digits_ofDigitsFrom {xs : List ℕ} (hxs : ∀ x ∈ xs, x < b) :
    digits b xs.length (ofDigitsFrom b a xs) = xs := by
  induction xs generalizing a with
  | nil => rfl
  | cons x xs ih =>
    have hx := hxs x List.mem_cons_self
    have htail : ∀ y ∈ xs, y < b := fun y hy => hxs y (List.mem_cons_of_mem x hy)
    have hquotient : ofDigitsFrom b (a * b + x) xs / b ^ xs.length = a * b + x :=
      Nat.div_eq_of_lt_le (le_ofDigitsFrom xs) (ofDigitsFrom_lt htail)
    rw [List.length_cons, digits, ofDigitsFrom, hquotient, ih htail, Nat.mul_add_mod_self_right,
      Nat.mod_eq_of_lt hx]

/-- **Bytes are those of the number they spell.** -/
theorem beBytes_ofBeBytes (bytes : List UInt8) :
    beBytes bytes.length (ofBeBytes bytes) = bytes := by
  have hdigits := digits_ofDigitsFrom (a := 0) (@lt_of_mem_map_toNat bytes)
  rw [List.length_map] at hdigits
  rw [beBytes, ofBeBytes, ofDigits, hdigits, List.map_map]
  exact (List.map_congr_left fun byte _ => UInt8.ofNat_toNat).trans (List.map_id _)

/-- The digits of zero. -/
theorem digits_zero_right (b n : ℕ) : digits b n 0 = List.replicate n 0 := by
  induction n with
  | zero => rfl
  | succ n ih => rw [digits, ih, Nat.zero_div, Nat.zero_mod, List.replicate_succ]

/-- **Zero is the number all of whose bytes are zero.** -/
theorem ofBeBytes_eq_zero_iff (bytes : List UInt8) : ofBeBytes bytes = 0 ↔ ∀ x ∈ bytes, x = 0 := by
  have hzero : beBytes bytes.length 0 = List.replicate bytes.length 0 := by
    rw [beBytes, digits_zero_right, List.map_replicate]
    rfl
  rw [← List.eq_replicate_length, ← hzero]
  constructor
  · intro h
    rw [← h, beBytes_ofBeBytes]
  · intro h
    rw [h, ofBeBytes_beBytes (Nat.pow_pos (by decide))]

/-- The bytes from `start` up to `stop`. -/
def slice {α : Type} (bytes : List α) (start stop : ℕ) : List α :=
  (bytes.drop start).take (stop - start)

/-! ## All fields at once -/

/-- The fields of the given widths, one after the other. -/
def fieldsAt {α : Type} (bytes : List α) : ℕ → List ℕ → List (List α)
  | _, [] => []
  | start, width :: widths =>
    slice bytes start (start + width) :: fieldsAt bytes (start + width) widths

theorem length_fieldsAt (bytes : List α) (start : ℕ) (widths : List ℕ) :
    (fieldsAt bytes start widths).length = widths.length := by
  induction widths generalizing start with
  | nil => rfl
  | cons width widths ih => rw [fieldsAt, List.length_cons, List.length_cons, ih]

/-- The length of a slice. -/
theorem length_slice {bytes : List α} {stop : ℕ} (h : stop ≤ bytes.length) :
    (slice bytes start stop).length = stop - start := by
  unfold slice
  rw [List.length_take, List.length_drop]
  omega

/-- A range of bytes is two ranges side by side. -/
theorem slice_split (bytes : List α) {middle stop : ℕ} (h : start ≤ middle) (h' : middle ≤ stop) :
    slice bytes start stop = slice bytes start middle ++ slice bytes middle stop := by
  have hwidth : stop - start = (middle - start) + (stop - middle) := by omega
  have hdrop : start + (middle - start) = middle := by omega
  unfold slice
  rw [hwidth, List.take_add, List.drop_drop, hdrop]

/-- **Fields that cover a record make it up.** -/
theorem flatten_fieldsAt {bytes : List α} (h : bytes.length = start + widths.sum) :
    (fieldsAt bytes start widths).flatten = bytes.drop start := by
  induction widths generalizing start with
  | nil =>
    rw [fieldsAt, List.flatten_nil, List.drop_eq_nil_of_le]
    simp [h]
  | cons width widths ih =>
    rw [List.sum_cons] at h
    rw [fieldsAt, List.flatten_cons, ih (by omega), slice, Nat.add_sub_cancel_left,
      ← List.drop_drop, List.take_append_drop]

/-- The fields behind others do not see them. -/
theorem fieldsAt_append (front bytes : List α) (widths : List ℕ) (start : ℕ) :
    fieldsAt (front ++ bytes) (front.length + start) widths = fieldsAt bytes start widths := by
  induction widths generalizing start with
  | nil => rfl
  | cons width widths ih =>
    have hwidth : front.length + (start + width) - (front.length + start) = width := by omega
    have hstart : front.length + start - front.length = start := by omega
    rw [fieldsAt, fieldsAt, Nat.add_assoc, ih]
    unfold slice
    rw [List.drop_append, List.drop_eq_nil_of_le (by omega), List.nil_append, hwidth, hstart,
      Nat.add_sub_cancel_left]

/-- **A record is cut into the fields it was made of.** -/
theorem fieldsAt_flatten (h : fields.map List.length = widths) :
    fieldsAt fields.flatten 0 widths = fields := by
  induction fields generalizing widths with
  | nil =>
    subst h
    rfl
  | cons field fields ih =>
    subst h
    rw [List.map_cons, fieldsAt, List.flatten_cons]
    have hrest := fieldsAt_append field fields.flatten (fields.map List.length) 0
    rw [Nat.add_zero] at hrest
    rw [Nat.zero_add, hrest, ih rfl]
    unfold slice
    rw [List.drop_zero, Nat.sub_zero, List.take_left]

/-- **What a record is**: bytes of its length, with its fields in their places. -/
theorem eq_flatten_iff (h : fields.map List.length = widths) {bytes : List α} :
    bytes = fields.flatten ↔ bytes.length = widths.sum ∧ fieldsAt bytes 0 widths = fields := by
  constructor
  · rintro rfl
    exact ⟨by rw [List.length_flatten, h], fieldsAt_flatten h⟩
  · rintro ⟨hlength, rfl⟩
    rw [flatten_fieldsAt (by rw [hlength, Nat.zero_add]), List.drop_zero]

/-- Two layouts, one after the other. -/
theorem fieldsAt_concat (bytes : List α) (widths widths' : List ℕ) (start : ℕ) :
    fieldsAt bytes start (widths ++ widths') =
      fieldsAt bytes start widths ++ fieldsAt bytes (start + widths.sum) widths' := by
  induction widths generalizing start with
  | nil => rfl
  | cons width widths ih =>
    rw [List.cons_append, fieldsAt, fieldsAt, ih, List.sum_cons, Nat.add_assoc, List.cons_append]

/-! ## Records with a checksum behind them -/

/-- **A record and its checksum are found** where they were written. -/
theorem fieldsAt_sealed (h : fields.map List.length = widths) (checksum : List α) :
    fieldsAt (fields.flatten ++ checksum) 0 widths = fields ∧
      slice (fields.flatten ++ checksum) 0 widths.sum = fields.flatten ∧
      slice (fields.flatten ++ checksum) widths.sum (widths.sum + checksum.length) = checksum := by
  have hsum : fields.flatten.length = widths.sum := by rw [List.length_flatten, h]
  have hwidths : (fields ++ [checksum]).map List.length = widths ++ [checksum.length] := by
    rw [List.map_append, h]
    rfl
  have hall := fieldsAt_flatten hwidths
  rw [List.flatten_append, List.flatten_singleton, fieldsAt_concat] at hall
  have hparts := List.append_inj hall (by rw [length_fieldsAt, ← h, List.length_map])
  refine ⟨hparts.1, List.take_left' hsum, ?_⟩
  have hlast := List.head_eq_of_cons_eq hparts.2
  rwa [Nat.zero_add] at hlast

/-- **Records of the same widths that are written alike are alike**, whatever
their checksums. -/
theorem fields_eq_of_sealed_eq {fields' : List (List α)} (h : fields.map List.length = widths)
    (h' : fields'.map List.length = widths) {checksum checksum' : List α}
    (heq : fields.flatten ++ checksum = fields'.flatten ++ checksum') : fields = fields' := by
  have hcut := (fieldsAt_sealed h checksum).1
  have hcut' := (fieldsAt_sealed h' checksum').1
  rw [← hcut, heq, hcut']

/-- **The fields of a record make up what stands before its checksum**, and
the two halves the whole. -/
theorem flatten_fieldsAt_sealed {bytes : List α} {k : ℕ} (h : bytes.length = widths.sum + k) :
    (fieldsAt bytes 0 widths).flatten = slice bytes 0 widths.sum ∧
      slice bytes 0 widths.sum ++ slice bytes widths.sum (widths.sum + k) = bytes := by
  have hhalves : slice bytes 0 widths.sum ++ slice bytes widths.sum (widths.sum + k) = bytes := by
    have hrest : (bytes.drop widths.sum).length ≤ k := by
      rw [List.length_drop]
      omega
    unfold slice
    rw [List.drop_zero, Nat.sub_zero, Nat.add_sub_cancel_left, List.take_of_length_le hrest,
      List.take_append_drop]
  have hall : (fieldsAt bytes 0 (widths ++ [k])).flatten = bytes :=
    flatten_fieldsAt (by rw [List.sum_append, List.sum_singleton, h, Nat.zero_add])
  rw [fieldsAt_concat, List.flatten_append, Nat.zero_add] at hall
  refine ⟨List.append_cancel_right (hall.trans ?_), hhalves⟩
  rw [fieldsAt, fieldsAt, List.flatten_singleton, hhalves]

/-- **What a record with its checksum is**: its fields stand in their places,
and the checksum of what stands before it behind them. -/
theorem eq_sealed_iff (h : fields.map List.length = widths) {checksum : List α → List α} {k : ℕ}
    (hk : ∀ record, (checksum record).length = k) {bytes : List α} :
    fields.flatten ++ checksum fields.flatten = bytes ↔ bytes.length = widths.sum + k ∧
      fieldsAt bytes 0 widths = fields ∧
      checksum (slice bytes 0 widths.sum) = slice bytes widths.sum (widths.sum + k) := by
  constructor
  · rintro rfl
    obtain ⟨hfields, hrecord, hsum⟩ := fieldsAt_sealed h (checksum fields.flatten)
    rw [hk] at hsum
    rw [hrecord, hsum, List.length_append, hk, List.length_flatten, h]
    exact ⟨rfl, hfields, rfl⟩
  · rintro ⟨hlength, rfl, hsum⟩
    obtain ⟨hrecord, hhalves⟩ := flatten_fieldsAt_sealed hlength
    rw [hrecord, hsum, hhalves]

/-! ## What a checked field holds -/

/-- **A word that was read is the one in the field.** -/
theorem ofNat_ofBeBytes (width : ℕ) (h : bytes.length = width) {v : BitVec (8 * width)} :
    BitVec.ofNat (8 * width) (ofBeBytes bytes) = v ↔ bytes = beBytes width v.toNat := by
  have hpow : 2 ^ (8 * width) = 256 ^ width := pow_mul 2 8 width
  constructor
  · rintro rfl
    have hlt := ofBeBytes_lt bytes
    rw [BitVec.toNat_ofNat, Nat.mod_eq_of_lt (by rwa [hpow, ← h]), ← h, beBytes_ofBeBytes]
  · rintro rfl
    rw [ofBeBytes_beBytes (hpow ▸ v.isLt), BitVec.ofNat_toNat, BitVec.setWidth_eq]

/-- Words of a width are told apart by their bytes. -/
theorem beBytes_toNat_inj (width : ℕ) {x y : BitVec (8 * width)} :
    beBytes width x.toNat = beBytes width y.toNat ↔ x = y := by
  have hlt : x.toNat < 256 ^ width := by simpa [pow_mul] using x.isLt
  rw [← ofNat_ofBeBytes width length_beBytes, ofBeBytes_beBytes hlt, BitVec.ofNat_toNat,
    BitVec.setWidth_eq]

/-- A number is read from a field when the field holds its bytes. -/
theorem ofBeBytes_slice_eq_iff (h : stop ≤ bytes.length) :
    ofBeBytes (slice bytes start stop) = n ↔
      n < 256 ^ (stop - start) ∧ slice bytes start stop = beBytes (stop - start) n := by
  constructor
  · rintro rfl
    rw [← length_slice h]
    exact ⟨ofBeBytes_lt _, (beBytes_ofBeBytes _).symm⟩
  · rintro ⟨hn, hbytes⟩
    rw [hbytes, ofBeBytes_beBytes hn]

/-- A field is of zeros when no byte of it is another one. -/
theorem any_slice_ne_zero_iff (h : stop ≤ bytes.length) :
    ((slice bytes start stop).any fun byte => decide (byte ≠ 0)) = true ↔
      slice bytes start stop ≠ List.replicate (stop - start) 0 := by
  rw [← length_slice h, ne_eq, List.eq_replicate_length]
  simp

end Common
