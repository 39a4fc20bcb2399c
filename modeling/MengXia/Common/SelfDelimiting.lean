import MengXia.Common.Fields
/-!
# Self-delimiting encodings

An encoding is self-delimiting when a reader can tell where a value ends:
two encodings with anything behind them are equal only when the values are,
and what is behind them. Such encodings can be written one after the other,
counted or not, and the result is self-delimiting again.
-/

namespace Common

/-- **The encoding of an admitted value never continues another's.** -/
def SelfDelimiting {α β : Type} (P : α → Prop) (encode : α → List β) : Prop :=
  ∀ a b, P a → P b → ∀ rest rest', encode a ++ rest = encode b ++ rest' → a = b ∧ rest = rest'

namespace SelfDelimiting

variable {α γ β : Type} {P : α → Prop} {Q : γ → Prop} {f : α → List β} {g : γ → List β}

/-- A self-delimiting encoding tells values apart. -/
theorem injective (h : SelfDelimiting P f) {a b : α} (ha : P a) (hb : P b) (heq : f a = f b) :
    a = b :=
  (h a b ha hb [] [] (by rw [heq])).1

/-- **Encodings of one length** are self-delimiting when they are injective. -/
theorem fixed {width : ℕ} (hlength : ∀ a, P a → (f a).length = width)
    (hinjective : ∀ a b, P a → P b → f a = f b → a = b) : SelfDelimiting P f := by
  intro a b ha hb rest rest' heq
  obtain ⟨hvalue, hrest⟩ := List.append_inj heq (by rw [hlength a ha, hlength b hb])
  exact ⟨hinjective a b ha hb hvalue, hrest⟩

/-- **One value after another.** -/
theorem prod (hf : SelfDelimiting P f) (hg : SelfDelimiting Q g) :
    SelfDelimiting (fun x : α × γ => P x.1 ∧ Q x.2) (fun x => f x.1 ++ g x.2) := by
  intro a b ha hb rest rest' heq
  rw [List.append_assoc, List.append_assoc] at heq
  obtain ⟨hfirst, heq⟩ := hf _ _ ha.1 hb.1 _ _ heq
  obtain ⟨hsecond, hrest⟩ := hg _ _ ha.2 hb.2 _ _ heq
  exact ⟨Prod.ext hfirst hsecond, hrest⟩

/-- **A value that is told by another** may be encoded as that one. -/
theorem comap (hf : SelfDelimiting P f) (u : γ → α) (hg : ∀ c, g c = f (u c))
    (hu : ∀ c, Q c → P (u c)) (hinjective : ∀ c d, Q c → Q d → u c = u d → c = d) :
    SelfDelimiting Q g := by
  intro c d hc hd rest rest' heq
  rw [hg, hg] at heq
  obtain ⟨hvalue, hrest⟩ := hf _ _ (hu c hc) (hu d hd) _ _ heq
  exact ⟨hinjective c d hc hd hvalue, hrest⟩

/-- Values of a list of known length, one after the other. -/
theorem flatMap_eq (hf : SelfDelimiting P f) {as bs : List α} (hlength : as.length = bs.length)
    (has : ∀ a ∈ as, P a) (hbs : ∀ b ∈ bs, P b) {rest rest' : List β}
    (heq : as.flatMap f ++ rest = bs.flatMap f ++ rest') : as = bs ∧ rest = rest' := by
  induction as generalizing bs with
  | nil =>
    cases List.length_eq_zero_iff.1 hlength.symm
    exact ⟨rfl, heq⟩
  | cons a as ih =>
    cases bs with
    | nil => cases hlength
    | cons b bs =>
      rw [List.flatMap_cons, List.flatMap_cons, List.append_assoc, List.append_assoc] at heq
      obtain ⟨hhead, htail⟩ := hf a b (has a List.mem_cons_self) (hbs b List.mem_cons_self) _ _ heq
      obtain ⟨htails, hrest⟩ := ih (Nat.succ.inj hlength)
        (fun x hx => has x (List.mem_cons_of_mem a hx))
        (fun x hx => hbs x (List.mem_cons_of_mem b hx)) htail
      exact ⟨by rw [hhead, htails], hrest⟩

end SelfDelimiting

/-! ## Numbers, strings and lists of bytes -/

/-- **Numbers of a fixed width.** -/
theorem selfDelimiting_beBytes (width : ℕ) :
    SelfDelimiting (fun n => n < 256 ^ width) (beBytes width) := by
  refine SelfDelimiting.fixed (fun n _ => length_beBytes) fun m n hm hn heq => ?_
  rw [← ofBeBytes_beBytes hm, heq, ofBeBytes_beBytes hn]

/-- **A list behind its length**, each of its values self-delimiting. -/
theorem SelfDelimiting.counted {α : Type} {P : α → Prop} {f : α → List UInt8}
    (hf : SelfDelimiting P f) (width : ℕ) :
    SelfDelimiting (fun as : List α => as.length < 256 ^ width ∧ ∀ a ∈ as, P a)
      (fun as => beBytes width as.length ++ as.flatMap f) := by
  intro as bs has hbs rest rest' heq
  rw [List.append_assoc, List.append_assoc] at heq
  obtain ⟨hlength, heq⟩ := selfDelimiting_beBytes width _ _ has.1 hbs.1 _ _ heq
  exact hf.flatMap_eq hlength has.2 hbs.2 heq

/-- **A string behind its length.** -/
theorem selfDelimiting_string (width : ℕ) :
    SelfDelimiting (fun bytes : List UInt8 => bytes.length < 256 ^ width)
      (fun bytes => beBytes width bytes.length ++ bytes) := by
  intro a b ha hb rest rest' heq
  rw [List.append_assoc, List.append_assoc] at heq
  obtain ⟨hlength, heq⟩ := selfDelimiting_beBytes width _ _ ha hb _ _ heq
  exact List.append_inj heq hlength

/-- **An optional value behind a flag** is told by its bytes when the value is. -/
theorem eq_of_flagged {α : Type} {P : α → Prop} {encode : Option α → List UInt8}
    {value : α → List UInt8} (hnone : encode none = [0])
    (hsome : ∀ a, encode (some a) = [1] ++ value a)
    (hvalue : ∀ a b, P a → P b → value a = value b → a = b) {a b : Option α}
    (ha : ∀ x ∈ a, P x) (hb : ∀ x ∈ b, P x) (h : encode a = encode b) : a = b := by
  cases a <;> cases b <;> simp only [hnone, hsome] at h
  · rfl
  · exact absurd (List.head_eq_of_cons_eq h) (by decide)
  · exact absurd (List.head_eq_of_cons_eq h) (by decide)
  · rw [hvalue _ _ (ha _ rfl) (hb _ rfl) (List.append_cancel_left h)]

/-! ## Tagged fields -/

/-- Fields with consecutive tags, each behind its tag and its length of four
bytes. -/
def tagged : ℕ → List (List UInt8) → List UInt8
  | _, [] => []
  | tag, field :: fields =>
    [UInt8.ofNat tag] ++ (beBytes 4 field.length ++ field) ++ tagged (tag + 1) fields

/-- **Tagged fields are told apart**, whatever their number. -/
theorem tagged_injective {tag : ℕ} {fields fields' : List (List UInt8)}
    (h : ∀ field ∈ fields, field.length < 256 ^ 4)
    (h' : ∀ field ∈ fields', field.length < 256 ^ 4)
    (heq : tagged tag fields = tagged tag fields') : fields = fields' := by
  induction fields generalizing tag fields' with
  | nil =>
    cases fields' with
    | nil => rfl
    | cons field' fields' => simp [tagged] at heq
  | cons field fields ih =>
    cases fields' with
    | nil => simp [tagged] at heq
    | cons field' fields' =>
      rw [tagged, tagged, List.append_assoc, List.append_assoc] at heq
      obtain ⟨hhead, htail⟩ := selfDelimiting_string 4 field field' (h field List.mem_cons_self)
        (h' field' List.mem_cons_self) _ _ (List.append_cancel_left heq)
      rw [hhead, ih (fun x hx => h x (List.mem_cons_of_mem field hx))
        (fun x hx => h' x (List.mem_cons_of_mem field' hx)) htail]

end Common
