import Mathlib.Logic.Basic
import Mathlib.Data.List.Basic
/-!
# Transactions

A transaction reads and writes a state and may fail; a failed one loses
its writes. `wp` is its weakest precondition: what must hold of the state
before it, so that a normal end satisfies one postcondition and a failure
another. The rules below peel a transaction apart statement by statement,
and `wp_forEach` is the invariant rule for a loop of them.
-/

namespace Common

/-- A computation that may fail answers through both of its halves. -/
theorem exceptBind_eq_ok {ε α β : Type} {x : Except ε α} {f : α → Except ε β} {b : β} :
    (x >>= f) = .ok b ↔ ∃ a, x = .ok a ∧ f a = .ok b := by
  cases x with
  | ok a => exact ⟨fun h => ⟨a, rfl, h⟩, fun ⟨_, ha, h⟩ => Except.ok.inj ha ▸ h⟩
  | error e => exact ⟨fun h => (by cases h), fun ⟨_, ha, _⟩ => by cases ha⟩

/-- What stands behind a check is answered when the check is passed. -/
theorem refusal_eq_ok {ε α : Type} {c : Prop} [Decidable c] {e : ε} {x : Except ε α} {a : α} :
    (if c then .error e else x) = .ok a ↔ ¬ c ∧ x = .ok a := by
  by_cases h : c <;> simp [h]

/-- What passes a requirement meets it. -/
theorem requirement_eq_ok {ε α : Type} {c : Prop} [Decidable c] {e : ε} {x : Except ε α} {a : α} :
    (if c then x else .error e) = .ok a ↔ c ∧ x = .ok a := by
  by_cases h : c <;> simp [h]

/-- An option forgets the error only. -/
theorem toOption_eq_some {ε α : Type} {x : Except ε α} {a : α} :
    x.toOption = some a ↔ x = .ok a := by
  cases x <;> simp [Except.toOption]

/-- The value that must be there. -/
def okOr {ε α : Type} (e : ε) : Option α → Except ε α
  | some a => .ok a
  | none => .error e

/-- Only a value passes. -/
theorem okOr_eq_ok {ε α : Type} {e : ε} {x : Option α} {a : α} : okOr e x = .ok a ↔ x = some a := by
  cases x <;> simp [okOr]

/-- A computation fails in one of its halves. -/
theorem exceptBind_eq_error {ε α β : Type} {x : Except ε α} {f : α → Except ε β} {e : ε}
    (h : (x >>= f) = .error e) : x = .error e ∨ ∃ a, x = .ok a ∧ f a = .error e := by
  cases x with
  | ok a => exact .inr ⟨a, rfl, h⟩
  | error e' =>
    cases h
    exact .inl rfl

/-- A computation that fails with one error only. -/
def OnlyFails {ε α : Type} (e : ε) (x : Except ε α) : Prop :=
  ∀ e', x = .error e' → e' = e

namespace OnlyFails

variable {ε α β : Type} {e : ε} {x y : Except ε α} {f : α → Except ε β}

theorem ok {a : α} : OnlyFails e (.ok a) :=
  fun _ h => by cases h

theorem error : OnlyFails e (.error e : Except ε α) :=
  fun _ h => (Except.error.inj h).symm

/-- Both parts fail with it. -/
theorem bind (h : OnlyFails e x) (hf : ∀ a, OnlyFails e (f a)) : OnlyFails e (x >>= f) :=
  fun e' he => (exceptBind_eq_error he).elim (h e') fun ⟨a, _, ha⟩ => hf a e' ha

theorem ite {c : Prop} [Decidable c] (hx : OnlyFails e x) (hy : OnlyFails e y) :
    OnlyFails e (if c then x else y) := by
  split
  · exact hx
  · exact hy

theorem dite {c : Prop} [Decidable c] {x : c → Except ε α} {y : ¬ c → Except ε α}
    (hx : ∀ h, OnlyFails e (x h)) (hy : ∀ h, OnlyFails e (y h)) :
    OnlyFails e (if h : c then x h else y h) := by
  split
  · exact hx _
  · exact hy _

end OnlyFails

/-- A computation that succeeds on every element succeeds on the list. -/
theorem exceptMapM_eq_ok {ε α β : Type} {f : α → Except ε β} {g : α → β} {as : List α}
    (h : ∀ a ∈ as, f a = .ok (g a)) : as.mapM f = .ok (as.map g) := by
  induction as with
  | nil => rfl
  | cons a as ih =>
    rw [List.mapM_cons, h a List.mem_cons_self, ih fun b hb => h b (List.mem_cons_of_mem a hb)]
    rfl

/-- A check that passes on every element passes on the list. -/
theorem exceptForM_eq_ok {ε α : Type} {f : α → Except ε Unit} {as : List α}
    (h : ∀ a ∈ as, f a = .ok ()) : as.forM f = .ok () := by
  induction as with
  | nil => rfl
  | cons a as ih =>
    have hstep : (a :: as).forM f = f a >>= fun _ => as.forM f := rfl
    rw [hstep, h a List.mem_cons_self]
    exact ih fun b hb => h b (List.mem_cons_of_mem a hb)

/-- A map succeeds when it does on every element. -/
theorem exists_exceptMapM {ε α β : Type} {f : α → Except ε β} {as : List α}
    (h : ∀ a ∈ as, ∃ b, f a = .ok b) : ∃ bs, as.mapM f = .ok bs := by
  induction as with
  | nil => exact ⟨[], rfl⟩
  | cons a as ih =>
    obtain ⟨b, hb⟩ := h a List.mem_cons_self
    obtain ⟨bs, hbs⟩ := ih fun x hx => h x (List.mem_cons_of_mem a hx)
    rw [List.mapM_cons, hb, hbs]
    exact ⟨b :: bs, rfl⟩

/-- A list that is computed is computed element by element. -/
theorem forall₂_of_exceptMapM {ε α β : Type} {f : α → Except ε β} {as : List α} {bs : List β}
    (h : as.mapM f = .ok bs) : List.Forall₂ (fun a b => f a = .ok b) as bs := by
  induction as generalizing bs with
  | nil =>
    cases h
    exact .nil
  | cons a as ih =>
    rw [List.mapM_cons] at h
    obtain ⟨b, hb, h⟩ := exceptBind_eq_ok.1 h
    obtain ⟨bs, hbs, h⟩ := exceptBind_eq_ok.1 h
    cases h
    exact .cons hb (ih hbs)

/-- Related lists agree on what related elements agree on. -/
theorem map_eq_of_forall₂ {α β γ : Type} {R : α → β → Prop} {as : List α} {bs : List β}
    (h : List.Forall₂ R as bs) {f : α → γ} {g : β → γ} (hR : ∀ a b, R a b → f a = g b) :
    as.map f = bs.map g := by
  induction h with
  | nil => rfl
  | cons hab _ ih => rw [List.map_cons, List.map_cons, hR _ _ hab, ih]

/-- Every element of the second list has a partner. -/
theorem exists_of_forall₂ {α β : Type} {R : α → β → Prop} {as : List α} {bs : List β}
    (h : List.Forall₂ R as bs) {b : β} (hb : b ∈ bs) : ∃ a ∈ as, R a b := by
  induction h with
  | nil => cases hb
  | cons hab _ ih =>
    rcases List.mem_cons.1 hb with rfl | hb
    · exact ⟨_, List.mem_cons_self, hab⟩
    · obtain ⟨a, ha, hR⟩ := ih hb
      exact ⟨a, List.mem_cons_of_mem _ ha, hR⟩

/-- A computation over the state `σ` that may fail with an `ε`. -/
def Txn (σ ε α : Type) : Type :=
  σ → Except ε (α × σ)

namespace Txn

variable {σ ε α β : Type}

instance : Monad (Txn σ ε) where
  pure a := fun s => .ok (a, s)
  bind x f := fun s =>
    match x s with
    | .ok (a, s') => f a s'
    | .error e => .error e

/-- The second transaction runs in the state after the first. -/
theorem bind_apply (x : Txn σ ε α) (f : α → Txn σ ε β) (s : σ) :
    (x >>= f) s =
      match x s with
      | .ok (a, s') => f a s'
      | .error e => .error e := rfl

/-- The state as it stands. -/
def read : Txn σ ε σ :=
  fun s => .ok (s, s)

/-- Fail, losing every write of the transaction. -/
def fail (e : ε) : Txn σ ε α :=
  fun _ => .error e

/-- A computation that does not touch the state. -/
def lift (x : Except ε α) : Txn σ ε α :=
  fun s => x.map fun a => (a, s)

/-- What a caller sees of a transaction: its result, and the state, which
a failure leaves as it was. -/
def run (x : Txn σ ε α) (s : σ) : Except ε α × σ :=
  match x s with
  | .ok (a, s') => (.ok a, s')
  | .error e => (.error e, s)

/-- A failed transaction leaves the state as it was. -/
theorem run_error {x : Txn σ ε α} {s : σ} {e : ε} (h : (x.run s).1 = .error e) :
    (x.run s).2 = s := by
  unfold run at h ⊢
  cases hx : x s with
  | ok r => rw [hx] at h; cases h
  | error e => rfl

/-! ## Weakest preconditions -/

/-- `x` started in `s` either ends normally with a result and a state
satisfying `Q`, or fails with an error satisfying `E`. -/
def wp (x : Txn σ ε α) (Q : α → σ → Prop) (E : ε → Prop) (s : σ) : Prop :=
  match x s with
  | .ok (a, s') => Q a s'
  | .error e => E e

variable {Q Q' : α → σ → Prop} {R : β → σ → Prop} {E E' : ε → Prop} {s s' : σ}
variable {x : Txn σ ε α}

@[simp] theorem wp_pure (a : α) : wp (pure a : Txn σ ε α) Q E s ↔ Q a s := Iff.rfl

@[simp] theorem wp_read {Q : σ → σ → Prop} : wp (read : Txn σ ε σ) Q E s ↔ Q s s := Iff.rfl

@[simp] theorem wp_fail (e : ε) : wp (fail e : Txn σ ε α) Q E s ↔ E e := Iff.rfl

/-- One transaction after the other. -/
@[simp] theorem wp_bind (f : α → Txn σ ε β) :
    wp (x >>= f) R E s ↔ wp x (fun a t => wp (f a) R E t) E s := by
  unfold wp
  rw [bind_apply]
  cases x s <;> rfl

/-- A value or a failure from outside. -/
@[simp] theorem wp_lift (y : Except ε α) :
    wp (lift y : Txn σ ε α) Q E s ↔ (∀ a, y = .ok a → Q a s) ∧ (∀ e, y = .error e → E e) := by
  cases y with
  | ok a => simp [wp, lift, Except.map]
  | error e => simp [wp, lift, Except.map]

@[simp] theorem wp_ite {c : Prop} [Decidable c] (y z : Txn σ ε α) :
    wp (if c then y else z) Q E s ↔ (c → wp y Q E s) ∧ (¬ c → wp z Q E s) := by
  by_cases h : c <;> simp [h]

/-- A weaker postcondition has a weaker precondition. -/
theorem wp_mono (h : wp x Q E s) (hQ : ∀ a t, Q a t → Q' a t) (hE : ∀ e, E e → E' e) :
    wp x Q' E' s := by
  unfold wp at h ⊢
  cases hx : x s with
  | ok r => rw [hx] at h; exact hQ _ _ h
  | error e => rw [hx] at h; exact hE _ h

/-- **The caller's view of a `wp`.** A normal result comes with the state
the postcondition speaks of. -/
theorem wp_run_ok {a : α} (h : wp x Q E s) (hr : x.run s = (.ok a, s')) : Q a s' := by
  unfold run at hr
  unfold wp at h
  cases hx : x s with
  | ok r =>
    rw [hx] at h hr
    obtain ⟨rfl, rfl⟩ : r.1 = a ∧ r.2 = s' := by simpa using hr
    exact h
  | error e => rw [hx] at hr; simp at hr

/-- **The two ends of a run.** -/
theorem wp_run (h : wp x Q E s) :
    (∃ a, (x.run s).1 = .ok a ∧ Q a (x.run s).2) ∨
      ∃ e, (x.run s).1 = .error e ∧ E e ∧ (x.run s).2 = s := by
  unfold wp at h
  unfold run
  cases hx : x s with
  | ok r => rw [hx] at h; exact Or.inl ⟨r.1, rfl, h⟩
  | error e => rw [hx] at h; exact Or.inr ⟨e, rfl, h, rfl⟩

/-- A run with one answer and one state to end in. -/
theorem run_eq_ok {a : α} (h : wp x (fun b t => b = a ∧ t = s') (fun _ => False) s) :
    x.run s = (.ok a, s') := by
  unfold wp at h
  unfold run
  cases hx : x s with
  | ok r =>
    rw [hx] at h
    obtain ⟨rfl, rfl⟩ := h
    rfl
  | error e => rw [hx] at h; exact h.elim

/-- A run that can only fail, and only so. -/
theorem run_eq_error {e : ε} (h : wp x (fun _ _ => False) (fun e' => e' = e) s) :
    x.run s = (.error e, s) := by
  unfold wp at h
  unfold run
  cases hx : x s with
  | ok r => rw [hx] at h; exact h.elim
  | error e' => rw [hx] at h; rw [h]

/-- The answer of a transaction, passed through a function. -/
theorem run_map {f : α → β} (h : x.run s = (.ok a, s')) :
    (x >>= fun a => pure (f a) : Txn σ ε β).run s = (.ok (f a), s') := by
  unfold run at h ⊢
  rw [bind_apply]
  cases hx : x s with
  | ok r =>
    rw [hx] at h
    cases h
    rfl
  | error e => rw [hx] at h; cases h

/-- And back: a transaction whose failures are all excluded ends normally. -/
theorem run_ok_of_wp (h : wp x Q (fun _ => False) s) :
    ∃ a s', x.run s = (.ok a, s') ∧ Q a s' := by
  unfold wp at h
  unfold run
  cases hx : x s with
  | ok r => rw [hx] at h; exact ⟨r.1, r.2, rfl, h⟩
  | error e => rw [hx] at h; exact h.elim

/-! ## Partial correctness -/

/-- Every normal end of `x` started in `s` satisfies `Q`. -/
def post (x : Txn σ ε α) (Q : α → σ → Prop) (s : σ) : Prop :=
  wp x Q (fun _ => True) s

@[simp] theorem post_pure (a : α) : post (pure a : Txn σ ε α) Q s ↔ Q a s := Iff.rfl

@[simp] theorem post_read {Q : σ → σ → Prop} : post (read : Txn σ ε σ) Q s ↔ Q s s := Iff.rfl

@[simp] theorem post_bind (f : α → Txn σ ε β) :
    post (x >>= f) R s ↔ post x (fun a t => post (f a) R t) s := wp_bind f

@[simp] theorem post_lift (y : Except ε α) :
    post (lift y : Txn σ ε α) Q s ↔ ∀ a, y = .ok a → Q a s := by
  simp [post]

@[simp] theorem post_ite {c : Prop} [Decidable c] (y z : Txn σ ε α) :
    post (if c then y else z) Q s ↔ (c → post y Q s) ∧ (¬ c → post z Q s) := wp_ite y z

/-- A weaker postcondition. -/
theorem post_mono (h : post x Q s) (hQ : ∀ a t, Q a t → Q' a t) : post x Q' s :=
  wp_mono h hQ fun _ h => h

/-- **What a caller sees after a normal end.** -/
theorem post_run {a : α} (h : post x Q s) (hr : x.run s = (.ok a, s')) : Q a s' :=
  wp_run_ok h hr

/-- The same rule for the answer alone. -/
theorem post_answer {a : α} (h : post x Q s) (hr : (x.run s).1 = .ok a) : Q a (x.run s).2 :=
  post_run h (Prod.ext hr rfl)

/-- **The state a caller is left with**: unchanged, or as the postcondition
of a normal end says. -/
theorem post_run_state {P : σ → Prop} (h : post x (fun _ t => P t) s) (hs : P s) :
    P (x.run s).2 := by
  unfold run
  unfold post wp at h
  cases hx : x s with
  | ok r => rw [hx] at h; exact h
  | error e => exact hs

/-- A transaction whose answer is dropped. -/
def void (x : Txn σ ε α) : Txn σ ε Unit :=
  x >>= fun _ => pure ()

/-- A result that is dropped. -/
theorem post_void {Q : Unit → σ → Prop} (h : post x (fun _ t => Q () t) s) :
    post (void x) Q s := by
  unfold void
  rw [post_bind]
  exact h

/-- Dropping the answer leaves the state. -/
theorem run_void (x : Txn σ ε α) (s : σ) : ((void x).run s).2 = (x.run s).2 := by
  unfold run void
  rw [bind_apply]
  cases x s <;> rfl

/-- A failure remains when the result is dropped. -/
theorem run_void_error {x : Txn σ ε α} {s : σ} {e : ε} (h : x.run s = (.error e, s)) :
    (void x).run s = (.error e, s) := by
  unfold run at h ⊢
  unfold void
  rw [bind_apply]
  cases hx : x s with
  | ok r => rw [hx] at h; cases h
  | error e' =>
    rw [hx] at h
    cases h
    rfl

/-! ## Loops -/

/-- Run a statement for each element, in order. -/
def forEach : List α → (α → Txn σ ε Unit) → Txn σ ε Unit
  | [], _ => pure ()
  | a :: as, body => do
    body a
    forEach as body

/-- **The invariant rule.** `I` is indexed by the elements already done:
if the body takes `I done` to `I (done ++ [a])` at every position of the
list, the loop takes `I []` to `I` of the whole list. -/
theorem wp_forEach {body : α → Txn σ ε Unit} (I : List α → σ → Prop) {as : List α}
    (hI : I [] s)
    (hbody : ∀ done a rest, as = done ++ a :: rest → ∀ t, I done t →
      wp (body a) (fun _ t' => I (done ++ [a]) t') E t) :
    wp (forEach as body) (fun _ t => I as t) E s := by
  suffices h : ∀ (rest done : List α) (t : σ), as = done ++ rest → I done t →
      wp (forEach rest body) (fun _ t' => I as t') E t from h as [] s rfl hI
  intro rest
  induction rest with
  | nil =>
    intro done t has ht
    rw [List.append_nil] at has
    subst has
    exact ht
  | cons a rest ih =>
    intro done t has ht
    simp only [forEach, wp_bind]
    refine wp_mono (hbody done a rest has t ht) (fun _ t' ht' => ?_) (fun _ h => h)
    exact ih (done ++ [a]) t' (by simpa using has) ht'

/-- The invariant rule for normal ends. -/
theorem post_forEach {body : α → Txn σ ε Unit} (I : List α → σ → Prop) {as : List α}
    (hI : I [] s)
    (hbody : ∀ done a rest, as = done ++ a :: rest → ∀ t, I done t →
      post (body a) (fun _ t' => I (done ++ [a]) t') t) :
    post (forEach as body) (fun _ t => I as t) s :=
  wp_forEach I hI hbody

end Txn

end Common
