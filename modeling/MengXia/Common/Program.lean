import Mathlib.Logic.Basic
import Mathlib.Data.List.Basic
/-!
# Programs that call

A program calls operations one after the other and goes on with their
answers; what a call does to the state is said by a handler, and what the
handler may choose (how much a read returns, what a clock says) by a choice
it is given. `wp` is the weakest precondition of a program under a handler
that holds for every choice: its end satisfies a postcondition, and every
state on the way satisfies an invariant, so that a run which is cut off
anywhere leaves a state of the invariant. `Always` is what can be said of a
program without its handler: which calls it makes, and how it ends.
-/

namespace Common

/-- A program over the operations `Op`, where `op` is answered by an
`Ans op`. -/
inductive Program (Op : Type) (Ans : Op → Type) (α : Type) : Type where
  | done (a : α)
  | call (op : Op) (next : Ans op → Program Op Ans α)

namespace Program

variable {Op : Type} {Ans : Op → Type} {α β ε ε' : Type}

variable {p : Program Op Ans α}

/-- One program after the other. -/
def andThen : Program Op Ans α → (α → Program Op Ans β) → Program Op Ans β
  | .done a, f => f a
  | .call op next, f => .call op fun answer => (next answer).andThen f

instance : Monad (Program Op Ans) where
  pure := .done
  bind := andThen

/-- The program that makes one call. -/
def perform (op : Op) : Program Op Ans (Ans op) :=
  .call op .done

section Runs

variable {χ σ : Type} (handle : (op : Op) → χ → σ → Ans op × σ)

/-- Whatever is chosen, every state after a call satisfies `I`, and the end
satisfies `Q`. -/
def wp (I : σ → Prop) (Q : α → σ → Prop) : Program Op Ans α → σ → Prop
  | .done a, s => Q a s
  | .call op k, s =>
    ∀ choice, I (handle op choice s).2 ∧ wp I Q (k (handle op choice s).1) (handle op choice s).2

variable {handle} {I : σ → Prop} {Q Q' : α → σ → Prop} {s : σ}

/-- A call: whatever it answers. -/
theorem wp_perform {op : Op} {Q : Ans op → σ → Prop} : wp handle I Q (perform op) s ↔
    ∀ choice, I (handle op choice s).2 ∧ Q (handle op choice s).1 (handle op choice s).2 :=
  Iff.rfl

/-- One program after the other. -/
theorem wp_bind {f : α → Program Op Ans β} {Q : β → σ → Prop} :
    wp handle I Q (p >>= f) s ↔ wp handle I (fun a s => wp handle I Q (f a) s) p s := by
  induction p generalizing s with
  | done a => exact Iff.rfl
  | call op k ih =>
    refine forall_congr' fun choice => ?_
    exact and_congr_right fun _ => ih _

/-- A weaker postcondition. -/
theorem wp_mono (h : wp handle I Q p s) (hQ : ∀ a s, Q a s → Q' a s) :
    wp handle I Q' p s := by
  induction p generalizing s with
  | done a => exact hQ a s h
  | call op k ih => exact fun choice => ⟨(h choice).1, ih _ (h choice).2⟩

/-- An equivalent postcondition. -/
theorem wp_congr (hQ : ∀ a s, Q a s ↔ Q' a s) :
    wp handle I Q p s ↔ wp handle I Q' p s :=
  ⟨fun h => wp_mono h fun a s => (hQ a s).1, fun h => wp_mono h fun a s => (hQ a s).2⟩

variable (handle) in
/-- The run in which every call meets the same choice. -/
def runWith (choice : χ) : Program Op Ans α → σ → α × σ
  | .done a, s => (a, s)
  | .call op k, s => runWith choice (k (handle op choice s).1) (handle op choice s).2

/-- **What holds of every run** holds of the run under one choice. -/
theorem wp_runWith (h : wp handle I Q p s) (choice : χ) :
    Q (runWith handle choice p s).1 (runWith handle choice p s).2 := by
  induction p generalizing s with
  | done a => exact h
  | call op k ih => exact ih _ (h choice).2

end Runs

/-! ## Programs that may fail -/

/-- Two postconditions, for the two ways a fallible program ends. -/
def ends {σ : Type} (Q : α → σ → Prop) (E : ε → σ → Prop) : Except ε α → σ → Prop
  | .ok a => Q a
  | .error e => E e

variable {m : Type → Type} [Monad m]

/-- Read an answer as a result or a failure. -/
def check (f : β → Except ε α) (x : m β) : ExceptT ε m α :=
  ExceptT.mk (x >>= fun answer => pure (f answer))

/-- An answer that may be a failure, with the failure translated. -/
def orFail (f : ε → ε') (x : m (Except ε α)) : ExceptT ε' m α :=
  check (fun answer => answer.mapError f) x

/-- Go on only where a condition holds. -/
def require (condition : Bool) (e : ε) : ExceptT ε m Unit :=
  if condition then pure () else throw e

section Fallible

variable {χ σ : Type} (handle : (op : Op) → χ → σ → Ans op × σ)

/-- The weakest precondition of a program that may fail. -/
def wpx (I : σ → Prop) (Q : α → σ → Prop) (E : ε → σ → Prop)
    (p : ExceptT ε (Program Op Ans) α) (s : σ) : Prop :=
  wp handle I (ends Q E) p.run s

variable {handle} {I : σ → Prop} {Q Q' : α → σ → Prop} {E E' : ε → σ → Prop} {s : σ}

/-- The second program runs unless the first fails. -/
@[simp] theorem wpx_bind {p : ExceptT ε (Program Op Ans) α}
    {f : α → ExceptT ε (Program Op Ans) β} {Q : β → σ → Prop} :
    wpx handle I Q E (p >>= f) s ↔ wpx handle I (fun a s => wpx handle I Q E (f a) s) E p s := by
  unfold wpx
  rw [ExceptT.run_bind, wp_bind]
  refine wp_congr fun r s => ?_
  cases r with
  | ok a => exact Iff.rfl
  | error e => exact Iff.rfl

/-- A check of an answer. -/
@[simp] theorem wpx_check {f : β → Except ε α} {p : Program Op Ans β} :
    wpx handle I Q E (check f p) s ↔ wp handle I (fun b => ends Q E (f b)) p s := by
  unfold wpx check
  rw [ExceptT.run_mk, wp_bind]
  rfl

/-- The failure of a call, under another name. -/
@[simp] theorem wpx_orFail {f : ε → ε'} {p : Program Op Ans (Except ε α)} {E : ε' → σ → Prop} :
    wpx handle I Q E (orFail f p) s ↔ wp handle I (ends Q fun e => E (f e)) p s := by
  unfold orFail
  rw [wpx_check]
  refine wp_congr fun r s => ?_
  cases r with
  | ok a => exact Iff.rfl
  | error e => exact Iff.rfl

/-- A condition that is required. -/
theorem wpx_require {condition : Bool} {e : ε} {Q : Unit → σ → Prop}
    (hQ : condition = true → Q () s) (hE : condition = false → E e s) :
    wpx handle I Q E (require condition e : ExceptT ε (Program Op Ans) Unit) s := by
  cases condition with
  | true => exact hQ rfl
  | false => exact hE rfl

/-- A program that may fail, as a program whose answer says so. -/
theorem wp_run {p : ExceptT ε (Program Op Ans) α} {R : Except ε α → σ → Prop}
    (h : wpx handle I (fun a => R (.ok a)) (fun e => R (.error e)) p s) :
    wp handle I R p.run s := by
  refine wp_mono h fun r s hr => ?_
  cases r with
  | ok a => exact hr
  | error e => exact hr

end Fallible

/-! ## Whatever the answers are -/

/-- Whatever the program is answered, it makes calls of `P` only and its end
satisfies `Q`. -/
def Always (P : Op → Prop) (Q : α → Prop) : Program Op Ans α → Prop
  | .done a => Q a
  | .call op k => P op ∧ ∀ answer, Always P Q (k answer)

section Always

variable {P : Op → Prop} {Q Q' : α → Prop}

/-- A call is allowed. -/
@[simp] theorem always_perform {op : Op} {Q : Ans op → Prop} :
    Always P Q (perform op) ↔ P op ∧ ∀ answer, Q answer :=
  Iff.rfl

/-- Every call of both programs is allowed. -/
@[simp] theorem always_bind {f : α → Program Op Ans β} {Q : β → Prop} :
    Always P Q (p >>= f) ↔ Always P (fun a => Always P Q (f a)) p := by
  induction p with
  | done a => exact Iff.rfl
  | call op k ih => exact and_congr_right fun _ => forall_congr' fun answer => ih answer

/-- A weaker claim on the result. -/
theorem Always.mono (h : Always P Q p) (hQ : ∀ a, Q a → Q' a) :
    Always P Q' p := by
  induction p with
  | done a => exact hQ a h
  | call op k ih => exact ⟨h.1, fun answer => ih answer (h.2 answer)⟩

/-- Whatever a program that may fail is answered, it makes calls of `P` only,
and if it does not fail its result satisfies `R`. -/
def Uses (P : Op → Prop) (R : α → Prop) (p : ExceptT ε (Program Op Ans) α) : Prop :=
  Always P (fun result => ∀ a, result = .ok a → R a) p.run

/-- No result is excluded. -/
def anyResult (_ : α) : Prop :=
  True

variable {R : α → Prop}

/-- A failure makes no call. -/
theorem uses_throw (e : ε) : Uses P R (throw e : ExceptT ε (Program Op Ans) α) := by
  intro b hb
  cases hb

/-- A condition makes no call. -/
theorem uses_require (condition : Bool) (e : ε) :
    Uses P anyResult (require condition e : ExceptT ε (Program Op Ans) Unit) := by
  cases condition with
  | true => exact fun _ _ => trivial
  | false => exact fun _ _ => trivial

/-- The calls of both programs. -/
theorem Uses.bind {p : ExceptT ε (Program Op Ans) α} {f : α → ExceptT ε (Program Op Ans) β}
    {Q : β → Prop} (h : Uses P R p) (hf : ∀ a, R a → Uses P Q (f a)) : Uses P Q (p >>= f) := by
  unfold Uses
  rw [ExceptT.run_bind, always_bind]
  refine Always.mono h fun r hr => ?_
  cases r with
  | ok a => exact hf a (hr a rfl)
  | error e => exact fun b hb => by cases hb

/-- A check makes no call of its own. -/
theorem uses_check {f : β → Except ε α} {p : Program Op Ans β} (h : Always P anyResult p) :
    Uses P anyResult (check f p) := by
  unfold Uses check
  rw [ExceptT.run_mk, always_bind]
  exact h.mono fun _ _ _ _ => trivial

/-- The calls, whatever the result. -/
theorem Uses.always {p : ExceptT ε (Program Op Ans) α} (h : Uses P R p) :
    Always P anyResult p.run :=
  Always.mono h fun _ _ => trivial

end Always

end Program

end Common
