import Mathlib.Data.List.Basic

/-! Code that returns a value, returns an error, or panics. Indexing and slicing
a list out of bounds panics, as does unwrapping an absent value; everything else
propagates. A loop over a list whose operation returns a value on every element
returns the list of the values. -/

namespace InfusedModbus.Foundation

/-- The three ways a computation can end. -/
inductive Outcome (ε α : Type) where
  | ok (value : α)
  | err (error : ε)
  | panic
  deriving DecidableEq, Repr

namespace Outcome

variable {ε δ α β γ : Type}

protected def bind : Outcome ε α → (α → Outcome ε β) → Outcome ε β
  | .ok a, f => f a
  | .err e, _ => .err e
  | .panic, _ => .panic

instance : Monad (Outcome ε) where
  pure := .ok
  bind := Outcome.bind

@[simp] theorem pure_eq (a : α) : (pure a : Outcome ε α) = .ok a := rfl

@[simp] theorem ok_bind (a : α) (f : α → Outcome ε β) : (Outcome.ok a >>= f) = f a := rfl

@[simp] theorem err_bind (e : ε) (f : α → Outcome ε β) : (Outcome.err e >>= f) = .err e := rfl

@[simp] theorem panic_bind (f : α → Outcome ε β) : (Outcome.panic >>= f) = .panic := rfl

theorem bind_eq_ok {x : Outcome ε α} {f : α → Outcome ε β} {b : β} :
    (x >>= f) = .ok b ↔ ∃ a, x = .ok a ∧ f a = .ok b := by
  cases x <;> simp

/-- Two continuations are as good as each other if they agree on the value, where there is one. -/
theorem bind_congr_ok {x : Outcome ε α} {f g : α → Outcome ε β} (h : ∀ a, x = .ok a → f a = g a) :
    (x >>= f) = x >>= g := by
  cases x with
  | ok a => exact h a rfl
  | err e => rfl
  | panic => rfl

theorem bind_ne_panic {x : Outcome ε α} {f : α → Outcome ε β} (hx : x ≠ .panic)
    (hf : ∀ a, x = .ok a → f a ≠ .panic) : (x >>= f) ≠ .panic := by
  cases x with
  | ok a => exact hf a rfl
  | err e => simp
  | panic => exact absurd rfl hx

protected theorem bind_assoc (x : Outcome ε α) (f : α → Outcome ε β) (g : β → Outcome ε γ) :
    ((x >>= f) >>= g) = x >>= fun a => f a >>= g := by
  cases x <;> rfl

theorem ite_bind {p : Prop} [Decidable p] (x y : Outcome ε α) (f : α → Outcome ε β) :
    ((if p then x else y) >>= f) = if p then x >>= f else y >>= f := by
  split <;> rfl

/-- Apply a function to the value. -/
protected def map (f : α → β) : Outcome ε α → Outcome ε β
  | .ok a => .ok (f a)
  | .err e => .err e
  | .panic => .panic

@[simp] theorem map_ok (f : α → β) (a : α) : (Outcome.ok a : Outcome ε α).map f = .ok (f a) := rfl

@[simp] theorem map_err (f : α → β) (e : ε) : (Outcome.err e : Outcome ε α).map f = .err e := rfl

@[simp] theorem map_panic (f : α → β) : (Outcome.panic : Outcome ε α).map f = .panic := rfl

theorem map_eq_ok {x : Outcome ε α} {f : α → β} {b : β} :
    x.map f = .ok b ↔ ∃ a, x = .ok a ∧ f a = b := by
  cases x <;> simp

theorem map_eq_err {x : Outcome ε α} {f : α → β} {e : ε} : x.map f = .err e ↔ x = .err e := by
  cases x <;> simp

theorem map_id_fun (x : Outcome ε α) : (x.map fun a => a) = x := by
  cases x <;> rfl

theorem map_ne_panic {x : Outcome ε α} {f : α → β} : x.map f ≠ .panic ↔ x ≠ .panic := by
  cases x <;> simp

/-- Apply a function to the error. -/
def mapErr (f : ε → δ) : Outcome ε α → Outcome δ α
  | .ok a => .ok a
  | .err e => .err (f e)
  | .panic => .panic

@[simp] theorem mapErr_ok (f : ε → δ) (a : α) : (Outcome.ok a : Outcome ε α).mapErr f = .ok a := rfl

@[simp] theorem mapErr_err (f : ε → δ) (e : ε) : (Outcome.err e : Outcome ε α).mapErr f = .err (f e) := rfl

@[simp] theorem mapErr_panic (f : ε → δ) : (Outcome.panic : Outcome ε α).mapErr f = .panic := rfl

theorem mapErr_ne_panic {x : Outcome ε α} {f : ε → δ} : x.mapErr f ≠ .panic ↔ x ≠ .panic := by
  cases x <;> simp

theorem mapErr_eq_ok {x : Outcome ε α} {f : ε → δ} {a : α} : x.mapErr f = .ok a ↔ x = .ok a := by
  cases x <;> simp

theorem mapErr_bind (x : Outcome ε α) (f : α → Outcome ε β) (g : ε → δ) :
    (x >>= f).mapErr g = x.mapErr g >>= fun a => (f a).mapErr g := by
  cases x <;> rfl

theorem mapErr_ite {p : Prop} [Decidable p] (x y : Outcome ε α) (f : ε → δ) :
    (if p then x else y).mapErr f = if p then x.mapErr f else y.mapErr f := by
  split <;> rfl

theorem map_ite {p : Prop} [Decidable p] (x y : Outcome ε α) (f : α → β) :
    (if p then x else y).map f = if p then x.map f else y.map f := by
  split <;> rfl

protected theorem map_bind (x : Outcome ε α) (f : α → Outcome ε β) (g : β → γ) :
    (x >>= f).map g = x >>= fun a => (f a).map g := by
  cases x <;> rfl

theorem mapErr_map (x : Outcome ε α) (f : α → β) (g : ε → δ) :
    (x.map f).mapErr g = (x.mapErr g).map f := by
  cases x <;> rfl

theorem map_map (x : Outcome ε α) (f : α → β) (g : β → γ) : (x.map f).map g = x.map fun a => g (f a) := by
  cases x <;> rfl

/-- Unwrap a value that is claimed to be present. -/
def expect : Option α → Outcome ε α
  | some a => .ok a
  | none => .panic

@[simp] theorem expect_some (a : α) : (expect (some a) : Outcome ε α) = .ok a := rfl

@[simp] theorem expect_none : (expect none : Outcome ε α) = .panic := rfl

/-- Go on with the value; on an error of any kind return `rejected` instead. -/
def letOk (x : Outcome ε α) (rejected : Outcome δ β) (f : α → Outcome δ β) : Outcome δ β :=
  match x with
  | .ok a => f a
  | .err _ => rejected
  | .panic => .panic

@[simp] theorem letOk_ok (a : α) (rejected : Outcome δ β) (f : α → Outcome δ β) :
    letOk (.ok a : Outcome ε α) rejected f = f a := rfl

@[simp] theorem letOk_err (e : ε) (rejected : Outcome δ β) (f : α → Outcome δ β) :
    letOk (.err e : Outcome ε α) rejected f = rejected := rfl

/-- Unwrap a value that is claimed not to be an error. -/
def unwrap (x : Outcome ε α) : Outcome δ α :=
  match x with
  | .ok a => .ok a
  | .err _ => .panic
  | .panic => .panic

@[simp] theorem unwrap_ok (a : α) : (unwrap (.ok a : Outcome ε α) : Outcome δ α) = .ok a := rfl

@[simp] theorem unwrap_err (e : ε) : (unwrap (.err e : Outcome ε α) : Outcome δ α) = .panic := rfl

/-! ### Indexing and slicing -/

/-- `xs[i]`, panicking out of bounds. -/
def index (xs : List α) (i : ℕ) : Outcome ε α :=
  expect xs[i]?

@[simp] theorem index_cons_zero (x : α) (xs : List α) : (index (x :: xs) 0 : Outcome ε α) = .ok x := rfl

@[simp] theorem index_cons_succ (x : α) (xs : List α) (i : ℕ) :
    (index (x :: xs) (i + 1) : Outcome ε α) = index xs i := by
  simp [index]

@[simp] theorem mapErr_index (xs : List α) (i : ℕ) (f : ε → δ) :
    (index xs i : Outcome ε α).mapErr f = index xs i := by
  rw [index, index]
  cases xs[i]? <;> rfl

theorem index_of_lt {xs : List α} {i : ℕ} (h : i < xs.length) :
    (index xs i : Outcome ε α) = .ok xs[i] := by
  simp [index, h]

theorem index_eq_getD {xs : List α} {i : ℕ} (h : i < xs.length) (d : α) :
    (index xs i : Outcome ε α) = .ok (xs.getD i d) := by
  rw [index_of_lt h]
  simp [h]

/-- Indexing past an offset is indexing what is left there. -/
theorem index_add (xs : List α) (i j : ℕ) : (index xs (i + j) : Outcome ε α) = index (xs.drop i) j := by
  simp [index]

theorem index_of_drop {xs : List α} {x : α} {rest : List α} {i : ℕ} (h : xs.drop i = x :: rest) :
    (index xs i : Outcome ε α) = .ok x := by
  rw [← Nat.add_zero i, index_add, h, index_cons_zero]

/-- `xs[lo..hi]`, panicking out of bounds. -/
def slice (xs : List α) (lo hi : ℕ) : Outcome ε (List α) :=
  if lo ≤ hi ∧ hi ≤ xs.length then .ok ((xs.drop lo).take (hi - lo)) else .panic

@[simp] theorem mapErr_slice (xs : List α) (lo hi : ℕ) (f : ε → δ) :
    (slice xs lo hi : Outcome ε (List α)).mapErr f = slice xs lo hi := by
  rw [slice, slice]
  split <;> rfl

theorem slice_of_le {xs : List α} {lo hi : ℕ} (h : lo ≤ hi) (h' : hi ≤ xs.length) :
    (slice xs lo hi : Outcome ε (List α)) = .ok ((xs.drop lo).take (hi - lo)) := by
  simp [slice, h, h']

theorem slice_append (xs ys : List α) {n : ℕ} (hn : n = xs.length) :
    (slice (xs ++ ys) 0 n : Outcome ε (List α)) = .ok xs := by
  subst hn
  rw [slice_of_le (by omega) (by simp)]
  simp

@[simp] theorem slice_cons_succ (x : α) (xs : List α) (lo hi : ℕ) :
    (slice (x :: xs) (lo + 1) (hi + 1) : Outcome ε (List α)) = slice xs lo hi := by
  simp [slice]

/-- Slicing past an offset is slicing what is left there. -/
theorem slice_add {xs : List α} {i : ℕ} (h : i ≤ xs.length) (lo hi : ℕ) :
    (slice xs (i + lo) (i + hi) : Outcome ε (List α)) = slice (xs.drop i) lo hi := by
  have hbound : i + hi ≤ xs.length ↔ hi ≤ xs.length - i := by omega
  simp [slice, hbound, Nat.add_sub_add_left]

/-! ### Loops over a list -/

theorem mapM_of_forall_ok {f : α → Outcome ε β} {g : α → β} {xs : List α}
    (h : ∀ x ∈ xs, f x = .ok (g x)) : xs.mapM' f = .ok (xs.map g) := by
  induction xs with
  | nil => rfl
  | cons x xs ih =>
    have hx := h x (by simp)
    have hxs := ih (fun y hy => h y (by simp [hy]))
    simp [List.mapM'_cons, hx, hxs]

/-- A loop with a state over two lists is the loop over the second from where the first ends. -/
theorem foldlM_append (f : β → α → Outcome ε β) (b : β) (xs ys : List α) :
    (xs ++ ys).foldlM f b = xs.foldlM f b >>= fun b => ys.foldlM f b := by
  induction xs generalizing b with
  | nil => rfl
  | cons x xs ih =>
    rw [List.cons_append, List.foldlM_cons, List.foldlM_cons, Outcome.bind_assoc]
    congr 1
    funext b
    exact ih b

theorem mapM_map (f : β → Outcome ε γ) (g : α → β) (xs : List α) :
    (xs.map g).mapM' f = xs.mapM' fun x => f (g x) := by
  induction xs with
  | nil => rfl
  | cons x xs ih => rw [List.map_cons, List.mapM'_cons, List.mapM'_cons, ih]

/-- A loop over all indices of a list that looks each element up sees the list. -/
theorem mapM_range_of_forall_ok {f : ℕ → Outcome ε α} {xs : List α}
    (h : ∀ i (hi : i < xs.length), f i = .ok xs[i]) : (List.range xs.length).mapM' f = .ok xs := by
  induction xs generalizing f with
  | nil => rfl
  | cons x xs ih =>
    have hhead := h 0 (by simp)
    have htail := ih (f := fun i => f (i + 1)) fun i hi => h (i + 1) (by simpa using hi)
    rw [List.length_cons, List.range_succ_eq_map, List.mapM'_cons, mapM_map, hhead, ok_bind, htail]
    rfl

end Outcome

end InfusedModbus.Foundation
