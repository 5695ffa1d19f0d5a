import InfusedModbus.Foundation.Outcome

/-! A buffer read field by field into an accumulator. A reader takes the accumulator and
what is left of the buffer, and says what the next field makes of the accumulator and how
many cells it took. A piece that is read as one field whatever stands behind it acts on
the accumulator by an effect; pieces one behind the other act one after another, also when
pieces without an effect stand between them. -/

namespace InfusedModbus.Foundation

open Outcome

variable {ε σ α φ β : Type}

/-- A reader takes at least one cell. -/
structure FieldReader (ε σ α : Type) where
  read : σ → List α → Outcome ε (σ × ℕ)
  forward : ∀ {s cells s' n}, read s cells = .ok (s', n) → 0 < n

/-- Read fields until the buffer is used up. -/
def readFields (reader : FieldReader ε σ α) (cells : List α) (s : σ) : Outcome ε σ :=
  if cells = [] then .ok s
  else
    match _ : reader.read s cells with
    | .ok (s', n) => readFields reader (cells.drop n) s'
    | .err e => .err e
    | .panic => .panic
termination_by cells.length
decreasing_by
  have := List.length_pos_of_ne_nil ‹_›
  have := reader.forward ‹_›
  rw [List.length_drop]
  omega

variable {reader : FieldReader ε σ α}

@[simp] theorem readFields_nil (s : σ) : readFields reader [] s = .ok s := by
  rw [readFields, if_pos rfl]

theorem readFields_of_ne_nil {cells : List α} (h : cells ≠ []) (s : σ) :
    readFields reader cells s = reader.read s cells >>= fun p => readFields reader (cells.drop p.2) p.1 := by
  rw [readFields, if_neg h]
  split <;> next hread => rw [hread]; rfl

/-- What every field keeps holds at the end. -/
theorem readFields_invariant {inv : σ → Prop}
    (hread : ∀ {s cells s' n}, inv s → reader.read s cells = .ok (s', n) → inv s') {cells : List α} {s s' : σ}
    (h : inv s) (hok : readFields reader cells s = .ok s') : inv s' := by
  induction hn : cells.length using Nat.strongRecOn generalizing cells s with
  | ind n ih =>
    by_cases hnil : cells = []
    · rw [hnil, readFields_nil] at hok
      obtain rfl := ok.inj hok
      exact h
    · rw [readFields_of_ne_nil hnil] at hok
      obtain ⟨⟨next, taken⟩, hturn, hok⟩ := bind_eq_ok.mp hok
      have hpos := reader.forward hturn
      have hlength := List.length_pos_of_ne_nil hnil
      exact ih _ (by rw [← hn, List.length_drop]; omega) (hread h hturn) hok rfl

/-! ### Pieces -/

/-- In front of any cells, these are read as one field with this effect. -/
structure ReadsAs (reader : FieldReader ε σ α) (piece : List α) (effect : σ → Outcome ε σ) : Prop where
  ne_nil : piece ≠ []
  read_append : ∀ s rest, reader.read s (piece ++ rest) = (effect s).map fun s' => (s', piece.length)

theorem readFields_append {piece : List α} {effect : σ → Outcome ε σ} (h : ReadsAs reader piece effect)
    (rest : List α) (s : σ) :
    readFields reader (piece ++ rest) s = effect s >>= readFields reader rest := by
  rw [readFields_of_ne_nil (List.append_ne_nil_of_left_ne_nil h.ne_nil rest), h.read_append]
  cases effect s with
  | ok s' =>
    rw [map_ok, ok_bind, ok_bind, List.drop_left]
  | err e => rfl
  | panic => rfl

/-- Pieces one behind the other, with filler anywhere between them. -/
inductive Interspersed (filler : List α → Prop) : List (List α) → List α → Prop where
  | nil : Interspersed filler [] []
  | piece {piece cells : List α} {pieces : List (List α)} (h : Interspersed filler pieces cells) :
      Interspersed filler (piece :: pieces) (piece ++ cells)
  | filler {passed cells : List α} {pieces : List (List α)} (hfiller : filler passed)
      (h : Interspersed filler pieces cells) : Interspersed filler pieces (passed ++ cells)

namespace Interspersed

variable {filler : List α → Prop} {pieces : List (List α)} {cells : List α}

/-- There may be no filler. -/
theorem flatten (pieces : List (List α)) : Interspersed filler pieces pieces.flatten := by
  induction pieces with
  | nil => exact .nil
  | cons piece pieces ih => exact .piece ih

/-- One filler between two pieces. -/
theorem insert (before after : List (List α)) {passed : List α} (h : filler passed) :
    Interspersed filler (before ++ after) (before.flatten ++ (passed ++ after.flatten)) := by
  induction before with
  | nil =>
    rw [List.nil_append, List.flatten_nil, List.nil_append]
    exact .filler h (.flatten after)
  | cons piece before ih =>
    rw [List.cons_append, List.flatten_cons, List.append_assoc]
    exact .piece ih

theorem length_le (h : Interspersed filler pieces cells) : ∀ piece ∈ pieces, piece.length ≤ cells.length := by
  induction h with
  | nil => simp
  | piece _ ih =>
    rw [List.forall_mem_cons, List.length_append]
    exact ⟨by omega, fun piece hpiece => Nat.le_trans (ih piece hpiece) (Nat.le_add_left _ _)⟩
  | filler _ _ ih =>
    rw [List.length_append]
    exact fun piece hpiece => Nat.le_trans (ih piece hpiece) (Nat.le_add_left _ _)

end Interspersed

/-- A piece and its effect. -/
abbrev Part (ε σ α : Type) := List α × (σ → Outcome ε σ)

/-- The effects of parts, one after another. -/
def applyParts (parts : List (Part ε σ α)) (s : σ) : Outcome ε σ := parts.foldlM (fun s part => part.2 s) s

/-- Pieces act one after another, and filler that leaves the accumulator as it is does not
matter. -/
theorem readFields_interspersed {filler : List α → Prop} (parts : List (Part ε σ α)) {cells : List α}
    (h : Interspersed filler (parts.map Prod.fst) cells)
    (hfiller : ∀ passed, filler passed → passed.length ≤ cells.length → ReadsAs reader passed .ok)
    (hparts : ∀ part ∈ parts, part.1.length ≤ cells.length → ReadsAs reader part.1 part.2) (s : σ) :
    readFields reader cells s = applyParts parts s := by
  generalize hpieces : parts.map Prod.fst = pieces at h
  induction h generalizing parts s with
  | nil =>
    obtain rfl := List.map_eq_nil_iff.mp hpieces
    exact readFields_nil s
  | @piece piece cells pieces _ ih =>
    obtain ⟨part, rest, rfl, rfl, rfl⟩ := List.map_eq_cons_iff.mp hpieces
    rw [List.length_append] at hfiller hparts
    rw [readFields_append (hparts part List.mem_cons_self (by omega)), applyParts, List.foldlM_cons]
    exact congrArg _ (funext fun s' => ih rest (fun passed hpassed hle => hfiller passed hpassed (by omega))
      (fun part hpart hle => hparts part (List.mem_cons_of_mem _ hpart) (by omega)) s' rfl)
  | @filler passed cells pieces hpassed _ ih =>
    rw [List.length_append] at hfiller hparts
    rw [readFields_append (hfiller passed hpassed (by omega)), ok_bind]
    exact ih parts (fun passed hpassed hle => hfiller passed hpassed (by omega))
      (fun part hpart hle => hparts part hpart (by omega)) s hpieces

/-! ### Effects one after another -/

@[simp] theorem applyParts_nil (s : σ) : applyParts ([] : List (Part ε σ α)) s = .ok s := rfl

@[simp] theorem applyParts_cons (part : Part ε σ α) (parts : List (Part ε σ α)) (s : σ) :
    applyParts (part :: parts) s = part.2 s >>= applyParts parts := rfl

theorem applyParts_append (parts parts' : List (Part ε σ α)) (s : σ) :
    applyParts (parts ++ parts') s = applyParts parts s >>= applyParts parts' :=
  Outcome.foldlM_append _ s parts parts'

/-- Effects that push what a decoder makes of each field collect what it makes of all. -/
theorem applyParts_push (encode : φ → List α) (decode : φ → Outcome ε β) (push : σ → β → σ) (fields : List φ) (s : σ) :
    applyParts (fields.map fun f => (encode f, fun s => (decode f).map (push s))) s =
      (fields.mapM' decode).map fun bs => bs.foldl push s := by
  induction fields generalizing s with
  | nil => rfl
  | cons f fields ih =>
    rw [List.map_cons, applyParts_cons, List.mapM'_cons]
    dsimp only
    cases decode f with
    | ok b =>
      rw [map_ok, ok_bind, ok_bind, ih]
      cases fields.mapM' decode <;> rfl
    | err e => rfl
    | panic => rfl

/-- Effects that push what the fields are collect them. -/
theorem applyParts_pushAll (encode : φ → List α) (push : σ → φ → σ) (fields : List φ) (s : σ) :
    applyParts (fields.map fun f => (encode f, fun s => .ok (push s f))) s = (.ok (fields.foldl push s) : Outcome ε σ) := by
  induction fields generalizing s with
  | nil => rfl
  | cons f fields ih => rw [List.map_cons, applyParts_cons, ok_bind, ih, List.foldl_cons]

theorem foldl_push (mk : List β → σ) {push : σ → β → σ} (h : ∀ bs b, push (mk bs) b = mk (bs ++ [b]))
    (bs bs' : List β) : bs'.foldl push (mk bs) = mk (bs ++ bs') := by
  induction bs' generalizing bs with
  | nil => rw [List.append_nil, List.foldl_nil]
  | cons b bs' ih => rw [List.foldl_cons, h, ih, List.append_assoc, List.singleton_append]

/-- A list decoded element by element. -/
theorem mapM_of_forall₂ {decode : φ → Outcome ε β} {fields : List φ} {values : List β} {written : β → φ → Prop}
    (h : List.Forall₂ written values fields) (hdecode : ∀ v, ∀ f ∈ fields, written v f → decode f = .ok v) :
    fields.mapM' decode = .ok values := by
  induction h with
  | nil => rfl
  | cons hhead _ ih =>
    rw [List.mapM'_cons, hdecode _ _ List.mem_cons_self hhead, ok_bind,
      ih fun v f hf => hdecode v f (List.mem_cons_of_mem _ hf), ok_bind, pure_eq]

/-! ### Any cells -/

theorem readFields_ne_panic (hread : ∀ s cells, reader.read s cells ≠ .panic) (cells : List α) (s : σ) :
    readFields reader cells s ≠ .panic := by
  induction hn : cells.length using Nat.strongRecOn generalizing cells s with
  | ind n ih =>
    by_cases hnil : cells = []
    · simp [hnil]
    · rw [readFields_of_ne_nil hnil]
      refine bind_ne_panic (hread s cells) fun p hp => ?_
      have hpos := reader.forward hp
      have hlength := List.length_pos_of_ne_nil hnil
      exact ih _ (by rw [← hn, List.length_drop]; omega) _ _ rfl

end InfusedModbus.Foundation
