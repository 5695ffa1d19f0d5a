import InfusedModbus.Foundation.Outcome
import InfusedModbus.Foundation.Tiling

/-! Items that stand one behind the other in a buffer. A reader takes the item at an
offset and says where it ends. One kind of loop reads while the offset is below a
limit, another reads a number of items. A reader that moves forward within the buffer
makes both end; the first stops at the limit exactly when the sizes that the items
state for themselves tile the cells up to it, and behind the limit otherwise. -/

namespace InfusedModbus.Foundation

open Outcome

variable {ε α β : Type}

/-! ### The cells behind an offset -/

theorem drop_of_index {cells : List α} {a : α} {i : ℕ} (h : (index cells i : Outcome ε α) = .ok a) :
    cells.drop i = a :: cells.drop (i + 1) := by
  rw [index] at h
  cases ha : cells[i]? with
  | none => simp [ha] at h
  | some b =>
    obtain rfl : b = a := by simpa [ha] using h
    obtain ⟨hlt, hb⟩ := List.getElem?_eq_some_iff.mp ha
    rw [List.drop_eq_getElem_cons hlt, hb]

theorem drop_of_slice {cells part : List α} {i j : ℕ} (h : (slice cells i j : Outcome ε (List α)) = .ok part) :
    part.length = j - i ∧ cells.drop i = part ++ cells.drop j := by
  unfold slice at h
  split at h
  · next hle =>
    obtain rfl := ok.inj h
    constructor
    · rw [List.length_take, List.length_drop]
      omega
    · conv_lhs => rw [← List.take_append_drop (j - i) (cells.drop i), List.drop_drop, Nat.add_sub_cancel' hle.1]
  · cases h

/-! ### Readers -/

/-- What stands at an offset, and the offset behind it. -/
abbrev Reader (ε α : Type) := ℕ → Outcome ε (α × ℕ)

/-- The reader moves strictly forward and stays within the first `size` cells. -/
structure Advances (read : Reader ε α) (size : ℕ) : Prop where
  lt : ∀ {offset a next}, read offset = .ok (a, next) → offset < next
  le : ∀ {offset a next}, read offset = .ok (a, next) → next ≤ size

/-- The loop that reads items while the offset is below the limit. -/
def ReadsWhile (read : Reader ε α) (limit : ℕ) (items : ℕ → Outcome ε (List α)) : Prop :=
  ∀ offset, items offset =
    if offset < limit then read offset >>= fun p => items p.2 >>= fun rest => pure (p.1 :: rest)
    else pure []

/-- The loop that reads a number of items. -/
structure ReadsTimes (read : Reader ε α) (items : ℕ → ℕ → Outcome ε (List α)) : Prop where
  zero : ∀ offset, items 0 offset = pure []
  succ : ∀ n offset, items (n + 1) offset =
    read offset >>= fun p => items n p.2 >>= fun rest => pure (p.1 :: rest)

/-- The items read from an offset on while it is below the limit, and where the last one ends. -/
inductive ReadsTo (read : Reader ε α) (limit : ℕ) : ℕ → List α → ℕ → Prop where
  | done {offset : ℕ} (h : limit ≤ offset) : ReadsTo read limit offset [] offset
  | next {offset next stop : ℕ} {a : α} {rest : List α} (hlt : offset < limit)
      (hread : read offset = .ok (a, next)) (hrest : ReadsTo read limit next rest stop) :
      ReadsTo read limit offset (a :: rest) stop

variable {read : Reader ε α} {limit offset stop : ℕ} {items : ℕ → Outcome ε (List α)} {xs : List α}

/-- What the loop returns was read item by item. -/
theorem ReadsWhile.exists_stop {size : ℕ} (h : ReadsWhile read limit items) (hread : Advances read size)
    (hok : items offset = .ok xs) : ∃ stop, ReadsTo read limit offset xs stop := by
  induction hn : limit - offset using Nat.strong_induction_on generalizing offset xs with
  | h n ih =>
    rw [h] at hok
    split at hok
    · next hlt =>
      obtain ⟨⟨a, next⟩, ha, hok⟩ := bind_eq_ok.mp hok
      obtain ⟨rest, hrest, hok⟩ := bind_eq_ok.mp hok
      obtain rfl := ok.inj hok
      have hforward := hread.lt ha
      obtain ⟨stop, hstop⟩ := ih (limit - next) (by omega) hrest rfl
      exact ⟨stop, .next hlt ha hstop⟩
    · next hge =>
      obtain rfl := ok.inj hok
      exact ⟨offset, .done (by omega)⟩

namespace ReadsTo

theorem le_stop (h : ReadsTo read limit offset xs stop) : limit ≤ stop := by
  induction h with
  | done h => exact h
  | next _ _ _ ih => exact ih

theorem offset_le {size : ℕ} (hread : Advances read size) (h : ReadsTo read limit offset xs stop) : offset ≤ stop := by
  induction h with
  | done _ => exact le_rfl
  | next _ ha _ ih => exact (hread.lt ha).le.trans ih

theorem stop_le {size : ℕ} (hread : Advances read size) (h : ReadsTo read limit offset xs stop) (hle : offset ≤ size) :
    stop ≤ size := by
  induction h with
  | done _ => exact hle
  | next _ ha _ ih => exact ih (hread.le ha)

theorem forall_mem {p : α → Prop} (hp : ∀ {offset a next}, read offset = .ok (a, next) → p a)
    (h : ReadsTo read limit offset xs stop) : ∀ a ∈ xs, p a := by
  induction h with
  | done _ => simp
  | next _ ha _ ih => exact List.forall_mem_cons.mpr ⟨hp ha, ih⟩

/-- The cells from the start to the stop are the encodings of the items. -/
theorem drop_eq {cells : List β} {encode : α → List β}
    (hencode : ∀ {offset a next}, read offset = .ok (a, next) → cells.drop offset = encode a ++ cells.drop next)
    (h : ReadsTo read limit offset xs stop) : cells.drop offset = xs.flatMap encode ++ cells.drop stop := by
  induction h with
  | done _ => rfl
  | next _ ha _ ih => rw [hencode ha, ih, List.flatMap_cons, List.append_assoc]

/-- The last item ends at the limit exactly when the stated sizes tile the cells up to it. -/
theorem stop_eq_iff {size : ℕ} {stated : ℕ → Option ℕ} (hread : Advances read size)
    (hstated : ∀ {offset a next}, read offset = .ok (a, next) → stated offset = some (next - offset))
    (h : ReadsTo read limit offset xs stop) (hle : offset ≤ limit) :
    stop = limit ↔ ∃ sizes, Tiles stated id (· + ·) offset (limit - offset) sizes := by
  induction h with
  | done hge => exact iff_of_true (by omega) ⟨[], by simp; omega⟩
  | @next offset next stop a rest hlt ha hrest ih =>
    have hforward := hread.lt ha
    rcases Nat.lt_or_ge limit next with hover | hwithin
    · -- the item crosses the limit: the loop is over behind it, and its size is too large for a tiling
      have hstop := hrest.offset_le hread
      refine iff_of_false (by omega) ?_
      rintro ⟨_ | ⟨n, sizes⟩, htiles⟩
      · have := tiles_nil.mp htiles
        omega
      · obtain ⟨hfind, hfit, _⟩ := tiles_cons.mp htiles
        obtain rfl := Option.some.inj ((hstated ha).symm.trans hfind)
        simp only [id_eq] at hfit
        omega
    · have hadd : offset + (next - offset) = next := by omega
      have hsub : limit - offset - (next - offset) = limit - next := by omega
      rw [ih hwithin]
      constructor
      · rintro ⟨sizes, htiles⟩
        refine ⟨(next - offset) :: sizes, tiles_cons.mpr ⟨hstated ha, by simp only [id_eq]; omega, ?_⟩⟩
        simpa only [id_eq, hadd, hsub] using htiles
      · rintro ⟨_ | ⟨n, sizes⟩, htiles⟩
        · have := tiles_nil.mp htiles
          omega
        · obtain ⟨hfind, _, htiles⟩ := tiles_cons.mp htiles
          obtain rfl := Option.some.inj ((hstated ha).symm.trans hfind)
          simp only [id_eq, hadd, hsub] at htiles
          exact ⟨sizes, htiles⟩

end ReadsTo

/-- The cells of a number of items are their encodings. -/
theorem ReadsTimes.drop_eq {items : ℕ → ℕ → Outcome ε (List α)} {cells : List β} {encode : α → List β}
    (h : ReadsTimes read items)
    (hencode : ∀ {offset a next}, read offset = .ok (a, next) → cells.drop offset = encode a ++ cells.drop next)
    {n : ℕ} (hok : items n offset = .ok xs) :
    xs.length = n ∧ ∃ stop, cells.drop offset = xs.flatMap encode ++ cells.drop stop := by
  induction n generalizing offset xs with
  | zero =>
    rw [h.zero] at hok
    obtain rfl := ok.inj hok
    exact ⟨rfl, offset, rfl⟩
  | succ n ih =>
    rw [h.succ] at hok
    obtain ⟨⟨a, next⟩, ha, hok⟩ := bind_eq_ok.mp hok
    obtain ⟨rest, hrest, hok⟩ := bind_eq_ok.mp hok
    obtain rfl := ok.inj hok
    obtain ⟨hlen, stop, hstop⟩ := ih hrest
    refine ⟨by rw [List.length_cons, hlen], stop, ?_⟩
    rw [hencode ha, hstop, List.flatMap_cons, List.append_assoc]

/-! ### Loops that fill a container -/

section Fold

variable {σ : Type} {push : σ → α → Outcome ε σ}

/-- The loop that reads items into a container while the offset is below the limit. -/
def FoldsWhile (read : Reader ε α) (push : σ → α → Outcome ε σ) (limit : ℕ) (fill : ℕ → σ → Outcome ε σ) : Prop :=
  ∀ offset s, fill offset s =
    if offset < limit then read offset >>= fun p => push s p.1 >>= fun s => fill p.2 s else pure s

/-- The loop that reads a number of items into a container. -/
structure FoldsTimes (read : Reader ε α) (push : σ → α → Outcome ε σ) (fill : ℕ → ℕ → σ → Outcome ε σ) : Prop where
  zero : ∀ offset s, fill 0 offset s = pure s
  succ : ∀ n offset s, fill (n + 1) offset s =
    read offset >>= fun p => push s p.1 >>= fun s => fill n p.2 s

theorem FoldsWhile.ne_panic {size : ℕ} {fill : ℕ → σ → Outcome ε σ} (h : FoldsWhile read push limit fill)
    (hread : Advances read size) (hne : ∀ offset, read offset ≠ .panic) (hpush : ∀ s a, push s a ≠ .panic)
    (offset : ℕ) (s : σ) : fill offset s ≠ .panic := by
  induction hn : limit - offset using Nat.strong_induction_on generalizing offset s with
  | h n ih =>
    rw [h]
    split
    · next hlt =>
      refine bind_ne_panic (hne offset) fun p hp => bind_ne_panic (hpush s p.1) fun s' _ => ?_
      have hforward : offset < p.2 := hread.lt hp
      exact ih _ (by omega) _ _ rfl
    · simp

theorem FoldsTimes.ne_panic {fill : ℕ → ℕ → σ → Outcome ε σ} (h : FoldsTimes read push fill)
    (hne : ∀ offset, read offset ≠ .panic) (hpush : ∀ s a, push s a ≠ .panic) (n offset : ℕ) (s : σ) :
    fill n offset s ≠ .panic := by
  induction n generalizing offset s with
  | zero => simp [h.zero]
  | succ n ih =>
    rw [h.succ]
    exact bind_ne_panic (hne offset) fun p _ => bind_ne_panic (hpush s p.1) fun s' _ => ih _ _

/-- With items of a fixed size it is enough that there is room for all of them. -/
theorem FoldsTimes.ne_panic_of_fixed {fill : ℕ → ℕ → σ → Outcome ε σ} (h : FoldsTimes read push fill) {size len : ℕ}
    (hne : ∀ offset, offset + size ≤ len → read offset ≠ .panic)
    (hsize : ∀ {offset a next}, read offset = .ok (a, next) → next = offset + size)
    (hpush : ∀ s a, push s a ≠ .panic) {n offset : ℕ} (hroom : offset + n * size ≤ len) (s : σ) :
    fill n offset s ≠ .panic := by
  induction n generalizing offset s with
  | zero => simp [h.zero]
  | succ n ih =>
    rw [Nat.succ_mul] at hroom
    rw [h.succ]
    refine bind_ne_panic (hne offset (by omega)) fun p hp => bind_ne_panic (hpush s p.1) fun s' _ => ?_
    have hnext : p.2 = offset + size := hsize hp
    exact ih (by omega) s'

end Fold

/-! ### The loops as programs -/

/-- The reader moves strictly forward. -/
def Forward (read : Reader ε α) : Prop := ∀ offset a next, read offset = .ok (a, next) → offset < next

def readWhile (read : Reader ε α) (h : Forward read) (limit offset : ℕ) : Outcome ε (List α) :=
  if offset < limit then
    match _hread : read offset with
    | .ok (a, next) => readWhile read h limit next >>= fun rest => pure (a :: rest)
    | .err e => .err e
    | .panic => .panic
  else pure []
termination_by limit - offset
decreasing_by
  have hforward := h _ _ _ _hread
  omega

def readTimes (read : Reader ε α) : ℕ → ℕ → Outcome ε (List α)
  | 0, _ => pure []
  | n + 1, offset => read offset >>= fun p => readTimes read n p.2 >>= fun rest => pure (p.1 :: rest)

section Programs

variable {σ : Type} {push : σ → α → Outcome ε σ}

def foldWhile (read : Reader ε α) (h : Forward read) (push : σ → α → Outcome ε σ) (limit offset : ℕ) (s : σ) :
    Outcome ε σ :=
  if offset < limit then
    match _hread : read offset with
    | .ok (a, next) => push s a >>= fun s => foldWhile read h push limit next s
    | .err e => .err e
    | .panic => .panic
  else pure s
termination_by limit - offset
decreasing_by
  have hforward := h _ _ _ _hread
  omega

def foldTimes (read : Reader ε α) (push : σ → α → Outcome ε σ) : ℕ → ℕ → σ → Outcome ε σ
  | 0, _, s => pure s
  | n + 1, offset, s => read offset >>= fun p => push s p.1 >>= fun s => foldTimes read push n p.2 s

theorem readsWhile_readWhile (h : Forward read) (limit : ℕ) : ReadsWhile read limit (readWhile read h limit) := by
  intro offset
  rw [readWhile]
  split
  · split <;> next hread => rw [hread]; rfl
  · rfl

theorem foldsWhile_foldWhile (h : Forward read) (limit : ℕ) :
    FoldsWhile read push limit (foldWhile read h push limit) := by
  intro offset s
  rw [foldWhile]
  split
  · split <;> next hread => rw [hread]; rfl
  · rfl

theorem readsTimes_readTimes : ReadsTimes read (readTimes read) := ⟨fun _ => rfl, fun _ _ => rfl⟩

theorem foldsTimes_foldTimes : FoldsTimes read push (foldTimes read push) := ⟨fun _ _ => rfl, fun _ _ _ => rfl⟩

/-! ### Loops that take the same turns -/

variable {read' : Reader ε α} {push' : σ → α → Outcome ε σ} {size : ℕ}

/-- Where two readers agree as far as the first one gets, so do their loops. -/
theorem ReadsWhile.congr {items' : ℕ → Outcome ε (List α)} (h : ReadsWhile read limit items)
    (h' : ReadsWhile read' limit items') (hread : Advances read size)
    (hsame : ∀ offset ≤ size, read' offset = read offset) (hoffset : offset ≤ size) : items' offset = items offset := by
  induction hn : limit - offset using Nat.strong_induction_on generalizing offset with
  | h n ih =>
    rw [h, h', hsame offset hoffset]
    split
    · cases hturn : read offset with
      | ok p =>
        have hforward : offset < p.2 := hread.lt hturn
        rw [ok_bind, ok_bind, ih _ (by omega) (hread.le hturn) rfl]
      | err e => rfl
      | panic => rfl
    · rfl

theorem ReadsTimes.congr {items items' : ℕ → ℕ → Outcome ε (List α)} (h : ReadsTimes read items)
    (h' : ReadsTimes read' items') (hread : Advances read size)
    (hsame : ∀ offset ≤ size, read' offset = read offset) (n : ℕ) (hoffset : offset ≤ size) :
    items' n offset = items n offset := by
  induction n generalizing offset with
  | zero => rw [h.zero, h'.zero]
  | succ n ih =>
    rw [h.succ, h'.succ, hsame offset hoffset]
    cases hturn : read offset with
    | ok p => rw [ok_bind, ok_bind, ih (hread.le hturn)]
    | err e => rfl
    | panic => rfl

theorem FoldsWhile.congr {fill fill' : ℕ → σ → Outcome ε σ} (h : FoldsWhile read push limit fill)
    (h' : FoldsWhile read' push' limit fill') (hread : Advances read size)
    (hsame : ∀ offset ≤ size, read' offset = read offset)
    (hpush : ∀ s {offset a next}, read offset = .ok (a, next) → push' s a = push s a) (hoffset : offset ≤ size)
    (s : σ) :
    fill' offset s = fill offset s := by
  induction hn : limit - offset using Nat.strong_induction_on generalizing offset s with
  | h n ih =>
    rw [h, h', hsame offset hoffset]
    split
    · cases hturn : read offset with
      | ok p =>
        have hforward : offset < p.2 := hread.lt hturn
        rw [ok_bind, ok_bind, hpush s hturn]
        congr 1
        funext s'
        exact ih _ (by omega) (hread.le hturn) s' rfl
      | err e => rfl
      | panic => rfl
    · rfl

theorem FoldsTimes.congr {fill fill' : ℕ → ℕ → σ → Outcome ε σ} (h : FoldsTimes read push fill)
    (h' : FoldsTimes read' push' fill') (hread : Advances read size)
    (hsame : ∀ offset ≤ size, read' offset = read offset)
    (hpush : ∀ s {offset a next}, read offset = .ok (a, next) → push' s a = push s a) (n : ℕ) (hoffset : offset ≤ size)
    (s : σ) : fill' n offset s = fill n offset s := by
  induction n generalizing offset s with
  | zero => rw [h.zero, h'.zero]
  | succ n ih =>
    rw [h.succ, h'.succ, hsame offset hoffset]
    cases hturn : read offset with
    | ok p =>
      rw [ok_bind, ok_bind, hpush s hturn]
      congr 1
      funext s'
      exact ih (hread.le hturn) s'
    | err e => rfl
    | panic => rfl

end Programs

end InfusedModbus.Foundation
