import InfusedModbus.Foundation.Usize
import InfusedModbus.ProtocolCore.BitValues
import InfusedModbus.ProtocolCore.FlatArrays

/-! The operations of the bit list step by step on machine words. New lengths and the
places of bits are sums of words, which a build may check or let wrap around; storage is
indexed and copied into with bounds checks. What an operation leaves behind comes with
its result, also when it refuses. Where the new length fits a word, an operation writes
what it writes with sums of natural numbers. -/

namespace InfusedModbus.ProtocolCore.BitValues

open Foundation Foundation.Outcome

variable {ε : Type}

/-- The result of an operation on `&mut self` that leaves `self` as it is when it refuses. -/
def inPlace (self : BitValues) : Outcome CapacityExceeded BitValues →
    Outcome ε (BitValues × Except CapacityExceeded Unit)
  | .ok after => .ok (after, .ok ())
  | .err e => .ok (self, .error e)
  | .panic => .panic

/-- The storage as an array of its fixed length. -/
def storage (self : BitValues) : List.Vector UInt8 maxBitBytes := ⟨self.data, self.data_length⟩

/-! ### Operations -/

/-- `self.data[index / 8] |= 1 << (index % 8)`. -/
def orBit (self : BitValues) (i : ℕ) : Outcome ε BitValues :=
  if i / 8 < maxBitBytes then
    .ok { self with data := setBit self.data i, data_length := by rw [length_setBit, self.data_length] }
  else .panic

/-- A bit is only ever set, never cleared. -/
def putBit (self : BitValues) (i : ℕ) (value : Bool) : Outcome ε BitValues := if value then self.orBit i else pure self

def pushUsize (build : Build) (self : BitValues) (value : Bool) :
    Outcome ε (BitValues × Except CapacityExceeded Unit) :=
  if self.len = maxBitCount then pure (self, .error ⟨⟩)
  else do
    let written ← self.putBit self.len value
    let newLen ← usizeSum build self.len 1
    -- There was room, so the length stays within the capacity and the last branch is never taken.
    if h : newLen ≤ maxBitCount then pure ({ written with len := newLen, len_le := h }, .ok ()) else .panic

/-- The loop over the bits of a slice or an iterator: a set bit is put at its place behind
the first `start`. -/
def writeBits (build : Build) (start : ℕ) : ℕ → List Bool → BitValues → Outcome ε BitValues
  | _, [], self => pure self
  | offset, value :: values, self => do
    let written ← if value then (do
        let i ← usizeSum build start offset
        self.orBit i)
      else pure self
    writeBits build start (offset + 1) values written

def extendFromSliceUsize (build : Build) (self : BitValues) (values : List Bool) :
    Outcome ε (BitValues × Except CapacityExceeded Unit) := do
  let newLen ← usizeSum build self.len values.length
  if h : maxBitCount < newLen then pure (self, .error ⟨⟩)
  else do
    let written ← writeBits build self.len 0 values self
    pure ({ written with len := newLen, len_le := by omega }, .ok ())

/-- As `extendFromSliceUsize`, from an iterator that knows how many bits it has left. -/
def extendFromIterUsize (build : Build) (self : BitValues) (values : List Bool) :
    Outcome ε (BitValues × Except CapacityExceeded Unit) :=
  self.extendFromSliceUsize build values

def extendFromPackedBytesUsize (build : Build) (self : BitValues) (packed : Bytes) (bitCount : ℕ) :
    Outcome ε (BitValues × Except CapacityExceeded Unit) :=
  if build.debugAssertions = true ∧ self.len % 8 ≠ 0 then .panic
  else do
    let newLen ← usizeSum build self.len bitCount
    if h : maxBitCount < newLen then pure (self, .error ⟨⟩)
    else do
      let byteStart := self.len / 8
      let byteCount := divCeil bitCount 8
      let byteEnd ← usizeSum build byteStart byteCount
      let source ← slice packed 0 byteCount
      let data ← Arrays.copyFromSlice self.storage byteStart byteEnd source
      pure (⟨data.toList, newLen, data.toList_length, by omega⟩, .ok ())

/-! ### Lengths that fit -/

variable {self : BitValues} {build : Build}

theorem maxBitCount_lt (hw : 16 ≤ build.usizeBits) : maxBitCount < 2 ^ build.usizeBits :=
  lt_of_lt_of_le (by decide : maxBitCount < 2 ^ 16) (Nat.pow_le_pow_right (by omega) hw)

theorem pushUsize_eq (hw : 16 ≤ build.usizeBits) (value : Bool) :
    (self.pushUsize build value : Outcome ε (BitValues × Except CapacityExceeded Unit)) =
      self.inPlace (self.push value) := by
  have hle := self.len_le
  have hmax := maxBitCount_lt hw
  have hbits : maxBitCount = 2000 := rfl
  have hbytes : maxBitBytes = 250 := rfl
  unfold pushUsize push
  by_cases hfull : self.len = maxBitCount
  · rw [if_pos hfull, dif_pos hfull]
    rfl
  · rw [if_neg hfull, dif_neg hfull]
    have hsum : (usizeSum build self.len 1 : Outcome ε ℕ) = .ok (self.len + 1) := usizeSum_of_lt (by omega)
    cases value with
    | true =>
      rw [putBit, if_pos rfl, orBit, if_pos (by omega), ok_bind, hsum, ok_bind, dif_pos (by omega)]
      rfl
    | false =>
      rw [putBit, if_neg (by simp), pure_eq, ok_bind, hsum, ok_bind, dif_pos (by omega)]
      rfl

/-- While there is room the loop sets the bits one behind the other. -/
theorem writeBits_eq (hw : 16 ≤ build.usizeBits) {start offset : ℕ} {values : List Bool} (self : BitValues)
    (hroom : start + offset + values.length ≤ maxBitCount) :
    (writeBits build start offset values self : Outcome ε BitValues) =
      .ok { self with
        data := setBits (start + offset) values self.data
        data_length := by simp [self.data_length] } := by
  have hmax := maxBitCount_lt hw
  have hbits : maxBitCount = 2000 := rfl
  have hbytes : maxBitBytes = 250 := rfl
  induction values generalizing offset self with
  | nil => rfl
  | cons value values ih =>
    rw [List.length_cons] at hroom
    rw [writeBits]
    cases value with
    | true =>
      rw [if_pos rfl, usizeSum_of_lt (by omega), ok_bind, orBit, if_pos (by omega), ok_bind]
      dsimp only
      rw [ih _ (by omega)]
      rfl
    | false =>
      rw [if_neg (by simp), pure_eq, ok_bind]
      dsimp only
      rw [ih _ (by omega)]
      rfl

theorem extendFromSliceUsize_eq (hw : 16 ≤ build.usizeBits) {values : List Bool}
    (hfits : self.len + values.length < 2 ^ build.usizeBits) :
    (self.extendFromSliceUsize build values : Outcome ε (BitValues × Except CapacityExceeded Unit)) =
      self.inPlace (self.extendFromSlice values) := by
  unfold extendFromSliceUsize extendFromSlice
  rw [usizeSum_of_lt hfits, ok_bind]
  by_cases hroom : maxBitCount < self.len + values.length
  · rw [dif_pos hroom, dif_pos hroom]
    rfl
  · rw [dif_neg hroom, dif_neg hroom, writeBits_eq hw self (by omega), ok_bind]
    rfl

theorem exists_copyFromSlice {lo hi : ℕ} {src : Bytes} (h : lo ≤ hi) (h' : hi ≤ maxBitBytes)
    (hsrc : src.length = hi - lo) :
    ∃ data, (Arrays.copyFromSlice self.storage lo hi src : Outcome ε (List.Vector UInt8 maxBitBytes)) = .ok data ∧
      data.toList = self.data.take lo ++ (src ++ self.data.drop hi) :=
  ⟨_, dif_pos ⟨h, h', hsrc⟩, List.append_assoc _ _ _⟩

theorem extendFromPackedBytesUsize_eq {packed : Bytes} {bitCount : ℕ}
    (haligned : build.debugAssertions = true ∨ self.len % 8 = 0) (hfits : self.len + bitCount < 2 ^ build.usizeBits) :
    (self.extendFromPackedBytesUsize build packed bitCount : Outcome ε (BitValues × Except CapacityExceeded Unit)) =
      self.inPlace (self.extendFromPackedBytes packed bitCount) := by
  have hbits : maxBitCount = 2000 := rfl
  have hbytes : maxBitBytes = 250 := rfl
  have hceil := divCeil_eight bitCount
  unfold extendFromPackedBytesUsize extendFromPackedBytes
  by_cases hodd : self.len % 8 ≠ 0
  · rw [if_pos ⟨haligned.resolve_right hodd, hodd⟩, dif_pos hodd]
    rfl
  rw [if_neg fun h => hodd h.2, dif_neg hodd, usizeSum_of_lt hfits, ok_bind]
  by_cases hroom : maxBitCount < self.len + bitCount
  · rw [dif_pos hroom, dif_pos hroom]
    rfl
  rw [dif_neg hroom, dif_neg hroom]
  dsimp only
  rw [usizeSum_of_lt (by omega), ok_bind]
  by_cases hpacked : packed.length < divCeil bitCount 8
  · rw [dif_pos hpacked, slice, if_neg (by omega)]
    rfl
  · obtain ⟨data, hcopy, hdata⟩ := @exists_copyFromSlice _ self _ _ _
      (show self.len / 8 ≤ self.len / 8 + divCeil bitCount 8 by omega) (by omega)
      (show (packed.take (divCeil bitCount 8)).length = _ by rw [List.length_take]; omega)
    rw [dif_neg hpacked, slice_of_le (Nat.zero_le _) (by omega), ok_bind, List.drop_zero, Nat.sub_zero, hcopy, ok_bind]
    simp only [hdata]
    rfl

/-! ### Any length -/

theorem extendFromSliceUsize_eq_ok {values : List Bool} {after : BitValues} {result : Except CapacityExceeded Unit}
    (h : (self.extendFromSliceUsize build values : Outcome ε _) = .ok (after, result)) :
    ∃ newLen, (usizeSum build self.len values.length : Outcome ε ℕ) = .ok newLen ∧
      (result = .ok () ∧ after.len = newLen ∨ maxBitCount < newLen ∧ result = .error ⟨⟩ ∧ after = self) := by
  obtain ⟨newLen, hsum, h⟩ := bind_eq_ok.mp h
  refine ⟨newLen, hsum, ?_⟩
  split at h
  · next hfull =>
    obtain ⟨rfl, rfl⟩ := Prod.mk.inj (ok.inj h)
    exact .inr ⟨hfull, rfl, rfl⟩
  · obtain ⟨written, -, h⟩ := bind_eq_ok.mp h
    obtain ⟨rfl, rfl⟩ := Prod.mk.inj (ok.inj h)
    exact .inl ⟨rfl, rfl⟩

theorem extendFromPackedBytesUsize_eq_ok {packed : Bytes} {bitCount : ℕ} {after : BitValues}
    {result : Except CapacityExceeded Unit}
    (h : (self.extendFromPackedBytesUsize build packed bitCount : Outcome ε _) = .ok (after, result)) :
    ∃ newLen, (usizeSum build self.len bitCount : Outcome ε ℕ) = .ok newLen ∧
      (result = .ok () ∧ after.len = newLen ∨ maxBitCount < newLen ∧ result = .error ⟨⟩ ∧ after = self) := by
  unfold extendFromPackedBytesUsize at h
  split at h
  · cases h
  obtain ⟨newLen, hsum, h⟩ := bind_eq_ok.mp h
  refine ⟨newLen, hsum, ?_⟩
  split at h
  · next hfull =>
    obtain ⟨rfl, rfl⟩ := Prod.mk.inj (ok.inj h)
    exact .inr ⟨hfull, rfl, rfl⟩
  · obtain ⟨byteEnd, -, h⟩ := bind_eq_ok.mp h
    obtain ⟨source, -, h⟩ := bind_eq_ok.mp h
    obtain ⟨data, -, h⟩ := bind_eq_ok.mp h
    obtain ⟨rfl, rfl⟩ := Prod.mk.inj (ok.inj h)
    exact .inl ⟨rfl, rfl⟩

end InfusedModbus.ProtocolCore.BitValues
