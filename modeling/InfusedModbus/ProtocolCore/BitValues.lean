import InfusedModbus.Foundation.BitPack
import InfusedModbus.ProtocolCore.PduBytes

/-! The bit list of the port without a heap: at most 2000 bits, kept packed as on the
wire. Single bits are set in storage taken to be zero past the end; bytes that are
packed already are copied as they are, bits past the end included. Two lists of the
same bits can therefore differ in the padding of their last byte. New lengths are sums
of natural numbers here, as they are for the codecs, whose byte counts bound them. -/

namespace InfusedModbus.ProtocolCore

open Foundation Foundation.Outcome

/-- The most bits one read may ask for. -/
def maxBitCount : ℕ := 2000

def maxBitBytes : ℕ := maxBitCount / 8

structure BitValues where
  data : Bytes
  len : ℕ
  data_length : data.length = maxBitBytes
  len_le : len ≤ maxBitCount
  deriving DecidableEq, Repr

namespace BitValues

def new : BitValues := ⟨List.replicate maxBitBytes 0, 0, by simp, by simp⟩

def push (self : BitValues) (value : Bool) : Outcome CapacityExceeded BitValues :=
  if h : self.len = maxBitCount then .err ⟨⟩
  else .ok
    { data := if value then setBit self.data self.len else self.data
      len := self.len + 1
      data_length := by split <;> simp [self.data_length]
      len_le := by have := self.len_le; omega }

def extendFromSlice (self : BitValues) (values : List Bool) : Outcome CapacityExceeded BitValues :=
  if h : maxBitCount < self.len + values.length then .err ⟨⟩
  else .ok
    { data := setBits self.len values self.data
      len := self.len + values.length
      data_length := by simp [self.data_length]
      len_le := by omega }

/-- Only meant for a list that ends at a byte boundary, which a debug build asserts. -/
def extendFromPackedBytes (self : BitValues) (packed : Bytes) (bitCount : ℕ) :
    Outcome CapacityExceeded BitValues :=
  if haligned : self.len % 8 ≠ 0 then .panic
  else if hroom : maxBitCount < self.len + bitCount then .err ⟨⟩
  else if hpacked : packed.length < divCeil bitCount 8 then .panic
  else .ok
    { data := self.data.take (self.len / 8) ++ (packed.take (divCeil bitCount 8) ++
        self.data.drop (self.len / 8 + divCeil bitCount 8))
      len := self.len + bitCount
      data_length := by
        have hbits : maxBitCount = 2000 := rfl
        have hbytes : maxBitBytes = 250 := rfl
        have hceil := divCeil_eight bitCount
        have hdata := self.data_length
        simp only [List.length_append, List.length_take, List.length_drop]
        omega
      len_le := by omega }

def get {ε : Type} (self : BitValues) (i : ℕ) : Outcome ε (Option Bool) :=
  if self.len ≤ i then pure none
  else do
    let byte ← index self.data (i / 8)
    pure (some (byte &&& bitMask (i % 8) != 0))

/-- The bytes the bits lie in. -/
def asPackedBytes (self : BitValues) : Bytes := self.data.take (divCeil self.len 8)

/-- The comparison of the source, by length and packed bytes. -/
def eq (self other : BitValues) : Bool :=
  self.len == other.len && self.asPackedBytes == other.asPackedBytes

/-! ### The list of bits -/

variable (self : BitValues)

/-- The bits of the list. -/
def bits : List Bool := unpackBits self.len self.data

/-- The bits between the last one and the end of its byte are zero. -/
def ZeroPadding : Prop := ∀ i, self.len ≤ i → bitAt self.asPackedBytes i = false

@[simp] theorem length_bits : self.bits.length = self.len := by
  simp [bits]

theorem length_asPackedBytes : self.asPackedBytes.length = divCeil self.len 8 := by
  have hbits : maxBitCount = 2000 := rfl
  have hbytes : maxBitBytes = 250 := rfl
  have hceil := divCeil_eight self.len
  have hdata := self.data_length
  have hle := self.len_le
  simp only [asPackedBytes, List.length_take]
  omega

/-- Each bit is read back by its number. -/
theorem get_eq {ε : Type} (i : ℕ) : (self.get i : Outcome ε (Option Bool)) = .ok self.bits[i]? := by
  unfold get
  split
  · next hle => simp [List.getElem?_eq_none (show self.bits.length ≤ i by simpa using hle)]
  · next hlt =>
    have hbits : maxBitCount = 2000 := rfl
    have hbytes : maxBitBytes = 250 := rfl
    have hdata := self.data_length
    have hle := self.len_le
    have hbyte : i / 8 < self.data.length := by omega
    have hbit : self.bits[i]? = some (bitAt self.data i) := by
      simp [bits, unpackBits, List.getElem?_range (show i < self.len by omega)]
    rw [index_of_lt hbyte, ok_bind, testMask (Nat.mod_lt _ (by omega)), hbit, bitAt_eq_getElem hbyte, pure_eq]

theorem bits_eq_unpackBits_asPackedBytes : self.bits = unpackBits self.len self.asPackedBytes := by
  have hceil := divCeil_eight self.len
  apply List.map_congr_left
  intro i hi
  have hlt := List.mem_range.mp hi
  rw [asPackedBytes, bitAt_take (by omega)]

/-- Without padding the packed bytes are those of the bits. -/
theorem asPackedBytes_eq (h : self.ZeroPadding) : self.asPackedBytes = packBits self.bits := by
  rw [bits_eq_unpackBits_asPackedBytes, packBits_unpackBits self.length_asPackedBytes h]

/-! ### Lists built bit by bit -/

variable {self}

/-- Everything past the last bit is zero. -/
def Clean (self : BitValues) : Prop := ∀ i, self.len ≤ i → bitAt self.data i = false

theorem clean_new : new.Clean := fun i _ => bitAt_replicate_zero _ i

theorem Clean.zeroPadding (h : self.Clean) : self.ZeroPadding := by
  intro i hi
  by_cases hbyte : i / 8 < divCeil self.len 8
  · rw [asPackedBytes, bitAt_take hbyte, h i hi]
  · exact bitAt_of_length_le (by rw [length_asPackedBytes]; omega)

theorem push_eq_extendFromSlice (value : Bool) : self.push value = self.extendFromSlice [value] := by
  have hle := self.len_le
  by_cases h : self.len = maxBitCount
  · rw [push, extendFromSlice, dif_pos h, dif_pos (by simp; omega)]
  · rw [push, extendFromSlice, dif_neg h, dif_neg (by simp; omega)]
    rfl

theorem extendFromSlice_of_le {values : List Bool} (h : self.len + values.length ≤ maxBitCount) :
    ∃ after, self.extendFromSlice values = .ok after ∧ after.len = self.len + values.length := by
  rw [extendFromSlice, dif_neg (by omega)]
  exact ⟨_, rfl, rfl⟩

/-- On clean storage the new bits are the ones given, and the storage stays clean. -/
theorem extendFromSlice_eq_ok {values : List Bool} {after : BitValues} (h : self.Clean)
    (hafter : self.extendFromSlice values = .ok after) : after.bits = self.bits ++ values ∧ after.Clean := by
  unfold extendFromSlice at hafter
  split at hafter
  · cases hafter
  · next hroom =>
    have hbits : maxBitCount = 2000 := rfl
    have hbytes : maxBitBytes = 250 := rfl
    have hdata := self.data_length
    obtain rfl := Outcome.ok.inj hafter
    have hbit : ∀ i, bitAt (setBits self.len values self.data) i =
        ((decide (self.len ≤ i) && values.getD (i - self.len) false) || bitAt self.data i) :=
      bitAt_setBits _ _ _ (by omega)
    constructor
    · apply List.ext_getElem (by simp [bits])
      intro i h1 h2
      simp only [bits, unpackBits, List.getElem_map, List.getElem_range, List.getElem_append,
        List.length_map, List.length_range, hbit]
      split
      · next hlt => simp [show ¬self.len ≤ i by omega]
      · next hge =>
        have hlen : i - self.len < values.length := by simp at h2; omega
        simp [h i (by omega), show self.len ≤ i by omega, hlen]
    · intro i hi
      replace hi : self.len + values.length ≤ i := hi
      rw [hbit, h i (by omega), List.getD_eq_default _ _ (by omega)]
      simp

/-! ### Lists read from packed bytes -/

theorem extendFromPackedBytes_new_of_lt {packed : Bytes} {bitCount : ℕ} (h : maxBitCount < bitCount) :
    new.extendFromPackedBytes packed bitCount = .err ⟨⟩ := by
  rw [extendFromPackedBytes, dif_neg (by simp [new]), dif_pos (by simpa [new] using h)]

theorem extendFromPackedBytes_new_of_le {packed : Bytes} {bitCount : ℕ} (h : bitCount ≤ maxBitCount)
    (hpacked : divCeil bitCount 8 ≤ packed.length) :
    (new.extendFromPackedBytes packed bitCount).map bits = .ok (unpackBits bitCount packed) := by
  have hceil := divCeil_eight bitCount
  rw [extendFromPackedBytes, dif_neg (by simp [new]), dif_neg (by simpa [new] using h), dif_neg (by omega),
    map_ok]
  congr 1
  simp only [bits, new, Nat.zero_add, Nat.zero_div, List.take_zero, List.nil_append]
  apply List.map_congr_left
  intro i hi
  have hlt := List.mem_range.mp hi
  have htake : i / 8 < (packed.take (divCeil bitCount 8)).length := by
    rw [List.length_take]
    omega
  rw [bitAt_append_left _ htake, bitAt_take (by omega)]

end BitValues

end InfusedModbus.ProtocolCore
