import InfusedModbus.Foundation.BigEndian
import Mathlib.Data.Nat.Bitwise
import Mathlib.Tactic.IntervalCases

/-! Bits packed eight to a byte, the first bit in the least significant place of
the first byte. A byte string is determined by its length and its bits, so packing
by any order of single-bit updates agrees with packing byte by byte. -/

namespace InfusedModbus.Foundation

/-- Bits needed in whole units of `d`. -/
def divCeil (n d : ℕ) : ℕ := (n + d - 1) / d

theorem divCeil_eight (n : ℕ) : divCeil n 8 = (n + 7) / 8 := rfl

/-! ### One byte -/

/-- The byte with only bit `i` set. -/
def bitMask (i : ℕ) : UInt8 := 1 <<< UInt8.ofNat i

theorem bitMask_toNat {i : ℕ} (h : i < 8) : (bitMask i).toNat = 2 ^ i := by
  interval_cases i <;> rfl

theorem testMask {i : ℕ} (h : i < 8) (b : UInt8) : (b &&& bitMask i != 0) = b.toNat.testBit i := by
  have hne : (b &&& bitMask i != 0) = ((b &&& bitMask i).toNat != 0) := by
    rw [Bool.eq_iff_iff]
    simp only [bne_iff_ne, ne_eq, ← UInt8.toNat_inj, UInt8.toNat_zero]
  rw [hne, UInt8.toNat_and, bitMask_toNat h, Nat.and_two_pow]
  cases b.toNat.testBit i <;> simp

theorem testBit_or_bitMask {i : ℕ} (h : i < 8) (b : UInt8) (j : ℕ) :
    (b ||| bitMask i).toNat.testBit j = (decide (i = j) || b.toNat.testBit j) := by
  rw [UInt8.toNat_or, bitMask_toNat h, Nat.testBit_or, Nat.testBit_two_pow, Bool.or_comm]

theorem byte_eq_of_testBit {a b : UInt8} (h : ∀ i < 8, a.toNat.testBit i = b.toNat.testBit i) : a = b := by
  apply UInt8.toNat_inj.mp
  apply Nat.eq_of_testBit_eq
  intro i
  by_cases hi : i < 8
  · exact h i hi
  · have hpow : 2 ^ 8 ≤ 2 ^ i := Nat.pow_le_pow_right (by omega) (by omega)
    have ha := a.toNat_lt
    have hb := b.toNat_lt
    rw [Nat.testBit_eq_false_of_lt (by omega), Nat.testBit_eq_false_of_lt (by omega)]

/-! ### Byte strings -/

/-- Bit `i` of a byte string; bits past the end read as zero. -/
def bitAt (bs : Bytes) (i : ℕ) : Bool := (bs.getD (i / 8) 0).toNat.testBit (i % 8)

theorem bitAt_eq_getElem {bs : Bytes} {i : ℕ} (h : i / 8 < bs.length) :
    bitAt bs i = bs[i / 8].toNat.testBit (i % 8) := by
  simp [bitAt, h]

theorem bitAt_append_left {as : Bytes} (bs : Bytes) {i : ℕ} (h : i / 8 < as.length) :
    bitAt (as ++ bs) i = bitAt as i := by
  simp [bitAt, h, List.getElem?_append_left]

theorem bitAt_append_right (as bs : Bytes) (i : ℕ) : bitAt (as ++ bs) (8 * as.length + i) = bitAt bs i := by
  have hdiv : (8 * as.length + i) / 8 = as.length + i / 8 := by omega
  have hmod : (8 * as.length + i) % 8 = i % 8 := by omega
  have hget : (as ++ bs)[as.length + i / 8]? = _ := List.getElem?_append_right (Nat.le_add_right as.length (i / 8))
  simp [bitAt, hdiv, hmod, hget]

theorem bitAt_drop (bs : Bytes) (n i : ℕ) : bitAt (bs.drop n) i = bitAt bs (8 * n + i) := by
  have hdiv : (8 * n + i) / 8 = n + i / 8 := by omega
  have hmod : (8 * n + i) % 8 = i % 8 := by omega
  simp [bitAt, hdiv, hmod]

theorem bitAt_take {bs : Bytes} {n i : ℕ} (h : i / 8 < n) : bitAt (bs.take n) i = bitAt bs i := by
  simp [bitAt, h]

theorem bitAt_of_length_le {bs : Bytes} {i : ℕ} (h : bs.length ≤ i / 8) : bitAt bs i = false := by
  simp [bitAt, h]

@[simp] theorem bitAt_replicate_zero (n i : ℕ) : bitAt (List.replicate n 0) i = false := by
  simp only [bitAt, List.getD_eq_getElem?_getD, List.getElem?_replicate]
  split <;> simp

theorem eq_of_bitAt {as bs : Bytes} (hlen : as.length = bs.length)
    (h : ∀ i < 8 * as.length, bitAt as i = bitAt bs i) : as = bs := by
  apply List.ext_getElem hlen
  intro n ha hb
  apply byte_eq_of_testBit
  intro k hk
  have hdiv : (8 * n + k) / 8 = n := by omega
  have hmod : (8 * n + k) % 8 = k := by omega
  have hbit := h (8 * n + k) (by omega)
  simpa [bitAt, hdiv, hmod, ha, hb] using hbit

/-- Set bit `i`. -/
def setBit (bs : Bytes) (i : ℕ) : Bytes := bs.modify (i / 8) (· ||| bitMask (i % 8))

@[simp] theorem length_setBit (bs : Bytes) (i : ℕ) : (setBit bs i).length = bs.length := by
  simp [setBit]

theorem bitAt_setBit {bs : Bytes} {i : ℕ} (h : i < 8 * bs.length) (j : ℕ) :
    bitAt (setBit bs i) j = (decide (i = j) || bitAt bs j) := by
  simp only [bitAt, setBit, List.getD_eq_getElem?_getD, List.getElem?_modify]
  by_cases hij : i / 8 = j / 8
  · have hlt : j / 8 < bs.length := by omega
    have hiff : i % 8 = j % 8 ↔ i = j := by omega
    simp only [hij, hlt, List.getElem?_eq_getElem, Option.map_eq_map, Option.map_some, if_true,
      Option.getD_some]
    rw [testBit_or_bitMask (Nat.mod_lt _ (by omega))]
    simp [hiff]
  · have hne : i ≠ j := by omega
    cases bs[j / 8]? <;> simp [hij, hne]

/-- Set the listed bits, numbering them from `start`. -/
def setBits (start : ℕ) : List Bool → Bytes → Bytes
  | [], bs => bs
  | v :: vs, bs => setBits (start + 1) vs (if v then setBit bs start else bs)

@[simp] theorem length_setBits (start : ℕ) (vs : List Bool) (bs : Bytes) :
    (setBits start vs bs).length = bs.length := by
  induction vs generalizing start bs with
  | nil => rfl
  | cons v vs ih => rw [setBits, ih]; split <;> simp

theorem bitAt_setBits (start : ℕ) (vs : List Bool) (bs : Bytes) (h : start + vs.length ≤ 8 * bs.length)
    (j : ℕ) :
    bitAt (setBits start vs bs) j = ((decide (start ≤ j) && vs.getD (j - start) false) || bitAt bs j) := by
  induction vs generalizing start bs with
  | nil => simp [setBits]
  | cons v vs ih =>
    simp only [List.length_cons] at h
    have hhead : bitAt (if v then setBit bs start else bs) j = ((decide (start = j) && v) || bitAt bs j) := by
      cases v
      · simp
      · simp only [if_true, Bool.and_true]
        exact bitAt_setBit (by omega) j
    have hlen : (if v then setBit bs start else bs).length = bs.length := by split <;> simp
    rw [setBits, ih (start + 1) _ (by omega), hhead]
    rcases Nat.lt_trichotomy start j with hlt | heq | hgt
    · have hsub : j - start = (j - (start + 1)) + 1 := by omega
      simp [hsub, show start + 1 ≤ j by omega, show start ≤ j by omega, show start ≠ j by omega]
    · subst heq
      simp
    · simp [show ¬start + 1 ≤ j by omega, show ¬start ≤ j by omega, show start ≠ j by omega]

/-- Eight bits to a byte, the last byte padded with zeros. -/
def packBits (vs : List Bool) : Bytes :=
  (List.range (divCeil vs.length 8)).map fun j =>
    UInt8.ofNat (Nat.ofBits fun k : Fin 8 => vs.getD (8 * j + k) false)

@[simp] theorem length_packBits (vs : List Bool) : (packBits vs).length = divCeil vs.length 8 := by
  simp [packBits]

theorem bitAt_packBits (vs : List Bool) (i : ℕ) : bitAt (packBits vs) i = vs.getD i false := by
  have hceil := divCeil_eight vs.length
  by_cases hi : i / 8 < divCeil vs.length 8
  · have hlt : i / 8 < (packBits vs).length := by simpa using hi
    have hbits : Nat.ofBits (fun k : Fin 8 => vs.getD (8 * (i / 8) + k) false) < 256 :=
      Nat.ofBits_lt_two_pow _
    have hidx : 8 * (i / 8) + i % 8 = i := by omega
    rw [bitAt_eq_getElem hlt]
    simp only [packBits, List.getElem_map, List.getElem_range]
    rw [UInt8.ofNat_toNat_mod, Nat.mod_eq_of_lt hbits, Nat.testBit_ofBits_lt _ _ (Nat.mod_lt _ (by omega))]
    simp only [hidx]
  · have hge : vs.length ≤ i := by omega
    have hlen : (packBits vs).length ≤ i / 8 := by simpa using hi
    simp [bitAt, List.getElem?_eq_none hlen, List.getElem?_eq_none hge]

/-- Setting the bits one at a time in a zeroed buffer packs them. -/
theorem setBits_replicate_zero (vs : List Bool) :
    setBits 0 vs (List.replicate (divCeil vs.length 8) 0) = packBits vs := by
  have hceil := divCeil_eight vs.length
  apply eq_of_bitAt
  · simp
  · intro i _
    rw [bitAt_setBits 0 vs _ (by simp; omega), bitAt_packBits]
    simp

/-- The first `n` bits. -/
def unpackBits (n : ℕ) (bs : Bytes) : List Bool := (List.range n).map (bitAt bs)

@[simp] theorem length_unpackBits (n : ℕ) (bs : Bytes) : (unpackBits n bs).length = n := by
  simp [unpackBits]

theorem unpackBits_packBits (vs : List Bool) : unpackBits vs.length (packBits vs) = vs := by
  apply List.ext_getElem (by simp)
  intro i h1 h2
  simp [unpackBits, bitAt_packBits, h2]

/-- Unpacking whole bytes gives the bits back, with the padding as zeros. -/
theorem unpackBits_packBits_padded (vs : List Bool) {n : ℕ} (h : vs.length ≤ n) :
    unpackBits n (packBits vs) = vs ++ List.replicate (n - vs.length) false := by
  apply List.ext_getElem (by simp; omega)
  intro i h1 h2
  simp only [unpackBits, List.getElem_map, List.getElem_range, bitAt_packBits, List.getElem_append]
  split
  · simp_all
  · simp [List.getElem?_eq_none (show vs.length ≤ i by omega)]

@[simp] theorem unpackBits_zero (bs : Bytes) : unpackBits 0 bs = [] := rfl

theorem take_unpackBits {m n : ℕ} (h : m ≤ n) (bs : Bytes) : (unpackBits n bs).take m = unpackBits m bs := by
  rw [unpackBits, ← List.map_take, List.take_range, Nat.min_eq_left h, unpackBits]

theorem bitAt_cons (b : UInt8) (bs : Bytes) (i : ℕ) : bitAt (b :: bs) (8 + i) = bitAt bs i := by
  have hdiv : (8 + i) / 8 = i / 8 + 1 := by omega
  have hmod : (8 + i) % 8 = i % 8 := by omega
  simp [bitAt, hdiv, hmod]

/-- Reading out a byte string byte by byte, eight bits of each, reads all its bits. -/
theorem flatMap_bits_eq_unpackBits (bs : Bytes) :
    (bs.flatMap fun byte => (List.range 8).map fun bit => byte &&& bitMask bit != 0) =
      unpackBits (8 * bs.length) bs := by
  induction bs with
  | nil => rfl
  | cons b bs ih =>
    have hhead : (List.range 8).map (fun bit => b &&& bitMask bit != 0) =
        (List.range 8).map (bitAt (b :: bs)) := by
      apply List.map_congr_left
      intro i hi
      have hlt := List.mem_range.mp hi
      rw [testMask hlt, bitAt_eq_getElem (by simp; omega)]
      simp [show i / 8 = 0 by omega, Nat.mod_eq_of_lt hlt]
    have htail : (bitAt (b :: bs)) ∘ (8 + ·) = bitAt bs := funext (bitAt_cons b bs)
    rw [List.flatMap_cons, ih, hhead, List.length_cons, Nat.mul_succ, Nat.add_comm (8 * bs.length)]
    simp only [unpackBits, List.range_add, List.map_append, List.map_map, htail]

/-- Bits read back from a packed string determine it when its padding is zero. -/
theorem packBits_unpackBits {bs : Bytes} {n : ℕ} (hlen : bs.length = divCeil n 8)
    (hpad : ∀ i, n ≤ i → bitAt bs i = false) : packBits (unpackBits n bs) = bs := by
  apply eq_of_bitAt (by simp [hlen])
  intro i _
  rw [bitAt_packBits]
  by_cases hi : i < n
  · simp [unpackBits, hi]
  · rw [hpad i (by omega)]
    simp [unpackBits, hi]

end InfusedModbus.Foundation
