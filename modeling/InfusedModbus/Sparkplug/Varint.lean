import InfusedModbus.Foundation.BigEndian
import InfusedModbus.Foundation.Outcome
import Mathlib.Tactic.Ring

/-! Numbers of seven bits a byte, lowest bits first, every byte but the last with its high bit
set. A decoder reads any such number of at most ten bytes and 64 bits, whatever stands behind
it; the encoder writes the shortest one. -/

namespace InfusedModbus.Sparkplug

open Foundation Foundation.Outcome

/-- The ways in which bytes are no message. -/
inductive WireError where
  | tooShort
  | varintOverflow
  | unsupportedWireType (wireType : UInt64)
  | fieldNumberOverflow
  | invalidFieldNumber
  | lengthOverflow
  deriving DecidableEq, Repr

def maxVarintBytes : ℕ := 10

def encodeVarint (value : UInt64) : Bytes :=
  let byte := (value &&& 0x7F).toUInt8
  if value >>> 7 = 0 then [byte] else (byte ||| 0x80) :: encodeVarint (value >>> 7)
termination_by value.toNat
decreasing_by
  rename_i h
  have hne : (value >>> 7).toNat ≠ 0 := fun h0 => h (UInt64.toNat_inj.mp h0)
  rw [UInt64.toNat_shiftRight, show (7 : UInt64).toNat % 64 = 7 from rfl, Nat.shiftRight_eq_div_pow] at hne ⊢
  omega

/-- The loop over the first bytes of `total` many. -/
def decodeVarintFrom (total : ℕ) : Bytes → ℕ → UInt64 → Outcome WireError (UInt64 × ℕ)
  | [], _, _ => if maxVarintBytes ≤ total then .err .varintOverflow else .err .tooShort
  | byte :: bytes, index, value =>
    let payload := (byte &&& 0x7F).toUInt64
    if index = maxVarintBytes - 1 ∧ 1 < payload then .err .varintOverflow
    else
      let value := value ||| payload <<< UInt64.ofNat (index * 7)
      if byte &&& 0x80 = 0 then .ok (value, index + 1) else decodeVarintFrom total bytes (index + 1) value

def decodeVarint (bytes : Bytes) : Outcome WireError (UInt64 × ℕ) :=
  decodeVarintFrom bytes.length (bytes.take maxVarintBytes) 0 0

/-! ### What a number is -/

/-- Bytes spell a number. -/
inductive Spells : Bytes → ℕ → Prop where
  | last {b : UInt8} (h : b.toNat < 128) : Spells [b] b.toNat
  | more {b : UInt8} {bytes : Bytes} {v : ℕ} (h : 128 ≤ b.toNat) (rest : Spells bytes v) :
      Spells (b :: bytes) (b.toNat % 128 + v * 128)

/-- A number that is not too long, padded with zeros or not. -/
structure IsVarint (bytes : Bytes) (v : UInt64) : Prop where
  spells : Spells bytes v.toNat
  length_le : bytes.length ≤ maxVarintBytes

theorem Spells.ne_nil {bytes : Bytes} {v : ℕ} (h : Spells bytes v) : bytes ≠ [] := by
  cases h <;> simp

theorem shiftRight_seven (v : UInt64) : (v >>> 7).toNat = v.toNat / 128 := by
  rw [UInt64.toNat_shiftRight, show (7 : UInt64).toNat % 64 = 7 from rfl, Nat.shiftRight_eq_div_pow]

/-- A byte of an encoding holds seven bits, and the eighth says whether another follows. -/
theorem encodeVarint_eq (v : UInt64) :
    encodeVarint v =
      if v.toNat < 128 then [UInt8.ofNat v.toNat]
      else UInt8.ofNat (v.toNat % 128 + 128) :: encodeVarint (v >>> 7) := by
  have hlow : (v &&& 0x7F).toUInt8.toNat = v.toNat % 128 := by
    rw [UInt64.toNat_toUInt8, UInt64.toNat_and, show (0x7F : UInt64).toNat = 2 ^ 7 - 1 from rfl,
      Nat.and_two_pow_sub_one_eq_mod]
    omega
  have hzero : v >>> 7 = 0 ↔ v.toNat < 128 := by
    rw [← UInt64.toNat_inj, shiftRight_seven, UInt64.toNat_zero]
    omega
  rw [encodeVarint]
  by_cases hsmall : v.toNat < 128
  · rw [if_pos (hzero.mpr hsmall), if_pos hsmall, List.cons.injEq]
    refine ⟨UInt8.toNat_inj.mp ?_, rfl⟩
    rw [hlow, UInt8.ofNat_toNat_mod]
    omega
  · rw [if_neg (mt hzero.mp hsmall), if_neg hsmall, List.cons.injEq]
    refine ⟨UInt8.toNat_inj.mp ?_, rfl⟩
    rw [UInt8.toNat_or, hlow, show (0x80 : UInt8).toNat = 2 ^ 7 * 1 from rfl, Nat.or_comm,
      ← Nat.two_pow_add_eq_or_of_lt (by omega), UInt8.ofNat_toNat_mod]
    omega

/-! ### Reading a number -/

/-- The payload of a byte. -/
theorem payload_toNat (b : UInt8) : (b &&& 0x7F).toUInt64.toNat = b.toNat % 128 := by
  rw [UInt8.toNat_toUInt64, UInt8.toNat_and, show (0x7F : UInt8).toNat = 2 ^ 7 - 1 from rfl,
    Nat.and_two_pow_sub_one_eq_mod]

theorem continues_iff (b : UInt8) : b &&& 0x80 = 0 ↔ b.toNat < 128 := by
  have hall : ∀ x : Fin 256, UInt8.ofNat x &&& 0x80 = 0 ↔ (x : ℕ) < 128 := by decide +kernel
  simpa only [UInt8.ofNat_toNat] using hall ⟨b.toNat, b.toNat_lt⟩

/-- A byte puts seven more bits above those that are there. -/
theorem decodeVarintFrom_cons (total : ℕ) {byte : UInt8} (bytes : Bytes) {index value : ℕ} (hindex : index ≤ 9)
    (hvalue : value < 2 ^ (index * 7)) (hfits : byte.toNat % 128 < 2 ^ (64 - index * 7)) :
    decodeVarintFrom total (byte :: bytes) index (UInt64.ofNat value) =
      let value := UInt64.ofNat (value + byte.toNat % 128 * 2 ^ (index * 7))
      if byte.toNat < 128 then .ok (value, index + 1) else decodeVarintFrom total bytes (index + 1) value := by
  have hsum : value + byte.toNat % 128 * 2 ^ (index * 7) < 2 ^ 64 := by
    have := Nat.mul_le_mul_right (2 ^ (index * 7)) (Nat.succ_le_of_lt hfits)
    rw [← pow_add, Nat.sub_add_cancel (by omega), Nat.succ_mul] at this
    omega
  have hshift : (UInt64.ofNat (index * 7)).toNat % 64 = index * 7 := by
    rw [UInt64.toNat_ofNat']
    omega
  -- in the tenth byte there is room for one bit
  have hroom : ¬(index = maxVarintBytes - 1 ∧ 1 < (byte &&& 0x7F).toUInt64) := by
    rintro ⟨rfl, hover⟩
    have hover' : 1 < byte.toNat % 128 := by
      rw [← payload_toNat]
      exact hover
    simp only [maxVarintBytes, Nat.reduceMul, Nat.reduceSub, pow_one] at hfits
    omega
  have hput : UInt64.ofNat value ||| (byte &&& 0x7F).toUInt64 <<< UInt64.ofNat (index * 7) =
      UInt64.ofNat (value + byte.toNat % 128 * 2 ^ (index * 7)) := by
    rw [← UInt64.toNat_inj, UInt64.toNat_or, UInt64.toNat_shiftLeft, payload_toNat, hshift, Nat.shiftLeft_eq,
      Nat.mod_eq_of_lt (a := byte.toNat % 128 * 2 ^ (index * 7)) (by omega),
      UInt64.toNat_ofNat_of_lt' (show value < 2 ^ 64 by omega), UInt64.toNat_ofNat_of_lt' hsum, Nat.or_comm,
      Nat.mul_comm, ← Nat.two_pow_add_eq_or_of_lt hvalue, Nat.add_comm]
  rw [decodeVarintFrom]
  dsimp only
  rw [if_neg hroom, hput]
  simp only [continues_iff]

/-- From a byte on, the rest of a number is put above what is there. -/
theorem decodeVarintFrom_of_spells (total : ℕ) (rest : Bytes) {bytes : Bytes} {v value index : ℕ} (h : Spells bytes v)
    (hlength : bytes.length + index ≤ 10) (hv : v < 2 ^ (64 - index * 7)) (hvalue : value < 2 ^ (index * 7)) :
    decodeVarintFrom total ((bytes ++ rest).take (10 - index)) index (UInt64.ofNat value) =
      .ok (UInt64.ofNat (value + v * 2 ^ (index * 7)), index + bytes.length) := by
  induction h generalizing value index with
  | @last b hlast =>
    obtain ⟨room, hroom⟩ : ∃ room, 10 - index = room + 1 := ⟨9 - index, by simp at hlength; omega⟩
    have hmod : b.toNat % 128 = b.toNat := Nat.mod_eq_of_lt hlast
    rw [List.length_singleton] at hlength
    rw [hroom, List.cons_append, List.take_succ_cons, decodeVarintFrom_cons total _ (by omega) hvalue (by rwa [hmod])]
    dsimp only
    rw [hmod, if_pos hlast, List.length_singleton]
  | @more b bytes v hmore hrest ih =>
    rw [List.length_cons] at hlength
    have hpos := List.length_pos_of_ne_nil hrest.ne_nil
    obtain ⟨room, hroom⟩ : ∃ room, 10 - index = room + 1 := ⟨9 - index, by omega⟩
    have hshift : (index + 1) * 7 = index * 7 + 7 := by omega
    have hv' : v < 2 ^ (64 - (index + 1) * 7) := by
      have : 2 ^ (64 - index * 7) = 2 ^ (64 - (index + 1) * 7) * 128 := by
        rw [show 64 - index * 7 = 64 - (index + 1) * 7 + 7 by omega, pow_add, show (2 : ℕ) ^ 7 = 128 from rfl]
      omega
    have hvalue' : value + b.toNat % 128 * 2 ^ (index * 7) < 2 ^ ((index + 1) * 7) := by
      rw [hshift, pow_add]
      have := Nat.mul_le_mul_right (2 ^ (index * 7)) (show b.toNat % 128 ≤ 127 by omega)
      omega
    have hsum : value + b.toNat % 128 * 2 ^ (index * 7) + v * 2 ^ ((index + 1) * 7) =
        value + (b.toNat % 128 + v * 128) * 2 ^ (index * 7) := by
      rw [hshift, pow_add]
      ring
    rw [hroom, List.cons_append, List.take_succ_cons, decodeVarintFrom_cons total _ (by omega) hvalue (by omega)]
    dsimp only
    rw [if_neg (by omega), show room = 10 - (index + 1) by omega, ih (by omega) hv' hvalue', hsum, List.length_cons,
      Nat.add_assoc index, Nat.add_comm 1]

theorem decodeVarint_of_isVarint {bytes : Bytes} {v : UInt64} (h : IsVarint bytes v) (rest : Bytes) :
    decodeVarint (bytes ++ rest) = .ok (v, bytes.length) := by
  have hlength : bytes.length + 0 ≤ 10 := h.length_le
  have hread := decodeVarintFrom_of_spells (bytes ++ rest).length rest h.spells hlength v.toNat_lt Nat.zero_lt_one
  simpa [decodeVarint, maxVarintBytes] using hread

theorem spells_encode (v : UInt64) : Spells (encodeVarint v) v.toNat := by
  induction hn : v.toNat using Nat.strongRecOn generalizing v with
  | ind n ih =>
    subst hn
    rw [encodeVarint_eq]
    split
    · next hsmall =>
      have hbyte : (UInt8.ofNat v.toNat).toNat = v.toNat := by
        rw [UInt8.ofNat_toNat_mod]
        omega
      have h := Spells.last (b := UInt8.ofNat v.toNat) (by omega)
      rwa [hbyte] at h
    · next hlarge =>
      have hbyte : (UInt8.ofNat (v.toNat % 128 + 128)).toNat = v.toNat % 128 + 128 := by
        rw [UInt8.ofNat_toNat_mod]
        omega
      have h := Spells.more (b := UInt8.ofNat (v.toNat % 128 + 128)) (by omega)
        (ih (v >>> 7).toNat (by rw [shiftRight_seven]; omega) (v >>> 7) rfl)
      rwa [hbyte, shiftRight_seven, Nat.add_mod_right, Nat.mod_mod, Nat.mul_comm, Nat.mod_add_div] at h

theorem length_encodeVarint_le {k : ℕ} {v : UInt64} (h : v.toNat < 2 ^ (7 * (k + 1))) :
    (encodeVarint v).length ≤ k + 1 := by
  induction k generalizing v with
  | zero =>
    have hsmall : v.toNat < 128 := h
    rw [encodeVarint_eq, if_pos hsmall, List.length_singleton]
  | succ k ih =>
    rw [encodeVarint_eq]
    split
    · simp
    · rw [List.length_cons]
      refine Nat.succ_le_succ (ih ?_)
      rw [shiftRight_seven, Nat.div_lt_iff_lt_mul (by omega), show 128 = 2 ^ 7 from rfl, ← pow_add]
      exact h

theorem isVarint_encode (v : UInt64) : IsVarint (encodeVarint v) v where
  spells := spells_encode v
  length_le := length_encodeVarint_le (k := 9) (v.toNat_lt.trans_le (Nat.pow_le_pow_right (by omega) (by omega)))

theorem decodeVarint_encode (v : UInt64) (rest : Bytes) :
    decodeVarint (encodeVarint v ++ rest) = .ok (v, (encodeVarint v).length) :=
  decodeVarint_of_isVarint (isVarint_encode v) rest

/-! ### Any bytes -/

theorem decodeVarintFrom_ne_panic (total : ℕ) (bytes : Bytes) (index : ℕ) (value : UInt64) :
    decodeVarintFrom total bytes index value ≠ .panic := by
  induction bytes generalizing index value with
  | nil =>
    rw [decodeVarintFrom]
    split <;> simp
  | cons byte bytes ih =>
    rw [decodeVarintFrom]
    dsimp only
    split
    · simp
    · split
      · simp
      · exact ih _ _

theorem decodeVarint_ne_panic (bytes : Bytes) : decodeVarint bytes ≠ .panic := decodeVarintFrom_ne_panic _ _ _ _

/-- A number takes at least one byte and no byte that is not there. -/
theorem decodeVarintFrom_eq_ok {total index n : ℕ} {bytes : Bytes} {value v : UInt64}
    (h : decodeVarintFrom total bytes index value = .ok (v, n)) : index < n ∧ n ≤ index + bytes.length := by
  induction bytes generalizing index value with
  | nil =>
    rw [decodeVarintFrom] at h
    split at h <;> cases h
  | cons byte bytes ih =>
    rw [decodeVarintFrom] at h
    dsimp only at h
    rw [List.length_cons]
    split at h
    · cases h
    · split at h
      · obtain ⟨rfl, rfl⟩ := Prod.mk.inj (ok.inj h)
        omega
      · have := ih h
        omega

theorem decodeVarint_eq_ok {bytes : Bytes} {v : UInt64} {n : ℕ} (h : decodeVarint bytes = .ok (v, n)) :
    0 < n ∧ n ≤ bytes.length := by
  have hread := decodeVarintFrom_eq_ok h
  rw [Nat.zero_add] at hread
  exact ⟨hread.1, hread.2.trans (List.length_take_le' _ _)⟩

end InfusedModbus.Sparkplug
