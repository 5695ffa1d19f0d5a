import Mathlib.Data.List.Basic
import Mathlib.Tactic.Linarith
import Mathlib.Tactic.Positivity

/-! Big-endian byte strings. A natural number below `256 ^ k` and a string of `k`
bytes determine each other; a 16-bit word is the case `k = 2`, with its own
two-byte form because word lists are packed and unpacked two bytes at a time. -/

namespace InfusedModbus.Foundation

abbrev Bytes := List UInt8

theorem UInt8.ofNat_toNat_mod (n : ℕ) : (UInt8.ofNat n).toNat = n % 256 := by
  simp

theorem UInt16.ofNat_toNat_mod (n : ℕ) : (UInt16.ofNat n).toNat = n % 65536 := by
  simp

/-! ### Numbers of `k` bytes -/

/-- The low `k` bytes of `v`, most significant first. -/
def beBytes : ℕ → ℕ → Bytes
  | 0, _ => []
  | k + 1, v => UInt8.ofNat (v / 256 ^ k) :: beBytes k v

/-- The number a byte string spells. -/
def beValue : Bytes → ℕ
  | [] => 0
  | b :: bs => b.toNat * 256 ^ bs.length + beValue bs

@[simp] theorem length_beBytes (k v : ℕ) : (beBytes k v).length = k := by
  induction k with
  | zero => rfl
  | succ k ih => simp [beBytes, ih]

theorem beValue_lt (bs : Bytes) : beValue bs < 256 ^ bs.length := by
  induction bs with
  | nil => simp [beValue]
  | cons b bs ih =>
    have hb : b.toNat + 1 ≤ 256 := b.toNat_lt
    have hmul := Nat.mul_le_mul_right (256 ^ bs.length) hb
    simp only [beValue, List.length_cons, pow_succ']
    linarith

theorem beValue_beBytes (k v : ℕ) : beValue (beBytes k v) = v % 256 ^ k := by
  induction k with
  | zero => simp [beBytes, beValue, Nat.mod_one]
  | succ k ih =>
    simp only [beBytes, beValue, length_beBytes, ih, UInt8.ofNat_toNat_mod]
    rw [pow_succ, Nat.mod_mul, Nat.add_comm, Nat.mul_comm]

theorem beBytes_add_mul (k v w : ℕ) : beBytes k (v + w * 256 ^ k) = beBytes k v := by
  induction k generalizing w with
  | zero => rfl
  | succ k ih =>
    have hdiv : (v + w * 256 ^ (k + 1)) / 256 ^ k = v / 256 ^ k + w * 256 := by
      rw [pow_succ', ← Nat.mul_assoc, Nat.add_mul_div_right _ _ (by positivity)]
    have htail : beBytes k (v + w * 256 ^ (k + 1)) = beBytes k v := by
      rw [pow_succ', ← Nat.mul_assoc]
      exact ih (w * 256)
    simp only [beBytes, hdiv, htail, List.cons.injEq, and_true]
    apply UInt8.toNat_inj.mp
    simp only [UInt8.ofNat_toNat_mod]
    omega

theorem beBytes_beValue (bs : Bytes) : beBytes bs.length (beValue bs) = bs := by
  induction bs with
  | nil => rfl
  | cons b bs ih =>
    have hlt := beValue_lt bs
    have hdiv : (b.toNat * 256 ^ bs.length + beValue bs) / 256 ^ bs.length = b.toNat := by
      rw [Nat.add_comm, Nat.add_mul_div_right _ _ (by positivity), Nat.div_eq_of_lt hlt, Nat.zero_add]
    have htail : beBytes bs.length (b.toNat * 256 ^ bs.length + beValue bs) = bs := by
      rw [Nat.add_comm, beBytes_add_mul]
      exact ih
    simp [beBytes, beValue, hdiv, htail]

/-! ### 16-bit words -/

/-- The more significant byte of a word. -/
def hiByte (x : UInt16) : UInt8 := UInt8.ofNat (x.toNat / 256)

/-- The less significant byte of a word. -/
def loByte (x : UInt16) : UInt8 := UInt8.ofNat x.toNat

def u16ToBeBytes (x : UInt16) : Bytes := [hiByte x, loByte x]

def u16FromBeBytes (hi lo : UInt8) : UInt16 := UInt16.ofNat (hi.toNat * 256 + lo.toNat)

theorem hiByte_toNat (x : UInt16) : (hiByte x).toNat = x.toNat / 256 := by
  have := x.toNat_lt
  rw [hiByte, UInt8.ofNat_toNat_mod]
  omega

theorem loByte_toNat (x : UInt16) : (loByte x).toNat = x.toNat % 256 := by
  rw [loByte, UInt8.ofNat_toNat_mod]

theorem u16FromBeBytes_toNat (hi lo : UInt8) :
    (u16FromBeBytes hi lo).toNat = hi.toNat * 256 + lo.toNat := by
  have h1 := hi.toNat_lt
  have h2 := lo.toNat_lt
  rw [u16FromBeBytes, UInt16.ofNat_toNat_mod]
  omega

@[simp] theorem u16FromBeBytes_toBeBytes (x : UInt16) : u16FromBeBytes (hiByte x) (loByte x) = x := by
  apply UInt16.toNat_inj.mp
  rw [u16FromBeBytes_toNat, hiByte_toNat, loByte_toNat]
  omega

@[simp] theorem hiByte_fromBeBytes (hi lo : UInt8) : hiByte (u16FromBeBytes hi lo) = hi := by
  have := lo.toNat_lt
  apply UInt8.toNat_inj.mp
  rw [hiByte_toNat, u16FromBeBytes_toNat]
  omega

@[simp] theorem loByte_fromBeBytes (hi lo : UInt8) : loByte (u16FromBeBytes hi lo) = lo := by
  have := lo.toNat_lt
  apply UInt8.toNat_inj.mp
  rw [loByte_toNat, u16FromBeBytes_toNat]
  omega

@[simp] theorem length_u16ToBeBytes (x : UInt16) : (u16ToBeBytes x).length = 2 := rfl

/-! ### Word lists -/

/-- Whole words of a byte string, two bytes each; an odd last byte is dropped. -/
def wordsOfBytes : Bytes → List UInt16
  | hi :: lo :: rest => u16FromBeBytes hi lo :: wordsOfBytes rest
  | _ => []

def bytesOfWords (ws : List UInt16) : Bytes := ws.flatMap u16ToBeBytes

@[simp] theorem bytesOfWords_nil : bytesOfWords [] = [] := rfl

@[simp] theorem bytesOfWords_cons (w : UInt16) (ws : List UInt16) :
    bytesOfWords (w :: ws) = hiByte w :: loByte w :: bytesOfWords ws := rfl

@[simp] theorem length_bytesOfWords (ws : List UInt16) : (bytesOfWords ws).length = 2 * ws.length := by
  induction ws with
  | nil => rfl
  | cons w ws ih => simp only [bytesOfWords_cons, List.length_cons, ih]; omega

@[simp] theorem wordsOfBytes_bytesOfWords (ws : List UInt16) : wordsOfBytes (bytesOfWords ws) = ws := by
  induction ws with
  | nil => rfl
  | cons w ws ih => simp [wordsOfBytes, ih]

theorem length_wordsOfBytes (bs : Bytes) : (wordsOfBytes bs).length = bs.length / 2 := by
  induction bs using wordsOfBytes.induct with
  | case1 hi lo rest ih => simp only [wordsOfBytes, List.length_cons, ih]; omega
  | case2 bs h =>
    match bs, h with
    | [], _ => rfl
    | [b], _ => simp [wordsOfBytes]
    | hi :: lo :: rest, h => exact absurd rfl (h hi lo rest)

theorem bytesOfWords_wordsOfBytes {bs : Bytes} (h : bs.length % 2 = 0) :
    bytesOfWords (wordsOfBytes bs) = bs := by
  induction bs using wordsOfBytes.induct with
  | case1 hi lo rest ih =>
    have hrest : rest.length % 2 = 0 := by simp only [List.length_cons] at h; omega
    simp [wordsOfBytes, ih hrest]
  | case2 bs hne =>
    match bs, hne with
    | [], _ => rfl
    | [b], _ => simp at h
    | hi :: lo :: rest, hne => exact absurd rfl (hne hi lo rest)

end InfusedModbus.Foundation
