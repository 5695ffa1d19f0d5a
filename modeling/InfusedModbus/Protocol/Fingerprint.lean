import InfusedModbus.Datafs.Parse

/-! Public key fingerprints and their text: thirty-two bytes in lowercase hex with
colons between them. What is printed is read back. -/

namespace InfusedModbus.Protocol

open Foundation Foundation.Outcome Datafs

def fingerprintLen : ℕ := 32

/-- A SHA-256 fingerprint of a public key. -/
structure Fingerprint where
  bytes : Bytes
  length_eq : bytes.length = fingerprintLen
  deriving DecidableEq

/-- A byte as two hex digits. -/
def hexByte (byte : UInt8) : List Char :=
  [Nat.digitChar (byte.toNat / 16), Nat.digitChar (byte.toNat % 16)]

namespace Fingerprint

def toText (fingerprint : Fingerprint) : List Char := [':'].intercalate (fingerprint.bytes.map hexByte)

/-- Why a text is no fingerprint. -/
inductive ParseError where
  | byteCount (actual : ℕ) (text : List Char)
  | invalidHexByte (byteString text : List Char)
  deriving DecidableEq, Repr

def parseByte (text byteString : List Char) : Outcome ParseError UInt8 :=
  match parseUnsigned 8 16 byteString with
  | some value => .ok (UInt8.ofNat value)
  | none => .err (.invalidHexByte byteString text)

/-- The bytes between the colons; there are thirty-two, so all of them find a place. -/
def fromStr (text : List Char) : Outcome ParseError Fingerprint :=
  let byteStrings := text.splitOn ':'
  if byteStrings.length ≠ fingerprintLen then .err (.byteCount byteStrings.length text)
  else do
    let bytes ← byteStrings.mapM' (parseByte text)
    if h : bytes.length = fingerprintLen then .ok ⟨bytes, h⟩ else .panic

theorem hexByte_spec : ∀ n < 256, parseUnsigned 8 16 (hexByte (UInt8.ofNat n)) = some n ∧
    ':' ∉ hexByte (UInt8.ofNat n) := by
  decide +kernel

theorem parseByte_hexByte (text : List Char) (byte : UInt8) : parseByte text (hexByte byte) = .ok byte := by
  have hspec := (hexByte_spec byte.toNat byte.toNat_lt).1
  rw [UInt8.ofNat_toNat] at hspec
  rw [parseByte, hspec]
  simp

/-- The colons of a printed fingerprint stand between its bytes. -/
theorem splitOn_toText (fingerprint : Fingerprint) :
    fingerprint.toText.splitOn ':' = fingerprint.bytes.map hexByte := by
  apply List.splitOn_intercalate
  · intro byteString hmem
    obtain ⟨byte, -, rfl⟩ := List.mem_map.mp hmem
    have hspec := (hexByte_spec byte.toNat byte.toNat_lt).2
    rwa [UInt8.ofNat_toNat] at hspec
  · intro hnil
    have hlen := fingerprint.length_eq
    rw [List.map_eq_nil_iff.mp hnil] at hlen
    cases hlen

/-- A printed fingerprint is read back. -/
theorem fromStr_toText (fingerprint : Fingerprint) : fromStr fingerprint.toText = .ok fingerprint := by
  have hparse : (fingerprint.bytes.map hexByte).mapM' (parseByte fingerprint.toText) = .ok fingerprint.bytes := by
    rw [mapM_map]
    have hbytes := @mapM_of_forall_ok _ _ _ (fun byte => parseByte fingerprint.toText (hexByte byte)) id
      fingerprint.bytes fun byte _ => parseByte_hexByte _ byte
    rwa [List.map_id] at hbytes
  unfold fromStr
  dsimp only
  rw [splitOn_toText, if_neg (by simp [fingerprint.length_eq]), hparse, ok_bind, dif_pos fingerprint.length_eq]

theorem toText_injective : Function.Injective toText := by
  intro a b h
  have hread := fromStr_toText a
  rw [h, fromStr_toText b] at hread
  exact (Outcome.ok.inj hread).symm

end Fingerprint

end InfusedModbus.Protocol
