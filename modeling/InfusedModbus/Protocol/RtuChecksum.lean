import InfusedModbus.Foundation.BitPack
import InfusedModbus.Foundation.ShiftRegister
import InfusedModbus.Protocol.Adu

/-! What the checksum of a serial frame catches. The eight shifts of a byte are those of a
shift register fed with its bits, the lowest first, and the checksum itself is sent low
byte first, so feeding a whole frame leaves nothing in the register exactly when its
checksum is right. -/

namespace InfusedModbus.Protocol

open Foundation Foundation.Outcome ShiftRegister

/-- The polynomial `x^16 + x^15 + x^2 + 1`, the highest power left out and the next one
lowest. -/
def crcTaps : BitVec 16 := 0xA001

/-- The bits of some bytes in the order in which they are sent. -/
def sentBits (bytes : Bytes) : List Bool := unpackBits (8 * bytes.length) bytes

/-- What is left in the register after a whole frame. -/
def residue (bytes : Bytes) : BitVec 16 := feed crcTaps 0xFFFF (sentBits bytes)

/-! ### The loop as a shift register -/

theorem toBitVec_crcShift (c : UInt16) : (crcShift c).toBitVec = shift crcTaps c.toBitVec := by
  have hlow : c &&& 0x0001 ≠ 0 ↔ c.toBitVec.getLsbD 0 = true := by
    have hand : (c &&& 0x0001).toNat = c.toNat % 2 := by
      rw [UInt16.toNat_and, show (0x0001 : UInt16).toNat = 1 from rfl, Nat.and_one_is_mod]
    have hbit : c.toBitVec.getLsbD 0 = decide (c.toNat % 2 = 1) := by
      rw [BitVec.getLsbD, UInt16.toNat_toBitVec, Nat.testBit_zero]
    rw [hbit, decide_eq_true_eq, ne_eq, ← UInt16.toNat_inj, hand, UInt16.toNat_zero]
    omega
  unfold crcShift shift
  by_cases h : c &&& 0x0001 ≠ 0
  · rw [if_pos h, if_pos (hlow.mp h)]
    rfl
  · rw [if_neg h, if_neg (fun hbit => h (hlow.mpr hbit)), BitVec.xor_zero]
    rfl

theorem toBitVec_iterate_crcShift (n : ℕ) (c : UInt16) :
    (crcShift^[n] c).toBitVec = (shift crcTaps)^[n] c.toBitVec := by
  induction n generalizing c with
  | zero => rfl
  | succ n ih => rw [Function.iterate_succ_apply, Function.iterate_succ_apply, ih, toBitVec_crcShift]

theorem sentBits_cons (byte : UInt8) (bytes : Bytes) :
    sentBits (byte :: bytes) = (List.range 8).map (fun i => byte.toNat.testBit i) ++ sentBits bytes := by
  have hbyte : (List.range 8).map (fun bit => byte &&& bitMask bit != 0) =
      (List.range 8).map fun i => byte.toNat.testBit i :=
    List.map_congr_left fun i hi => testMask (List.mem_range.mp hi) byte
  rw [sentBits, ← flatMap_bits_eq_unpackBits, List.flatMap_cons, flatMap_bits_eq_unpackBits, hbyte]
  rfl

theorem sentBits_append (bytes bytes' : Bytes) : sentBits (bytes ++ bytes') = sentBits bytes ++ sentBits bytes' := by
  induction bytes with
  | nil => rfl
  | cons byte bytes ih => rw [List.cons_append, sentBits_cons, sentBits_cons, ih, List.append_assoc]

/-- A byte goes through the register bit by bit. -/
theorem toBitVec_crcByte (c : UInt16) (byte : UInt8) :
    (crcByte c byte).toBitVec = feed crcTaps c.toBitVec ((List.range 8).map fun i => byte.toNat.testBit i) := by
  have hload : load 16 ((List.range 8).map fun i => byte.toNat.testBit i) = byte.toUInt16.toBitVec := by
    apply BitVec.eq_of_getLsbD_eq
    intro i hi
    rw [getLsbD_load _ hi, BitVec.getLsbD, UInt16.toNat_toBitVec, UInt8.toNat_toUInt16]
    by_cases hbyte : i < 8
    · simp [hbyte]
    · have hpow : 2 ^ 8 ≤ 2 ^ i := Nat.pow_le_pow_right (by omega) (by omega)
      have hlt := byte.toNat_lt
      rw [List.getD_eq_default _ _ (by simp; omega), Nat.testBit_eq_false_of_lt (by omega)]
  rw [feed_eq_iterate _ (by simp), hload, crcByte, toBitVec_iterate_crcShift, UInt16.toBitVec_xor, List.length_map,
    List.length_range]

theorem toBitVec_foldl_crcByte (c : UInt16) (bytes : Bytes) :
    (bytes.foldl crcByte c).toBitVec = feed crcTaps c.toBitVec (sentBits bytes) := by
  induction bytes generalizing c with
  | nil => rfl
  | cons byte bytes ih => rw [List.foldl_cons, ih, toBitVec_crcByte, sentBits_cons, feed_append]

theorem toBitVec_crc16Modbus (bytes : Bytes) : (crc16Modbus bytes).toBitVec = residue bytes :=
  toBitVec_foldl_crcByte 0xFFFF bytes

theorem load_sentBits (lo hi : UInt8) : load 16 (sentBits [lo, hi]) = (u16FromBeBytes hi lo).toBitVec := by
  apply BitVec.eq_of_getLsbD_eq
  intro i hbound
  rw [getLsbD_load _ hbound, BitVec.getLsbD, UInt16.toNat_toBitVec, u16FromBeBytes_toNat, Nat.mul_comm,
    show 256 = 2 ^ 8 from rfl, Nat.testBit_two_pow_mul_add _ lo.toNat_lt]
  have hbit : (sentBits [lo, hi]).getD i false = bitAt [lo, hi] i := by
    rw [sentBits, unpackBits, List.getD_eq_getElem?_getD, List.getElem?_map, List.getElem?_range (by simpa using hbound)]
    rfl
  rw [hbit, bitAt]
  by_cases hlow : i < 8
  · rw [if_pos hlow, show i / 8 = 0 by omega, Nat.mod_eq_of_lt hlow]
    rfl
  · rw [if_neg hlow, show i / 8 = 1 by omega, show i % 8 = i - 8 by omega]
    rfl

/-- After a frame nothing is left exactly when it ends in the checksum of what comes before. -/
theorem residue_eq_zero_iff (body : Bytes) (lo hi : UInt8) :
    residue (body ++ [lo, hi]) = 0#16 ↔ u16FromBeBytes hi lo = crc16Modbus body := by
  have htop : crcTaps.getLsbD (16 - 1) = true := by decide
  have hfeed : residue (body ++ [lo, hi]) =
      (shift crcTaps)^[16] ((crc16Modbus body).toBitVec ^^^ (u16FromBeBytes hi lo).toBitVec) := by
    rw [residue, sentBits_append, feed_append, ← residue, ← toBitVec_crc16Modbus, feed_eq_iterate _ (by simp [sentBits]),
      load_sentBits]
    rfl
  rw [hfeed]
  constructor
  · intro h
    have hxor : (crc16Modbus body).toBitVec ^^^ (u16FromBeBytes hi lo).toBitVec = 0#16 := by
      by_contra hne
      exact iterate_shift_ne_zero htop hne 16 h
    exact (UInt16.toBitVec_inj.mp (BitVec.xor_eq_zero_iff.mp hxor)).symm
  · intro h
    rw [h, BitVec.xor_self, iterate_shift_zero]

/-! ### Frames -/

namespace RtuAdu

/-- What is made of a frame by its last two bytes. -/
theorem decode_append (unitId : UInt8) (pdu : Bytes) (lo hi : UInt8) :
    decode (unitId :: pdu ++ [lo, hi]) =
      if u16FromBeBytes hi lo ≠ crc16Modbus (unitId :: pdu) then
        .err (.crcMismatch (crc16Modbus (unitId :: pdu)) (u16FromBeBytes hi lo))
      else .ok ⟨unitId, pdu⟩ := by
  have hcut : (unitId :: pdu ++ [lo, hi]).length - rtuCrcLen = (unitId :: pdu).length := by
    simp [rtuCrcLen]
  have hlo : (index (unitId :: pdu ++ [lo, hi]) (unitId :: pdu).length : Outcome DecodeError UInt8) = .ok lo :=
    index_of_drop List.drop_left
  have hhi : (index (unitId :: pdu ++ [lo, hi]) ((unitId :: pdu).length + 1) : Outcome DecodeError UInt8) = .ok hi := by
    rw [index_add, List.drop_left]
    rfl
  rw [decode, if_neg (by simp [rtuMinFrameLen, rtuCrcLen])]
  dsimp only
  rw [hcut, hlo, hhi, slice_append _ _ rfl]
  simp only [ok_bind]
  split
  · rfl
  · rw [List.cons_append, rtuUnitIdByte, index_cons_zero, ok_bind, slice_of_le (by simp) le_rfl, ok_bind]
    simp

theorem residue_encode (adu : RtuAdu) : residue adu.encode = 0#16 := by
  rw [encode]
  exact (residue_eq_zero_iff _ _ _).mpr (u16FromBeBytes_toBeBytes _)

/-- A frame that leaves something in the register is refused for its checksum. -/
theorem decode_of_residue_ne_zero {bytes : Bytes} (hlen : rtuMinFrameLen ≤ bytes.length) (h : residue bytes ≠ 0#16) :
    ∃ expected actual, decode bytes = .err (.crcMismatch expected actual) := by
  have hmin : rtuMinFrameLen = 3 := rfl
  obtain ⟨unitId, rest, rfl⟩ := List.exists_cons_of_ne_nil (List.ne_nil_of_length_pos (by omega : 0 < bytes.length))
  rw [List.length_cons] at hlen
  obtain ⟨lo, hi, hlast⟩ := List.length_eq_two.mp (show (rest.drop (rest.length - 2)).length = 2 by
    rw [List.length_drop]; omega)
  have hrest : rest = rest.take (rest.length - 2) ++ [lo, hi] := by rw [← hlast, List.take_append_drop]
  rw [hrest, ← List.cons_append] at h ⊢
  rw [decode_append, if_pos fun heq => h ((residue_eq_zero_iff _ _ _).mpr heq)]
  exact ⟨_, _, rfl⟩

end RtuAdu

/-! ### Errors -/

/-- The two strings differ in no bits but those of one stretch of sixteen. -/
def DifferInBurst (f g : Bytes) : Prop := ∃ start, ∀ i, bitAt f i ≠ bitAt g i → start ≤ i ∧ i < start + 16

/-- The two strings differ in an odd number of bits. -/
def DifferOddly (f g : Bytes) : Prop := (List.range (8 * f.length)).countP (fun i => bitAt f i != bitAt g i) % 2 = 1

section Errors

variable {f g : Bytes}

/-- The bits that two strings differ in. -/
def difference (f g : Bytes) : List Bool := (List.range (8 * f.length)).map fun i => bitAt f i ^^ bitAt g i

theorem getD_difference (hlen : g.length = f.length) (i : ℕ) :
    (difference f g).getD i false = (bitAt f i ^^ bitAt g i) := by
  rw [difference, List.getD_eq_getElem?_getD, List.getElem?_map]
  by_cases hi : i < 8 * f.length
  · rw [List.getElem?_range hi]
    rfl
  · rw [List.getElem?_eq_none (by simp; omega), bitAt_of_length_le (by omega), bitAt_of_length_le (by omega)]
    rfl

theorem residue_xor (hlen : g.length = f.length) :
    residue f ^^^ residue g = feed crcTaps 0#16 (difference f g) := by
  have hbits : List.zipWith (· ^^ ·) (sentBits f) (sentBits g) = difference f g := by
    rw [sentBits, sentBits, hlen, unpackBits, unpackBits, List.zipWith_map_left, List.zipWith_map_right,
      List.zipWith_self]
    rfl
  rw [residue, residue, feed_xor _ _ (by simp [sentBits, hlen]), BitVec.xor_self, hbits]

/-- The register tells apart strings that differ in a burst. -/
theorem residue_ne_of_burst (hlen : g.length = f.length) (hne : g ≠ f) (h : DifferInBurst f g) :
    residue f ≠ residue g := by
  obtain ⟨start, hwindow⟩ := h
  have hsome : ∃ i, bitAt f i ≠ bitAt g i := by
    by_contra hall
    apply hne
    apply eq_of_bitAt hlen
    intro i _
    by_contra hbit
    exact hall ⟨i, fun heq => hbit heq.symm⟩
  intro heq
  have hzero := residue_xor hlen
  rw [heq, BitVec.xor_self] at hzero
  refine @feed_zero_ne_zero 16 crcTaps (by decide) (difference f g) start ?_ ?_ hzero.symm
  · intro i hi
    rw [getD_difference hlen, bne_iff_ne] at hi
    exact hwindow i hi
  · obtain ⟨i, hi⟩ := hsome
    exact ⟨i, by rw [getD_difference hlen, bne_iff_ne]; exact hi⟩

/-- It tells apart strings that differ in an odd number of bits. -/
theorem residue_ne_of_odd (hlen : g.length = f.length) (h : DifferOddly f g) : residue f ≠ residue g := by
  have hcount : ∀ is : List ℕ, (is.map fun i => bitAt f i ^^ bitAt g i).foldr (· ^^ ·) false =
      decide (is.countP (fun i => bitAt f i != bitAt g i) % 2 = 1) := by
    intro is
    induction is with
    | nil => rfl
    | cons i is ih =>
      rw [List.map_cons, List.foldr_cons, ih, List.countP_cons]
      change ((bitAt f i != bitAt g i) ^^ _) = _
      cases bitAt f i != bitAt g i with
      | false => simp
      | true =>
        rw [if_pos rfl, Bool.true_xor, ← decide_not, decide_eq_decide]
        omega
  intro heq
  have hzero := residue_xor hlen
  rw [heq, BitVec.xor_self] at hzero
  have hparity := parity_feed (show 0 < 16 by decide) (show parity crcTaps = true by decide) 0#16 (difference f g)
  rw [← hzero, parity_zero, difference, hcount, Bool.false_xor, eq_comm, decide_eq_false_iff_not] at hparity
  exact hparity h

/-- A frame that was changed in a burst, or in an odd number of bits, is refused. -/
theorem RtuAdu.decode_of_changed (adu : RtuAdu) (hlen : g.length = adu.encode.length) (hne : g ≠ adu.encode)
    (h : DifferInBurst adu.encode g ∨ DifferOddly adu.encode g) :
    ∃ expected actual, decode g = .err (.crcMismatch expected actual) := by
  have hresidue : residue adu.encode ≠ residue g := by
    rcases h with hburst | hodd
    · exact residue_ne_of_burst hlen hne hburst
    · exact residue_ne_of_odd hlen hodd
  rw [RtuAdu.residue_encode] at hresidue
  refine RtuAdu.decode_of_residue_ne_zero ?_ hresidue.symm
  rw [hlen, RtuAdu.length_encode, rtuMinFrameLen, rtuCrcLen]
  omega

end Errors

end InfusedModbus.Protocol
