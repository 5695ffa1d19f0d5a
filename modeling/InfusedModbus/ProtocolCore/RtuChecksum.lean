import InfusedModbus.Protocol.RtuChecksum
import InfusedModbus.ProtocolCore.Adu

/-! The checksum of the port. It writes and checks frames as the original does, so it
catches the same changes. -/

namespace InfusedModbus.ProtocolCore

open Foundation Foundation.Outcome Protocol

namespace RtuAdu

theorem toProtocol_injective {adu adu' : RtuAdu} (h : adu.toProtocol = adu'.toProtocol) : adu = adu' := by
  obtain ⟨unitId, ⟨bytes, hle⟩⟩ := adu
  obtain ⟨unitId', ⟨bytes', hle'⟩⟩ := adu'
  obtain ⟨rfl, rfl⟩ := Protocol.RtuAdu.mk.inj h
  rfl

/-- The frame of a unit is read back as that unit. -/
theorem decode_encode {adu : RtuAdu} {buffer : AduBytes} (hframe : buffer.asSlice = adu.toProtocol.encode) :
    decode buffer.asSlice = .ok adu := by
  have hle : adu.toProtocol.pdu.length ≤ maxPduLen := adu.pdu.len_le
  have hsame := decode_eq buffer.asSlice
  rw [hframe, Protocol.RtuAdu.decode_encode, mapErr_ok, ok_bind, if_neg (by omega)] at hsame
  obtain ⟨adu', hdec, heq⟩ := map_eq_ok.mp hsame
  rw [hframe, hdec, toProtocol_injective heq]

/-- What the original refuses for its checksum, the port does too. -/
theorem decode_of_crcMismatch {bytes : Bytes} {expected actual : UInt16}
    (h : Protocol.RtuAdu.decode bytes = .err (.crcMismatch expected actual)) :
    decode bytes = .err (.crcMismatch expected actual) := by
  have hsame := decode_eq bytes
  rw [h] at hsame
  cases hdec : decode bytes with
  | ok adu =>
    rw [hdec] at hsame
    cases hsame
  | err error =>
    rw [hdec] at hsame
    change Outcome.err error = .err (.crcMismatch expected actual) at hsame
    rw [Outcome.err.inj hsame]
  | panic =>
    rw [hdec] at hsame
    cases hsame

end RtuAdu

/-- A serial frame is read back as it was written, and once it was changed in one stretch
of sixteen bits, or in an odd number of bits, it is refused for its checksum. -/
theorem rtu_crc_detects_changes :
    (∀ adu : Protocol.RtuAdu, Protocol.RtuAdu.decode adu.encode = .ok adu ∧
      ∀ g : Bytes, g.length = adu.encode.length → g ≠ adu.encode →
        DifferInBurst adu.encode g ∨ DifferOddly adu.encode g →
        ∃ expected actual, Protocol.RtuAdu.decode g = .err (.crcMismatch expected actual)) ∧
    ∀ adu : RtuAdu, ∃ buffer, (RtuAdu.encode adu : Outcome Empty AduBytes) = .ok buffer ∧
      RtuAdu.decode buffer.asSlice = .ok adu ∧
      ∀ g : Bytes, g.length = buffer.asSlice.length → g ≠ buffer.asSlice →
        DifferInBurst buffer.asSlice g ∨ DifferOddly buffer.asSlice g →
        ∃ expected actual, RtuAdu.decode g = .err (.crcMismatch expected actual) := by
  constructor
  · exact fun adu => ⟨adu.decode_encode, fun _ => adu.decode_of_changed⟩
  · intro adu
    obtain ⟨buffer, hencode, hframe⟩ := map_eq_ok.mp (@RtuAdu.encode_eq Empty adu)
    refine ⟨buffer, hencode, RtuAdu.decode_encode hframe, fun g hlen hne h => ?_⟩
    rw [hframe] at hlen hne h
    obtain ⟨expected, actual, hrefused⟩ := adu.toProtocol.decode_of_changed hlen hne h
    exact ⟨expected, actual, RtuAdu.decode_of_crcMismatch hrefused⟩

/-- A burst of sixteen bits that begins in the function code and ends in the checksum. -/
theorem rtu_crc_detects_changes_burst :
    (Protocol.RtuAdu.mk 0x11 [0x07]).encode = [0x11, 0x07, 0x4c, 0x22] ∧
      ∃ expected actual, Protocol.RtuAdu.decode [0x11, 0x87, 0xb3, 0x62] = .err (.crcMismatch expected actual) := by
  have hframe : (Protocol.RtuAdu.mk 0x11 [0x07]).encode = [0x11, 0x07, 0x4c, 0x22] := by decide +kernel
  have hinside : ∀ i < 32, bitAt [0x11, 0x07, 0x4c, 0x22] i ≠ bitAt [0x11, 0x87, 0xb3, 0x62] i →
      15 ≤ i ∧ i < 15 + 16 := by decide
  have hburst : DifferInBurst [0x11, 0x07, 0x4c, 0x22] [0x11, 0x87, 0xb3, 0x62] := by
    refine ⟨15, fun i hi => ?_⟩
    by_cases hlast : i < 32
    · exact hinside i hlast hi
    · refine absurd ?_ hi
      rw [bitAt_of_length_le (by simp; omega), bitAt_of_length_le (by simp; omega)]
  refine ⟨hframe, (rtu_crc_detects_changes.1 ⟨0x11, [0x07]⟩).2 _ ?_ ?_ ?_⟩
  · rw [hframe]
    rfl
  · rw [hframe]
    decide
  · rw [hframe]
    exact .inl hburst

end InfusedModbus.ProtocolCore
