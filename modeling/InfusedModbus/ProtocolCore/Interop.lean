import InfusedModbus.ProtocolCore.Pdu.Message
import InfusedModbus.ProtocolCore.RtuChecksum

/-! The two codecs on one line. A device of the port and a host of the original frame
their messages alike, so either side can be at either end: the frame arrives under its
own header, and the message is the one that was written. The port writes only what it
can read itself; of what the original writes it refuses the messages that it has no
room for, and no others. -/

namespace InfusedModbus.ProtocolCore

open Foundation Foundation.Outcome Protocol

inductive Codec where
  | original
  | port
  deriving DecidableEq, Repr

inductive Transport where
  | tcp
  | rtu
  deriving DecidableEq, Repr

/-- What a frame carries beside the PDU: over TCP a transaction id and a unit id, on a
serial line the unit id. -/
@[reducible] def Transport.Header : Transport → Type
  | .tcp => UInt16 × UInt8
  | .rtu => UInt8

namespace Codec

/-- `codec` writes `m` as `pdu`. A message of the port has the fields of `m`, and its
padding bits are clear. -/
inductive Writes {k : Kind} (m : k.Payload) (pdu : Bytes) : Codec → Prop
  | original (h : Protocol.encode k m = .ok pdu) : Writes m pdu .original
  | port (v : Payload k) (hfields : toProtocol k v = m) (hpadding : ZeroPadding k v)
      (h : (encode k v).map PduBytes.asSlice = .ok pdu) : Writes m pdu .port

/-- The fields of the message in a PDU. -/
def read (k : Kind) (pdu : Bytes) : Codec → Outcome DecodeError k.Payload
  | .original => (Protocol.decode k pdu).mapErr .ofProtocol
  | .port => (decode k pdu).map (toProtocol k)

def frame (pdu : PduBytes) : Codec → (t : Transport) → t.Header → Outcome Empty Bytes
  | .original, .tcp, (transactionId, unitId) => .ok (Protocol.TcpAdu.mk transactionId unitId pdu.asSlice).encode
  | .original, .rtu, unitId => .ok (Protocol.RtuAdu.mk unitId pdu.asSlice).encode
  | .port, .tcp, (transactionId, unitId) => (TcpAdu.mk transactionId unitId pdu).encode.map AduBytes.asSlice
  | .port, .rtu, unitId => (RtuAdu.mk unitId pdu).encode.map AduBytes.asSlice

/-- The header and the PDU of a frame. -/
def unframe (bytes : Bytes) : Codec → (t : Transport) → Outcome DecodeError (t.Header × Bytes)
  | .original, .tcp =>
    ((Protocol.TcpAdu.decode bytes).mapErr .ofProtocol).map fun adu => ((adu.transactionId, adu.unitId), adu.pdu)
  | .original, .rtu => ((Protocol.RtuAdu.decode bytes).mapErr .ofProtocol).map fun adu => (adu.unitId, adu.pdu)
  | .port, .tcp => (TcpAdu.decode bytes).map fun adu => ((adu.transactionId, adu.unitId), adu.pdu.asSlice)
  | .port, .rtu => (RtuAdu.decode bytes).map fun adu => (adu.unitId, adu.pdu.asSlice)

/-! ### Frames -/

variable (pdu : PduBytes)

/-- Both put the same bytes around a PDU. -/
theorem frame_eq (codec : Codec) (t : Transport) (header : t.Header) :
    frame pdu codec t header = frame pdu .original t header := by
  cases codec with
  | original => rfl
  | port =>
    cases t with
    | tcp => exact TcpAdu.encode_eq _
    | rtu => exact RtuAdu.encode_eq _

/-- What either reads out of a frame that the original accepts and whose PDU is no longer
than a PDU may be. -/
theorem unframe_tcp {bytes : Bytes} {adu : Protocol.TcpAdu} (h : Protocol.TcpAdu.decode bytes = .ok adu)
    (codec : Codec) : unframe bytes codec .tcp = .ok ((adu.transactionId, adu.unitId), adu.pdu) := by
  cases codec with
  | original => rw [unframe, h, mapErr_ok, map_ok]
  | port =>
    have hsame := TcpAdu.decode_eq bytes
    rw [h, mapErr_ok] at hsame
    obtain ⟨adu', hdecode, rfl⟩ := map_eq_ok.mp hsame
    rw [unframe, hdecode, map_ok]
    rfl

theorem unframe_rtu {bytes : Bytes} {adu : Protocol.RtuAdu} (h : Protocol.RtuAdu.decode bytes = .ok adu)
    (hlen : adu.pdu.length ≤ maxPduLen) (codec : Codec) :
    unframe bytes codec .rtu = .ok (adu.unitId, adu.pdu) := by
  cases codec with
  | original => rw [unframe, h, mapErr_ok, map_ok]
  | port =>
    have hsame := RtuAdu.decode_eq bytes
    rw [h, mapErr_ok, ok_bind, if_neg (by omega)] at hsame
    obtain ⟨adu', hdecode, rfl⟩ := map_eq_ok.mp hsame
    rw [unframe, hdecode, map_ok]
    rfl

theorem unframe_frame (writer reader : Codec) (t : Transport) (header : t.Header) :
    ∃ bytes, frame pdu writer t header = .ok bytes ∧ unframe bytes reader t = .ok (header, pdu.asSlice) := by
  rw [frame_eq]
  cases t with
  | tcp => exact ⟨_, rfl, unframe_tcp (Protocol.TcpAdu.decode_encode pdu.len_le) reader⟩
  | rtu => exact ⟨_, rfl, unframe_rtu (Protocol.RtuAdu.decode_encode _) pdu.len_le reader⟩

/-! ### Messages -/

variable {pdu} {k : Kind} {m : k.Payload}

/-- The port writes the bytes of the original. -/
theorem Writes.encode_eq {codec : Codec} (h : codec.Writes m pdu.asSlice) : Protocol.encode k m = .ok pdu.asSlice := by
  cases h with
  | original h => exact h
  | port v hfields hpadding h =>
    subst hfields
    obtain ⟨written, hwritten, heq⟩ := map_eq_ok.mp h
    -- whatever the way of writing, there were bytes of the original to write
    have hbytes : ∃ bytes, Protocol.encode k (toProtocol k v) = .ok bytes := by
      rcases ProtocolCore.encode_eq k hpadding with hsame | hsame
      all_goals
        rw [hwritten] at hsame
        obtain ⟨bytes, hok, -⟩ := bind_eq_ok.mp hsame.symm
        exact ⟨bytes, mapErr_eq_ok.mp hok⟩
    obtain ⟨bytes, hbytes⟩ := hbytes
    rcases Nat.lt_or_ge maxPduLen bytes.length with hlong | hshort
    · rcases ProtocolCore.encode_eq k hpadding with hsame | hsame
      · rw [hwritten, hbytes, mapErr_ok, ok_bind, emit_new_of_lt hlong] at hsame
        cases hsame
      · rw [hwritten, hbytes, mapErr_ok, ok_bind, guarded, if_pos hlong] at hsame
        cases hsame
    · rw [hbytes, Outcome.ok.inj ((encode_of_le hpadding hbytes hshort).symm.trans h)]

theorem length_padBits_le {values : List Bool} (h : values.length ≤ maxBitCount) :
    (padBits values).length ≤ maxBitCount := by
  rw [padBits, List.length_append, List.length_replicate, divCeil_eight]
  rw [maxBitCount] at h ⊢
  omega

/-- The port has room for what it writes, padding included. -/
theorem Writes.representable {pdu : Bytes} (h : Codec.port.Writes m pdu) : Representable k (padded k m) := by
  cases h with
  | port v hfields hpadding h =>
    subst hfields
    cases k with
    | readCoilsResponse => exact length_padBits_le ((BitValues.length_bits _).le.trans v.coilValues.len_le)
    | readDiscreteInputsResponse =>
      exact length_padBits_le ((BitValues.length_bits _).le.trans v.discreteInputValues.len_le)
    | readFileRecordResponse =>
      exact (List.length_map _).le.trans ((FlatList.length_entries _).le.trans v.records.count_le)
    | readDeviceIdentificationResponse =>
      exact (List.length_map _).le.trans ((FlatList.length_entries _).le.trans v.objects.count_le)
    | _ => trivial

theorem read_port_of_representable {bytes : Bytes} (hlen : bytes.length ≤ maxPduLen)
    (h : Protocol.decode k bytes = .ok m) (hroom : Representable k m) : read k bytes .port = .ok m := by
  rw [read, decode_of_not_crowded hlen fun hcrowded => (crowded_iff h).mp hcrowded hroom, h, mapErr_ok]

theorem read_port_of_not_representable {bytes : Bytes} (hlen : bytes.length ≤ maxPduLen)
    (h : Protocol.decode k bytes = .ok m) (hroom : ¬Representable k m) :
    read k bytes .port = .err .tooLargeForBuffer := by
  rw [read, decode_of_crowded hlen ((crowded_iff h).mpr hroom), map_err]

end Codec

open Codec

/-- Whichever codec is at either end of either transport, a frame with an unambiguous message arrives
under the header it was sent with and is read as that message with its padding bits. The one exception
is a message of the original that the port has no room for: that one is refused as too large. -/
theorem codecs_interoperate (writer reader : Codec) (t : Transport) (header : t.Header) {k : Kind} {m : k.Payload}
    {pdu : PduBytes} (hwrites : writer.Writes m pdu.asSlice) (hm : Unambiguous k m) :
    ∃ bytes, frame pdu writer t header = .ok bytes ∧ unframe bytes reader t = .ok (header, pdu.asSlice) ∧
      ((reader = .original ∨ Representable k (padded k m)) → reader.read k pdu.asSlice = .ok (padded k m)) ∧
      (reader = .port → ¬Representable k (padded k m) →
        writer = .original ∧ reader.read k pdu.asSlice = .err .tooLargeForBuffer) := by
  have hlen : pdu.asSlice.length ≤ maxPduLen := pdu.len_le
  have hdecode := Protocol.Fits.decode_eq ⟨hwrites.encode_eq, hlen, hm⟩
  obtain ⟨bytes, hframe, hunframe⟩ := unframe_frame pdu writer reader t header
  refine ⟨bytes, hframe, hunframe, fun h => ?_, fun hport hroom => ?_⟩
  · cases reader with
    | original => rw [Codec.read, hdecode, mapErr_ok]
    | port => exact read_port_of_representable hlen hdecode (h.resolve_left Codec.noConfusion)
  · subst hport
    refine ⟨?_, read_port_of_not_representable hlen hdecode hroom⟩
    cases writer with
    | original => rfl
    | port => exact absurd hwrites.representable hroom

/-- A device of the port reports three coils over a serial line to a host of the original. -/
theorem codecs_interoperate_three_coils :
    ∃ bytes, frame ⟨[0x01, 0x01, 0x05], by decide⟩ .port .rtu 0x11 = .ok bytes ∧
      unframe bytes .original .rtu = .ok (0x11, [0x01, 0x01, 0x05]) ∧
      Codec.read .readCoilsResponse [0x01, 0x01, 0x05] .original =
        .ok ⟨[true, false, true, false, false, false, false, false]⟩ := by
  obtain ⟨coilValues, hextend, -⟩ :=
    BitValues.extendFromSlice_of_le (show BitValues.new.len + [true, false, true].length ≤ maxBitCount by decide)
  obtain ⟨hbits, hclean⟩ := BitValues.extendFromSlice_eq_ok BitValues.clean_new hextend
  have hfields : toProtocol .readCoilsResponse ⟨coilValues⟩ = ⟨[true, false, true]⟩ :=
    congrArg Protocol.ReadCoilsResponse.mk hbits
  have hwrites : @Codec.Writes .readCoilsResponse ⟨[true, false, true]⟩ [0x01, 0x01, 0x05] .port :=
    .port ⟨coilValues⟩ hfields hclean.zeroPadding
      (encode_of_le hclean.zeroPadding (by rw [hfields]; decide) (by decide))
  obtain ⟨bytes, hframe, hunframe, hread, -⟩ :=
    @codecs_interoperate .port .original .rtu 0x11 .readCoilsResponse ⟨[true, false, true]⟩
      ⟨[0x01, 0x01, 0x05], by decide⟩ hwrites trivial
  exact ⟨bytes, hframe, hunframe, hread (.inl rfl)⟩

end InfusedModbus.ProtocolCore
