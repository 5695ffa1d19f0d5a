import InfusedModbus.ProtocolCore.Pdu.Words

/-! No byte string crashes or hangs a decoder, of the original codec or of the port. -/

namespace InfusedModbus.ProtocolCore

open Foundation Foundation.Outcome Protocol

/-- A turn moves the offset strictly forward within the bytes, also on words of 32 bits or
more that can count them. -/
structure SafeTurn {α : Type} (bytes : Bytes) (read : Reader Protocol.DecodeError α)
    (readUsize : ℕ → Reader Protocol.DecodeError α) : Prop where
  forward : Advances read bytes.length
  words : ∀ w offset, 32 ≤ w → bytes.length < 2 ^ (w - 1) → offset ≤ bytes.length → readUsize w offset = read offset

/-- The loops of both codecs take such turns: a number of them fixed before, or as long as
the offset is below a limit fixed before. -/
structure SafeLoops (bytes : Bytes) : Prop where
  subRequests : SafeTurn bytes (readSubRequest bytes) (readSubRequestUsize · bytes) ∧
    ReadsTimes (readSubRequest bytes) (Protocol.decodeSubRequests bytes) ∧
    FoldsTimes (ported (readSubRequest bytes)) (pushed FileRecordSubRequests.push) (decodeSubRequests bytes)
  records : SafeTurn bytes (readRecord bytes) (readRecordUsize · bytes) ∧
    ∀ limit, ReadsWhile (readRecord bytes) limit (Protocol.decodeRecords bytes limit) ∧
      FoldsWhile (ported (readRecord bytes)) (pushed FileRecordResponseData.pushRecord) limit
        (decodeRecords bytes limit)
  writeSubRequests : SafeTurn bytes (readWriteSubRequest bytes) (readWriteSubRequestUsize · bytes) ∧
    ∀ limit, ReadsWhile (readWriteSubRequest bytes) limit (Protocol.decodeWriteSubRequests bytes limit) ∧
      FoldsWhile (ported (readWriteSubRequest bytes))
        (pushed fun (list : WriteFileRecordSubRequests) s => list.push s.fileNumber s.recordNumber s.recordData) limit
        (decodeWriteSubRequests bytes limit)
  objects : SafeTurn bytes (readObject bytes) (readObjectUsize · bytes) ∧
    ReadsTimes (readObject bytes) (Protocol.decodeObjects bytes) ∧
    FoldsTimes (ported (readObject bytes))
      (pushed fun (list : DeviceIdentificationObjects) o => list.push o.id o.value) (decodeObjects bytes)

/-- Every sum, product and difference of a decoder on words of `w` bits, panicking where it
does not fit: nothing panics, and the result is that on natural numbers. -/
def SameOnWords {ε α : Type} (onWords decoded : Outcome ε α) : Prop := onWords ≠ .panic ∧ onWords = decoded

/-- The decoders of both codecs on words of `w` bits. -/
structure SafeWords (bytes : Bytes) (w : ℕ) : Prop where
  pdus : ∀ k, SameOnWords (Protocol.decodeUsize w k bytes) (Protocol.decode k bytes) ∧
    SameOnWords (decodeUsize w k bytes) (decode k bytes)
  tcpAdus : SameOnWords (Protocol.TcpAdu.decodeUsize w bytes) (Protocol.TcpAdu.decode bytes) ∧
    SameOnWords (TcpAdu.decodeUsize w bytes) (TcpAdu.decode bytes)
  rtuAdus : SameOnWords (Protocol.RtuAdu.decodeUsize w bytes) (Protocol.RtuAdu.decode bytes) ∧
    SameOnWords (RtuAdu.decodeUsize w bytes) (RtuAdu.decode bytes)

theorem safeLoops (bytes : Bytes) : SafeLoops bytes where
  subRequests := ⟨⟨advances_readSubRequest bytes, fun _ _ => readSubRequestUsize_eq⟩,
    readsTimes_decodeSubRequests bytes, foldsTimes_decodeSubRequests bytes⟩
  records := ⟨⟨advances_readRecord bytes, fun _ _ => readRecordUsize_eq⟩,
    fun limit => ⟨readsWhile_decodeRecords bytes limit, foldsWhile_decodeRecords bytes limit⟩⟩
  writeSubRequests := ⟨⟨advances_readWriteSubRequest bytes, fun _ _ => readWriteSubRequestUsize_eq⟩,
    fun limit => ⟨readsWhile_decodeWriteSubRequests bytes limit, foldsWhile_decodeWriteSubRequests bytes limit⟩⟩
  objects := ⟨⟨advances_readObject bytes, fun _ _ => readObjectUsize_eq⟩,
    readsTimes_decodeObjects bytes, foldsTimes_decodeObjects bytes⟩

theorem sameOnWords {ε α : Type} {onWords decoded : Outcome ε α} (h : onWords = decoded) (hne : decoded ≠ .panic) :
    SameOnWords onWords decoded := ⟨h ▸ hne, h⟩

theorem safeWords {bytes : Bytes} {w : ℕ} (hw : 32 ≤ w) (hbuffer : bytes.length < 2 ^ (w - 1)) : SafeWords bytes w where
  pdus k := ⟨sameOnWords (Protocol.decodeUsize_eq hw hbuffer k) (Protocol.decode_ne_panic k bytes),
    sameOnWords (decodeUsize_eq hw hbuffer k) (decode_ne_panic k bytes)⟩
  tcpAdus := ⟨sameOnWords (Protocol.TcpAdu.decodeUsize_eq hw) (Protocol.TcpAdu.decode_ne_panic bytes),
    sameOnWords (TcpAdu.decodeUsize_eq hw hbuffer) (TcpAdu.decode_ne_panic bytes)⟩
  rtuAdus := ⟨sameOnWords (Protocol.RtuAdu.decodeUsize_eq hw hbuffer) (Protocol.RtuAdu.decode_ne_panic bytes),
    sameOnWords (RtuAdu.decodeUsize_eq hw hbuffer) (RtuAdu.decode_ne_panic bytes)⟩

/-- No byte string crashes or hangs a decoder, on natural numbers or on words that can
count its bytes; a buffer holds at most half as many bytes as a word has values. -/
theorem decoders_are_safe (bytes : Bytes) :
    (∀ k, Protocol.decode k bytes ≠ .panic ∧ decode k bytes ≠ .panic) ∧
      (Protocol.TcpAdu.decode bytes ≠ .panic ∧ TcpAdu.decode bytes ≠ .panic) ∧
      (Protocol.RtuAdu.decode bytes ≠ .panic ∧ RtuAdu.decode bytes ≠ .panic) ∧
      SafeLoops bytes ∧ ∀ w, 32 ≤ w → bytes.length < 2 ^ (w - 1) → SafeWords bytes w :=
  ⟨fun k => ⟨Protocol.decode_ne_panic k bytes, decode_ne_panic k bytes⟩,
    ⟨Protocol.TcpAdu.decode_ne_panic bytes, TcpAdu.decode_ne_panic bytes⟩,
    ⟨Protocol.RtuAdu.decode_ne_panic bytes, RtuAdu.decode_ne_panic bytes⟩,
    safeLoops bytes, fun _ => safeWords⟩

/-- A truncated identification is refused on 64-bit words, and a unit whose length field is
zero on 32-bit ones. -/
theorem decoders_are_safe_truncated :
    decode .readDeviceIdentificationResponse [0x2B, 0x0E, 0x01, 0x81, 0x00, 0x00, 0xFF, 0x80, 0xFF] ≠ .panic ∧
      SafeWords [0x2B, 0x0E, 0x01, 0x81, 0x00, 0x00, 0xFF, 0x80, 0xFF] 64 ∧
      SafeWords [0x00, 0x01, 0x00, 0x00, 0x00, 0x00, 0x11] 32 :=
  ⟨((decoders_are_safe _).1 _).2, (decoders_are_safe _).2.2.2.2 64 (by decide) (by decide),
    (decoders_are_safe _).2.2.2.2 32 (by decide) (by decide)⟩

end InfusedModbus.ProtocolCore
