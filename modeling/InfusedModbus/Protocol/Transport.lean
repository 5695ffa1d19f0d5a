import InfusedModbus.Protocol.Adu

/-! Reading frames off a stream. Over TCP the length field of the header says where a
frame ends; over a serial line a silence does. Both readers take the bytes one at a
time, in whatever pieces they arrive, and can be abandoned between any two of them. -/

namespace InfusedModbus.Protocol

open Foundation Foundation.Outcome

inductive ErrorKind where
  | invalidData
  | timedOut
  | unexpectedEof
  | other
  deriving DecidableEq, Repr

structure IoError where
  kind : ErrorKind
  message : String
  deriving DecidableEq, Repr

/-- The text of a field in a `Debug` rendering. -/
def debugField (field : String) (value : ℕ) : String := field ++ ": " ++ toString value

def debugStruct (name : String) (fields : List String) : String :=
  name ++ " \x7b " ++ String.intercalate ", " fields ++ " \x7d"

/-- The `Debug` text of an error, as it appears in the errors of the transports. -/
def DecodeError.debug : DecodeError → String
  | .tooShort => "TooShort"
  | .unexpectedFunctionCode expected actual =>
    debugStruct "UnexpectedFunctionCode" [debugField "expected" expected.toNat, debugField "actual" actual.toNat]
  | .oddByteCount byteCount => debugStruct "OddByteCount" [debugField "byte_count" byteCount.toNat]
  | .notAnExceptionResponse functionCode =>
    debugStruct "NotAnExceptionResponse" [debugField "function_code" functionCode.toNat]
  | .invalidCoilValue actual => debugStruct "InvalidCoilValue" [debugField "actual" actual.toNat]
  | .quantityByteCountMismatch quantity byteCount =>
    debugStruct "QuantityByteCountMismatch"
      [debugField "quantity" quantity.toNat, debugField "byte_count" byteCount.toNat]
  | .unexpectedMeiType expected actual =>
    debugStruct "UnexpectedMeiType" [debugField "expected" expected.toNat, debugField "actual" actual.toNat]
  | .unexpectedProtocolId actual => debugStruct "UnexpectedProtocolId" [debugField "actual" actual.toNat]
  | .invalidAduLength length => debugStruct "InvalidAduLength" [debugField "length" length.toNat]
  | .crcMismatch expected actual =>
    debugStruct "CrcMismatch" [debugField "expected" expected.toNat, debugField "actual" actual.toNat]
  | .invalidFileRecordByteCount byteCount =>
    debugStruct "InvalidFileRecordByteCount" [debugField "byte_count" byteCount.toNat]
  | .invalidFileRecordReferenceType actual =>
    debugStruct "InvalidFileRecordReferenceType" [debugField "actual" actual.toNat]
  | .invalidFileRecordSubResponseLength length =>
    debugStruct "InvalidFileRecordSubResponseLength" [debugField "length" length.toNat]

def EncodeError.debug : EncodeError → String
  | .tooManyRegisters count max => debugStruct "TooManyRegisters" [debugField "count" count, debugField "max" max]
  | .oddFileRecordDataLength fileNumber recordNumber length =>
    debugStruct "OddFileRecordDataLength" [debugField "file_number" fileNumber.toNat,
      debugField "record_number" recordNumber.toNat, debugField "length" length]

def IoError.ofDecodeError (error : DecodeError) : IoError := ⟨.invalidData, error.debug⟩

/-- The error of a read or a write that took too long. -/
def IoError.timedOut : IoError := ⟨.timedOut, "Modbus operation timed out"⟩

/-! ### TCP -/

/-- What `read_adu` makes of the bytes it has taken so far: it waits for the next one, or ends. -/
def readAdu (received : Bytes) : Option (Outcome IoError TcpAdu) :=
  if received.length < mbapHeaderLen then none
  else
    match (readU16Be received mbapLengthByte : Outcome IoError UInt16) with
    | .ok length =>
      if length = 0 ∨ mbapMaxLength < length then
        some (.err ⟨.invalidData, "invalid MBAP length field: " ++ toString length.toNat⟩)
      else if received.length < mbapHeaderLen + (length.toNat - 1) then none
      else some ((TcpAdu.decode received).mapErr IoError.ofDecodeError)
    | .err error => some (.err error)
    | .panic => some .panic

/-- The last check of `send_request`: the response must carry the id of the request. -/
def checkTransactionId (transactionId : UInt16) (response : Outcome IoError TcpAdu) : Outcome IoError TcpAdu := do
  let response ← response
  if response.transactionId ≠ transactionId then
    .err ⟨.invalidData, "transaction id mismatch: sent " ++ toString transactionId.toNat ++ ", received " ++
      toString response.transactionId.toNat⟩
  else pure response

/-- A reader that has only seen bytes of a stream which begins with a frame can return
nothing but that frame. -/
theorem eq_of_readAdu_isPrefix {adu adu' : TcpAdu} {rest received : Bytes} (hfits : adu.pdu.length < 65535)
    (hstart : received <+: adu.encode ++ rest) (h : readAdu received = some (.ok adu')) : adu' = adu := by
  have hheader : mbapHeaderLen ≤ received.length := by
    by_contra hshort
    rw [readAdu, if_pos (by omega)] at h
    cases h
  obtain ⟨n, hn⟩ := Nat.exists_eq_add_of_le hheader
  have hreceived : received = hiByte adu.transactionId :: loByte adu.transactionId :: 0 :: 0 ::
      hiByte (UInt16.ofNat (adu.pdu.length + 1)) :: loByte (UInt16.ofNat (adu.pdu.length + 1)) ::
      adu.unitId :: (adu.pdu ++ rest).take n := by
    rw [List.prefix_iff_eq_take.mp hstart, hn, TcpAdu.encode_eq]
    simp [mbapHeaderLen, Nat.add_comm 7 n]
  have hlengthField : (readU16Be received mbapLengthByte : Outcome IoError UInt16) =
      .ok (UInt16.ofNat (adu.pdu.length + 1)) := by
    rw [hreceived]
    simp [mbapLengthByte]
  rw [readAdu, if_neg (by omega), hlengthField] at h
  dsimp only at h
  split at h
  · cases h
  · next hvalid =>
    rw [TcpAdu.lengthField_toNat hfits, hn] at h
    split at h
    · cases h
    · next hlong =>
      have hpdu : adu.pdu.length ≤ 253 := by
        have hmax : ¬mbapMaxLength < UInt16.ofNat (adu.pdu.length + 1) := fun hlt => hvalid (.inr hlt)
        rw [UInt16.lt_iff_toNat_lt, TcpAdu.lengthField_toNat hfits] at hmax
        simp only [mbapMaxLength, UInt16.reduceToNat] at hmax
        omega
      have hwhole : received = adu.encode ++ rest.take (n - adu.pdu.length) := by
        rw [hreceived, List.take_append, List.take_of_length_le (by omega)]
        rfl
      rw [hwhole, TcpAdu.decode_encode_append hpdu] at h
      exact (ok.inj (Option.some.inj h)).symm

/-! ### RTU -/

def rtuMaxFrameLen : ℕ := 256

/-- How one wait of `read_rtu_frame` ends. -/
inductive ReadResult where
  | byte (b : UInt8)
  | closed
  | elapsed
  | failed (error : IoError)

def ReadResult.isByte : ReadResult → Bool
  | .byte _ => true
  | _ => false

/-- A turn of `read_rtu_frame`: the frame so far, or the end of the loop. -/
def readRtuFrameTurn (frame : Bytes) : ReadResult → Bytes ⊕ Outcome IoError Bytes
  | .byte b =>
    if rtuMaxFrameLen < (frame ++ [b]).length then
      .inr (.err ⟨.invalidData, "RTU frame exceeded the maximum possible ADU length without a silence gap"⟩)
    else .inl (frame ++ [b])
  | .closed =>
    if frame = [] then .inr (.err ⟨.unexpectedEof, "connection closed before any RTU frame data arrived"⟩)
    else .inr (.ok frame)
  | .elapsed => if frame = [] then .inr (.err .timedOut) else .inr (.ok frame)
  | .failed error => .inr (.err error)

/-- What `send_request` makes of the frame. -/
def rtuResponse (frame : Outcome IoError Bytes) : Outcome IoError RtuAdu := do
  let frame ← frame
  (RtuAdu.decode frame).mapErr IoError.ofDecodeError

end InfusedModbus.Protocol
