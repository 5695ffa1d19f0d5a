import InfusedModbus.Foundation.BigEndian

/-! Text in UTF-8, and bytes read as text whatever they are. A character stands for its
encoding; where no character starts, the bytes that could have started one, or else a
single byte, become U+FFFD. The bytes of a text are read as that text. -/

namespace InfusedModbus.Foundation

/-- `as_bytes`. -/
def asBytes (s : String) : Bytes := s.toUTF8.data.toList

/-! ### Where no character starts -/

/-- The bytes that the encoding with this first byte takes, 0 if there is none. -/
def charWidth (b : UInt8) : ℕ :=
  if b < 0x80 then 1
  else if b < 0xC2 then 0
  else if b < 0xE0 then 2
  else if b < 0xF0 then 3
  else if b < 0xF5 then 4
  else 0

def isContinuation (b : UInt8) : Bool := b &&& 0xC0 == 0x80

/-- The second byte continues an encoding of three or four bytes; it excludes overlong
encodings, surrogates and what is beyond U+10FFFF. -/
def secondByteFits (first second : UInt8) : Bool :=
  if first = 0xE0 then 0xA0 ≤ second && second ≤ 0xBF
  else if first = 0xED then 0x80 ≤ second && second ≤ 0x9F
  else if first = 0xF0 then 0x90 ≤ second && second ≤ 0xBF
  else if first = 0xF4 then 0x80 ≤ second && second ≤ 0x8F
  else 0x80 ≤ second && second ≤ 0xBF

/-- How many bytes become one U+FFFD where no character starts; past the end stands 0. -/
def invalidLength (bytes : Bytes) : ℕ :=
  let first := bytes.getD 0 0
  if charWidth first < 3 ∨ ¬secondByteFits first (bytes.getD 1 0) then 1
  else if charWidth first = 3 ∨ ¬isContinuation (bytes.getD 2 0) then 2
  else 3

theorem invalidLength_pos (bytes : Bytes) : 0 < invalidLength bytes := by
  unfold invalidLength
  dsimp only
  split
  · omega
  · split <;> omega

/-! ### Reading bytes as text -/

def lossyChars (bytes : Bytes) : List Char :=
  if bytes = [] then []
  else
    match bytes.toByteArray.utf8DecodeChar? 0 with
    | some c => c :: lossyChars (bytes.drop c.utf8Size)
    | none => Char.ofNat 0xFFFD :: lossyChars (bytes.drop (invalidLength bytes))
termination_by bytes.length
decreasing_by
  · have := List.length_pos_of_ne_nil ‹_›
    have := c.utf8Size_pos
    rw [List.length_drop]
    omega
  · have := List.length_pos_of_ne_nil ‹_›
    have := invalidLength_pos bytes
    rw [List.length_drop]
    omega

/-- `String::from_utf8_lossy`. -/
def fromUtf8Lossy (bytes : Bytes) : String := String.ofList (lossyChars bytes)

theorem lossyChars_encode (cs : List Char) : lossyChars (cs.flatMap String.utf8EncodeChar) = cs := by
  induction cs with
  | nil => rw [List.flatMap_nil, lossyChars, if_pos rfl]
  | cons c cs ih =>
    have hne : (c :: cs).flatMap String.utf8EncodeChar ≠ [] := by
      have hpos := c.utf8Size_pos
      rw [← String.length_utf8EncodeChar] at hpos
      rw [List.flatMap_cons]
      exact List.append_ne_nil_of_left_ne_nil (List.ne_nil_of_length_pos hpos) _
    have hdecode : ((c :: cs).flatMap String.utf8EncodeChar).toByteArray.utf8DecodeChar? 0 = some c :=
      List.utf8DecodeChar?_utf8Encode_cons
    rw [lossyChars, if_neg hne, hdecode]
    dsimp only
    rw [List.flatMap_cons, List.drop_left' (String.length_utf8EncodeChar c), ih]

theorem asBytes_ofList (cs : List Char) : asBytes (String.ofList cs) = cs.flatMap String.utf8EncodeChar := by
  rw [asBytes, String.toUTF8_eq_toByteArray, String.toByteArray_ofList, List.utf8Encode, List.data_toByteArray]

/-- The bytes of a text are read as that text. -/
@[simp] theorem fromUtf8Lossy_asBytes (s : String) : fromUtf8Lossy (asBytes s) = s := by
  rw [← String.ofList_toList (s := s), asBytes_ofList, fromUtf8Lossy, lossyChars_encode]

end InfusedModbus.Foundation
