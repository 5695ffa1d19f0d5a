import InfusedModbus.Datafs.Display
import InfusedModbus.Server.ServerHandle

/-! The data socket: lines that read or write one point by name, each answered with a
line. A line is split into words; what follows the point of a `SET` is its value, words
and all. The point is looked up section by section in a fixed order, and its value is
parsed from text or written as text accordingly. How the `Debug` text of a string escapes
its characters is left to a parameter. -/

namespace InfusedModbus.Server

open Foundation Foundation.Outcome Protocol Datafs

/-! ### Reading by name -/

/-- A digit of an upper-case hexadecimal number. -/
def hexDigit (n : ℕ) : Char := if n < 10 then Char.ofNat (48 + n) else Char.ofNat (55 + n)

/-- The bytes as pairs of digits with a blank between them. -/
def formatHex (bytes : Bytes) : String :=
  " ".intercalate (bytes.map fun byte => String.ofList [hexDigit (byte.toNat / 16), hexDigit (byte.toNat % 16)])

namespace ServerHandle

variable (handle : ServerHandle)

def getRegister (machineName pointName : String) : Outcome ServerHandleError RegisterValue := do
  let machine ← handle.machine machineName
  match machine.registers.find? fun register => register.name == pointName with
  | none => .err (.unknownPoint pointName)
  | some register => .ok ((machine.store.get pointName).getD (defaultRegisterValue register.dataType))

def getCoil (machineName pointName : String) : Outcome ServerHandleError CoilValue := do
  let machine ← handle.machine machineName
  if machine.coils.any fun coil => coil.name == pointName then
    .ok ((machine.coilStore.get pointName).getD ⟨false⟩)
  else .err (.unknownPoint pointName)

def getDiscreteInput (machineName pointName : String) : Outcome ServerHandleError CoilValue := do
  let machine ← handle.machine machineName
  if machine.discreteInputs.any fun entry => entry.name == pointName then
    .ok ((machine.discreteInputStore.get pointName).getD ⟨false⟩)
  else .err (.unknownPoint pointName)

def getInputRegister (machineName pointName : String) : Outcome ServerHandleError RegisterValue := do
  let machine ← handle.machine machineName
  match machine.inputRegisters.find? fun entry => entry.name == pointName with
  | none => .err (.unknownPoint pointName)
  | some inputRegister =>
    .ok ((machine.inputRegisterStore.get pointName).getD (defaultRegisterValue inputRegister.dataType))

def getFileRecord (machineName : String) (fileNumber recordNumber : UInt16) : Outcome ServerHandleError Bytes := do
  let machine ← handle.machine machineName
  match findFileRecord machine.fileRecords fileNumber recordNumber with
  | none => .err (.unknownPoint (toString fileNumber ++ ":" ++ toString recordNumber))
  | some entry =>
    .ok ((machine.fileRecordStore.get (fileNumber, recordNumber)).getD
      (List.replicate (2 * entry.recordLength.toNat) 0))

/-- Read a point as text. The kinds of points are tried in this order. -/
def get (display : FloatDisplay) (machineName pointName : String) : Outcome ServerHandleError String := do
  let machine ← handle.machine machineName
  if machine.registers.any fun register => register.name == pointName then
    (handle.getRegister machineName pointName).map fun value => value.display display
  else if machine.coils.any fun coil => coil.name == pointName then
    (handle.getCoil machineName pointName).map CoilValue.display
  else if machine.discreteInputs.any fun entry => entry.name == pointName then
    (handle.getDiscreteInput machineName pointName).map CoilValue.display
  else if machine.inputRegisters.any fun entry => entry.name == pointName then
    (handle.getInputRegister machineName pointName).map fun value => value.display display
  else
    match (parseFileRecordName pointName).filter fun p => (findFileRecord machine.fileRecords p.1 p.2).isSome with
    | some (fileNumber, recordNumber) => (handle.getFileRecord machineName fileNumber recordNumber).map formatHex
    | none => .err (.unknownPoint pointName)

end ServerHandle

/-! ### Lines -/

/-- The `Display` text of an error. -/
def ServerHandleError.display (debugStr : String → String) : ServerHandleError → String
  | .unknownMachine name => "unknown machine " ++ name
  | .unknownPoint name => "unknown point " ++ name
  | .readOnly name => name ++ " is read-only"
  | .invalidValue value => "invalid value " ++ debugStr value ++ " for this point's type"
  | .typeMismatch expected got => "expected " ++ expected.debug ++ ", got " ++ got.debug

inductive DataCommand where
  | set (machine point value : String)
  | get (machine point : String)
  deriving DecidableEq, Repr

def DataCommand.parse (debugStr : String → String) (line : List Char) : Outcome String DataCommand :=
  match (splitWhitespace line).map String.ofList with
  | [] => .err "empty command"
  | verb :: words =>
    if verb = "SET" then
      match words with
      | [] => .err "SET requires a machine argument"
      | [_] => .err "SET requires a point argument"
      | [_, _] => .err "SET requires a value argument"
      | machine :: point :: remaining => .ok (.set machine point (" ".intercalate remaining))
    else if verb = "GET" then
      match words with
      | [] => .err "GET requires a machine argument"
      | [_] => .err "GET requires a point argument"
      | [machine, point] => .ok (.get machine point)
      | _ => .err "GET takes exactly two arguments"
    else .err ("unknown command " ++ debugStr verb)

/-- How the socket writes floats and quotes strings. -/
structure SocketText where
  floats : FloatDisplay
  debugStr : String → String

/-- The stores after a command, and the line that answers it. A panic answers nothing. -/
def applyCommand (floats : FloatParser) (text : SocketText) (handle : ServerHandle) :
    DataCommand → ServerHandle × Outcome Empty String
  | .set machine point value =>
    match handle.set floats machine point value with
    | .ok handle' => (handle', .ok ("OK SET " ++ machine ++ " " ++ point))
    | .err error =>
      (handle, .ok ("ERROR SET " ++ machine ++ " " ++ point ++ ": " ++ error.display text.debugStr))
    | .panic => (handle, .panic)
  | .get machine point =>
    match handle.get text.floats machine point with
    | .ok value => (handle, .ok ("OK GET " ++ machine ++ " " ++ point ++ " " ++ value))
    | .err error =>
      (handle, .ok ("ERROR GET " ++ machine ++ " " ++ point ++ ": " ++ error.display text.debugStr))
    | .panic => (handle, .panic)

def handleLine (floats : FloatParser) (text : SocketText) (handle : ServerHandle) (line : String) :
    ServerHandle × Outcome Empty String :=
  match DataCommand.parse text.debugStr (trimEnd line.toList) with
  | .ok command => applyCommand floats text handle command
  | .err error => (handle, .ok ("ERROR " ++ error))
  | .panic => (handle, .panic)

/-! ### Words -/

/-- A text of one word: not empty, and no whitespace in it. -/
structure IsWord (text : String) : Prop where
  ne_nil : text.toList ≠ []
  plain : ∀ c ∈ text.toList, isWhitespace c = false

theorem isWord_of_all {text : String} (hne : text.toList ≠ []) (h : text.toList.all fun c => !isWhitespace c) :
    IsWord text := by
  refine ⟨hne, ?_⟩
  intro c hc
  have hplain := List.all_eq_true.mp h c hc
  rwa [Bool.not_eq_true'] at hplain

theorem plain_of_mem_splitOnP {text word : List Char} (h : word ∈ text.splitOnP isWhitespace) :
    ∀ c ∈ word, isWhitespace c = false := by
  induction text generalizing word with
  | nil =>
    obtain rfl := List.mem_singleton.mp h
    exact nofun
  | cons c text ih =>
    rw [List.splitOnP_cons_eq_if_modifyHead] at h
    split at h
    · rcases List.mem_cons.mp h with rfl | h
      · exact nofun
      · exact ih h
    · next hplain =>
      obtain ⟨first, rest, hsplit⟩ := List.exists_cons_of_ne_nil (List.splitOnP_ne_nil isWhitespace text)
      rw [hsplit, List.modifyHead_cons] at h
      rw [hsplit] at ih
      rcases List.mem_cons.mp h with rfl | h
      · rw [List.forall_mem_cons]
        exact ⟨Bool.eq_false_iff.mpr hplain, ih List.mem_cons_self⟩
      · exact ih (List.mem_cons_of_mem _ h)

/-- What a line is split into are words. -/
theorem isWord_of_mem_splitWhitespace {text : List Char} {word : String}
    (h : word ∈ (splitWhitespace text).map String.ofList) : IsWord word := by
  obtain ⟨chars, hchars, rfl⟩ := List.mem_map.mp h
  obtain ⟨hsplit, hne⟩ := List.mem_filter.mp hchars
  constructor
  · rw [String.toList_ofList]
    exact of_decide_eq_true hne
  · rw [String.toList_ofList]
    exact plain_of_mem_splitOnP hsplit

/-- A line gets a point by a word. -/
theorem isWord_of_parse_get {debugStr : String → String} {line : List Char} {machine point : String}
    (h : DataCommand.parse debugStr line = .ok (.get machine point)) : IsWord point := by
  have hwords : ∀ word ∈ (splitWhitespace line).map String.ofList, IsWord word := fun _ => isWord_of_mem_splitWhitespace
  unfold DataCommand.parse at h
  revert h hwords
  generalize (splitWhitespace line).map String.ofList = words
  intro h hwords
  split at h
  · cases h
  · split at h
    · split at h <;> cases h
    · split at h
      · split at h
        · cases h
        · cases h
        · cases h
          exact hwords _ (by simp)
        · cases h
      · cases h

theorem trimEnd_append_word (text : List Char) {word : String} (h : IsWord word) :
    trimEnd (text ++ word.toList) = text ++ word.toList := by
  obtain ⟨start, last, hlast⟩ := List.eq_nil_or_concat word.toList |>.resolve_left h.ne_nil
  have hplain : isWhitespace last = false := h.plain last (by simp [hlast])
  rw [trimEnd, hlast, List.concat_eq_append, ← List.append_assoc, List.reverse_append, List.reverse_singleton,
    List.singleton_append, List.dropWhile_cons_of_neg (by simp [hplain]), List.reverse_cons, List.reverse_reverse]

theorem splitWhitespace_word {word : String} (h : IsWord word) : splitWhitespace word.toList = [word.toList] := by
  rw [splitWhitespace, List.splitOnP_eq_singleton h.plain, List.filter_cons_of_pos (by simpa using h.ne_nil)]
  rfl

/-- A word and a blank before the rest of the words. -/
theorem splitWhitespace_append {word : String} (h : IsWord word) (text : List Char) :
    splitWhitespace (word.toList ++ ' ' :: text) = word.toList :: splitWhitespace text := by
  rw [splitWhitespace, List.splitOnP_append_cons_of_forall_mem h.plain ' ' rfl,
    List.filter_cons_of_pos (by simpa using h.ne_nil), ← splitWhitespace]

/-- The line that gets a point. -/
def getLine (machine point : String) : String := "GET " ++ machine ++ " " ++ point

theorem parse_getLine (debugStr : String → String) {machine point : String} (hmachine : IsWord machine)
    (hpoint : IsWord point) :
    DataCommand.parse debugStr (trimEnd (getLine machine point).toList) = .ok (.get machine point) := by
  have hverb : IsWord "GET" := isWord_of_all (by decide) rfl
  have hline : (getLine machine point).toList =
      "GET".toList ++ ' ' :: (machine.toList ++ ' ' :: point.toList) := by
    simp [getLine, String.toList_append]
  have hwords : splitWhitespace (trimEnd (getLine machine point).toList) =
      ["GET".toList, machine.toList, point.toList] := by
    rw [getLine, String.toList_append, trimEnd_append_word _ hpoint, ← String.toList_append, ← getLine, hline,
      splitWhitespace_append hverb, splitWhitespace_append hmachine, splitWhitespace_word hpoint]
  rw [DataCommand.parse, hwords]
  simp only [List.map_cons, List.map_nil, String.ofList_toList]
  rfl

/-! ### Hex dumps -/

theorem utf8Size_hexDigit {d : ℕ} (h : d < 16) : (hexDigit d).utf8Size = 1 := by
  have hall : ∀ d < 16, (hexDigit d).utf8Size = 1 := by decide
  exact hall d h

theorem isWhitespace_hexDigit {d : ℕ} (h : d < 16) : isWhitespace (hexDigit d) = false := by
  have hall : ∀ d < 16, isWhitespace (hexDigit d) = false := by decide
  exact hall d h

theorem parseUnsigned_hexDigits {n : ℕ} (h : n < 256) :
    parseUnsigned 8 16 [hexDigit (n / 16), hexDigit (n % 16)] = some n := by
  have hall : ∀ n < 256, parseUnsigned 8 16 [hexDigit (n / 16), hexDigit (n % 16)] = some n := by decide +kernel
  exact hall n h

/-- The two digits of a byte. -/
def hexPair (byte : UInt8) : List Char := [hexDigit (byte.toNat / 16), hexDigit (byte.toNat % 16)]

theorem mem_hexPair {byte : UInt8} {c : Char} (h : c ∈ hexPair byte) : ∃ d < 16, c = hexDigit d := by
  have hlt := byte.toNat_lt
  rcases List.mem_cons.mp h with rfl | h
  · exact ⟨byte.toNat / 16, by omega, rfl⟩
  · obtain rfl := List.mem_singleton.mp h
    exact ⟨byte.toNat % 16, by omega, rfl⟩

/-- Without its blanks a dump is the digits of its bytes. -/
theorem filter_formatHex (bytes : Bytes) :
    ((formatHex bytes).toList.filter fun c => !isWhitespace c) = bytes.flatMap hexPair := by
  have hpair : ∀ byte, ((hexPair byte).filter fun c => !isWhitespace c) = hexPair byte := by
    intro byte
    rw [List.filter_eq_self]
    intro c hc
    obtain ⟨d, hd, rfl⟩ := mem_hexPair hc
    rw [isWhitespace_hexDigit hd, Bool.not_false]
  have hdump : (formatHex bytes).toList = List.intercalate [' '] (bytes.map hexPair) := by
    rw [formatHex, String.toList_intercalate, List.map_map]
    congr 1
    apply List.map_congr_left
    intro byte _
    exact String.toList_ofList
  rw [hdump]
  clear hdump
  induction bytes with
  | nil => rfl
  | cons byte bytes ih =>
    cases bytes with
    | nil => simp [hpair]
    | cons byte' bytes =>
      rw [List.map_cons, List.map_cons, List.intercalate_cons_cons, ← List.map_cons, List.filter_append,
        List.filter_append, hpair, ih]
      rfl

theorem parseBytePairs_flatMap (bytes : Bytes) : parseBytePairs (bytes.flatMap hexPair) = .ok bytes := by
  induction bytes with
  | nil => rfl
  | cons byte bytes ih =>
    have hlt := byte.toNat_lt
    have hhigh := @utf8Size_hexDigit (byte.toNat / 16) (by omega)
    have hlow := @utf8Size_hexDigit (byte.toNat % 16) (by omega)
    rw [List.flatMap_cons, hexPair, List.cons_append, List.cons_append, List.nil_append, parseBytePairs,
      if_neg (by omega), if_neg (by omega), if_neg (by omega), parseUnsigned_hexDigits hlt]
    dsimp only
    rw [ih, map_ok, UInt8.ofNat_toNat]

/-- A dump is read back as its bytes, if there are any. -/
theorem parseFileRecordValue_formatHex {bytes : Bytes} (h : bytes ≠ []) :
    parseFileRecordValue (formatHex bytes) = .ok bytes := by
  have hlength : ((bytes.flatMap hexPair).map Char.utf8Size).sum = 2 * bytes.length := by
    clear h
    induction bytes with
    | nil => rfl
    | cons byte bytes ih =>
      have hlt := byte.toNat_lt
      rw [List.flatMap_cons, List.map_append, List.sum_append, ih, hexPair, List.map_cons, List.map_cons, List.map_nil,
        utf8Size_hexDigit (by omega), utf8Size_hexDigit (by omega)]
      simp only [List.sum_cons, List.sum_nil, List.length_cons]
      omega
  have hpos := List.length_pos_iff.mpr h
  simp only [parseFileRecordValue, filter_formatHex, hlength]
  rw [if_neg (by omega), parseBytePairs_flatMap]

end InfusedModbus.Server
