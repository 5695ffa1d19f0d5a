import InfusedModbus.Server.Handler

/-! The holding registers of a machine as a flat memory of 65536 words without names
or types: what the register requests mean to a client that only knows addresses. A
range may be read when it is a union of whole registers and written when it is a
union of whole writable ones; an address may be written alone when it is a writable
register of one word. A word written to an 8-bit register is kept as its low byte. -/

namespace InfusedModbus.Server

open Foundation Foundation.Outcome Protocol Datafs

/-! ### Requests -/

/-- The requests to holding registers, within the sizes the protocol allows. -/
inductive WordRequest where
  | read (address quantity : UInt16) (hquantity : quantity.toNat ≤ 125)
  | writeSingle (address value : UInt16)
  | writeMultiple (address : UInt16) (values : List UInt16) (hvalues : values.length ≤ 123)
  | maskWrite (address andMask orMask : UInt16)
  | readWrite (readAddress readQuantity writeAddress : UInt16) (writeValues : List UInt16)
      (hquantity : readQuantity.toNat ≤ 125) (hvalues : writeValues.length ≤ 123)

namespace WordRequest

def functionCode : WordRequest → UInt8
  | .read .. => functionCodeReadHoldingRegisters
  | .writeSingle .. => functionCodeWriteSingleRegister
  | .writeMultiple .. => functionCodeWriteMultipleRegisters
  | .maskWrite .. => functionCodeMaskWriteRegister
  | .readWrite .. => functionCodeReadWriteMultipleRegisters

/-- A quantity, a byte count, and the words. -/
def wordListBytes (values : List UInt16) : Bytes :=
  u16ToBeBytes (UInt16.ofNat values.length) ++ UInt8.ofNat (values.length * 2) :: bytesOfWords values

/-- The request on the wire. -/
def pdu : WordRequest → Bytes
  | .read address quantity _ =>
    functionCodeReadHoldingRegisters :: (u16ToBeBytes address ++ u16ToBeBytes quantity)
  | .writeSingle address value =>
    functionCodeWriteSingleRegister :: (u16ToBeBytes address ++ u16ToBeBytes value)
  | .writeMultiple address values _ =>
    functionCodeWriteMultipleRegisters :: (u16ToBeBytes address ++ wordListBytes values)
  | .maskWrite address andMask orMask =>
    functionCodeMaskWriteRegister :: (u16ToBeBytes address ++ (u16ToBeBytes andMask ++ u16ToBeBytes orMask))
  | .readWrite readAddress readQuantity writeAddress writeValues _ _ =>
    functionCodeReadWriteMultipleRegisters :: (u16ToBeBytes readAddress ++ (u16ToBeBytes readQuantity ++
      (u16ToBeBytes writeAddress ++ wordListBytes writeValues)))

theorem head_pdu (request : WordRequest) : request.pdu.head? = some request.functionCode := by
  cases request <;> rfl

theorem functionCode_ne_special (request : WordRequest) :
    request.functionCode ≠ functionCodeEncapsulatedInterfaceTransport ∧
      request.functionCode ≠ functionCodeReadFileRecord := by
  cases request <;> simp only [functionCode] <;> decide

theorem decode_read (address quantity : UInt16) (h : quantity.toNat ≤ 125) :
    ReadHoldingRegistersRequest.decode (read address quantity h).pdu = .ok ⟨address, quantity⟩ :=
  map_eq_ok.mpr ⟨_, decodeAddressAndQuantity_encode _ _ _, rfl⟩

theorem decode_writeSingle (address value : UInt16) :
    WriteSingleRegisterRequest.decode (writeSingle address value).pdu = .ok ⟨address, value⟩ :=
  map_eq_ok.mpr ⟨_, decodeAddressAndQuantity_encode _ _ _, rfl⟩

theorem decode_maskWrite (address andMask orMask : UInt16) :
    MaskWriteRegisterRequest.decode (maskWrite address andMask orMask).pdu = .ok ⟨address, andMask, orMask⟩ :=
  map_eq_ok.mpr ⟨_, decodeMaskWriteRegister_encode _ _ _, rfl⟩

theorem decode_writeMultiple (address : UInt16) (values : List UInt16) (h : values.length ≤ 123) :
    WriteMultipleRegistersRequest.decode (writeMultiple address values h).pdu = .ok ⟨address, values⟩ := by
  have hcount := @wordsOfBytes_take_ofNat values (by omega)
  simp only [pdu, wordListBytes, u16ToBeBytes, List.cons_append, List.nil_append,
    WriteMultipleRegistersRequest.decode_cons, u16FromBeBytes_toBeBytes, hcount]
  rw [if_neg (by simp), if_neg (by omega), List.take_length, wordsOfBytes_bytesOfWords]

theorem decode_readWrite (readAddress readQuantity writeAddress : UInt16) (writeValues : List UInt16)
    (hr : readQuantity.toNat ≤ 125) (hw : writeValues.length ≤ 123) :
    ReadWriteMultipleRegistersRequest.decode
        (readWrite readAddress readQuantity writeAddress writeValues hr hw).pdu =
      .ok ⟨readAddress, readQuantity, writeAddress, writeValues⟩ := by
  have hcount := @wordsOfBytes_take_ofNat writeValues (by omega)
  simp only [pdu, wordListBytes, u16ToBeBytes, List.cons_append, List.nil_append,
    ReadWriteMultipleRegistersRequest.decode_cons, u16FromBeBytes_toBeBytes, hcount]
  rw [if_neg (by simp), if_neg (by omega), List.take_length, wordsOfBytes_bytesOfWords]

end WordRequest

/-! ### The memory -/

/-- A word at every address. -/
abbrev WordMemory := ℕ → UInt16

def wordAddress (register : RegisterDescription) : ℕ := register.address.toNat

abbrev wordCount (register : RegisterDescription) : ℕ := width RegisterDescription.dataType register

/-- Registers that a flat memory can stand for: told apart by name, disjoint, and
within the address space. -/
structure FlatLayout (registers : List RegisterDescription) : Prop where
  names : (registers.map RegisterDescription.name).Nodup
  disjoint : registers.Pairwise fun r s => Disjoint (extent wordAddress wordCount r) (extent wordAddress wordCount s)
  fits : ∀ r ∈ registers, wordAddress r + wordCount r ≤ 65536

section Memory

variable (registers : List RegisterDescription)

def writableRegisters : List RegisterDescription :=
  registers.filter fun register => register.access == .readWrite

/-- The range is a union of whole registers. -/
def Readable (address n : ℕ) : Prop := IsUnionOfBlocks wordAddress wordCount registers address n

/-- The range is a union of whole writable registers. -/
def Writable (address n : ℕ) : Prop :=
  IsUnionOfBlocks wordAddress wordCount (writableRegisters registers) address n

/-- The address is that of a writable register of one word. -/
def WritableWord (address : ℕ) : Prop :=
  ∃ register ∈ registers, wordAddress register = address ∧ wordCount register = 1 ∧ register.access = .readWrite

/-- What is kept of a word written at an address. -/
def keptWord (address : ℕ) (word : UInt16) : UInt16 :=
  match blockAt wordAddress registers address with
  | some register => normalizeWord register.dataType word
  | none => word

def writeWords (mem : WordMemory) (address : ℕ) (words : List UInt16) : WordMemory :=
  overwrite mem address (words.mapIdx fun i word => keptWord registers (address + i) word)

open Classical in
/-- What the memory answers. A read that goes with a write sees what was written. -/
noncomputable def memoryStep (mem : WordMemory) : WordRequest → WordMemory × Bytes
  | .read address quantity _ =>
    if Readable registers address.toNat quantity.toNat then
      (mem, (ReadHoldingRegistersResponse.mk (cells mem address.toNat quantity.toNat)).encode)
    else (mem, exception functionCodeReadHoldingRegisters exceptionIllegalDataAddress)
  | .writeSingle address value =>
    if WritableWord registers address.toNat then
      (writeWords registers mem address.toNat [value], (WriteSingleRegisterResponse.mk address value).encode)
    else (mem, exception functionCodeWriteSingleRegister exceptionIllegalDataAddress)
  | .writeMultiple address values _ =>
    if Writable registers address.toNat values.length then
      (writeWords registers mem address.toNat values,
        (WriteMultipleRegistersResponse.mk address (UInt16.ofNat values.length)).encode)
    else (mem, exception functionCodeWriteMultipleRegisters exceptionIllegalDataAddress)
  | .maskWrite address andMask orMask =>
    if WritableWord registers address.toNat then
      (writeWords registers mem address.toNat [maskWord (mem address.toNat) andMask orMask],
        (MaskWriteRegisterResponse.mk address andMask orMask).encode)
    else (mem, exception functionCodeMaskWriteRegister exceptionIllegalDataAddress)
  | .readWrite readAddress readQuantity writeAddress writeValues _ _ =>
    if Readable registers readAddress.toNat readQuantity.toNat ∧
        Writable registers writeAddress.toNat writeValues.length then
      let mem := writeWords registers mem writeAddress.toNat writeValues
      (mem, (ReadWriteMultipleRegistersResponse.mk
        (cells mem readAddress.toNat readQuantity.toNat)).encode)
    else (mem, exception functionCodeReadWriteMultipleRegisters exceptionIllegalDataAddress)

variable {registers}

theorem writeWords_append (mem : WordMemory) (address : ℕ) (ws vs : List UInt16) :
    writeWords registers mem address (ws ++ vs) =
      writeWords registers (writeWords registers mem address ws) (address + ws.length) vs := by
  rw [writeWords, List.mapIdx_append, overwrite_append, List.length_mapIdx, writeWords, writeWords]
  simp only [Nat.add_assoc, Nat.add_comm ws.length]

theorem disjoint_writable (h : FlatLayout registers) : (writableRegisters registers).Pairwise fun r s =>
    Disjoint (extent wordAddress wordCount r) (extent wordAddress wordCount s) :=
  h.disjoint.filter _

/-- Every word of a register is kept in the way of its type. -/
theorem keptWord_within (h : FlatLayout registers) {register : RegisterDescription} (hmem : register ∈ registers)
    {i : ℕ} (hi : i < wordCount register) (word : UInt16) :
    keptWord registers (wordAddress register + i) word = normalizeWord register.dataType word := by
  unfold keptWord
  cases hfound : blockAt wordAddress registers (wordAddress register + i) with
  | none =>
    cases i with
    | zero =>
      rw [Nat.add_zero, blockAt_start h.disjoint (fun r _ => width_pos r) hmem] at hfound
      cases hfound
    | succ i =>
      have hid := @map_normalizeWord_of_one_lt register.dataType (by simp only [wordCount, width] at hi; omega) [word]
      exact (List.cons.inj hid).1.symm
  | some other =>
    obtain ⟨hother, hstart⟩ := blockAt_eq_some hfound
    have hpos := @width_pos _ RegisterDescription.dataType other
    obtain rfl : other = register := eq_of_mem_extent h.disjoint hother hmem (x := wordAddress register + i)
      (by simp only [extent, Set.mem_Ico, wordCount]; omega) (by simp only [extent, Set.mem_Ico]; omega)
    rfl

theorem mapIdx_keptWord (h : FlatLayout registers) {register : RegisterDescription} (hmem : register ∈ registers)
    {words : List UInt16} (hlen : words.length = wordCount register) :
    (words.mapIdx fun i word => keptWord registers (wordAddress register + i) word) =
      words.map (normalizeWord register.dataType) := by
  apply List.ext_getElem (by simp)
  intro i h1 h2
  rw [List.getElem_mapIdx, List.getElem_map,
    keptWord_within h hmem (by simpa [hlen] using h1)]

end Memory

end InfusedModbus.Server
