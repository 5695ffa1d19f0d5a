import InfusedModbus.Server.RegisterWalk

/-! The handlers of the register function codes. Each one decodes its request,
resolves the addressed range against the description, and only then touches the
store, so a rejected request leaves the store as it was. For every handler three
lemmas say what it answers: to a malformed request, to a range that is not made of
whole (writable) registers, and to one that is. -/

namespace InfusedModbus.Server

open Foundation Foundation.Outcome Protocol Datafs

/-! ### Read Holding Registers and Read Input Registers -/

def handleRead (pdu : Bytes) (registers : List RegisterDescription) (store : RegisterStore)
    (memLayout : MemLayout) : Handled Bytes :=
  letOk (ReadHoldingRegistersRequest.decode pdu)
    (.ok (exception functionCodeReadHoldingRegisters exceptionIllegalDataValue)) fun request =>
    match readRegisters (findRegister registers) RegisterDescription.name RegisterDescription.dataType store
        memLayout request.quantity.toNat (advance request.startingAddress request.quantity.toNat)
        request.startingAddress 0 with
    | none => .ok (exception functionCodeReadHoldingRegisters exceptionIllegalDataAddress)
    | some registerValues => .ok (ReadHoldingRegistersResponse.mk registerValues).encode

def handleReadInputRegisters (pdu : Bytes) (inputRegisters : List InputRegisterDescription)
    (store : InputRegisterStore) (inputRegisterMemLayout : MemLayout) : Handled Bytes :=
  letOk (ReadInputRegistersRequest.decode pdu)
    (.ok (exception functionCodeReadInputRegisters exceptionIllegalDataValue)) fun request =>
    match readRegisters (findInputRegister inputRegisters) InputRegisterDescription.name
        InputRegisterDescription.dataType store inputRegisterMemLayout request.quantity.toNat
        (advance request.startingAddress request.quantity.toNat) request.startingAddress 0 with
    | none => .ok (exception functionCodeReadInputRegisters exceptionIllegalDataAddress)
    | some registerValues => .ok (ReadInputRegistersResponse.mk registerValues).encode

/-- The words of a holding register. -/
abbrev holdingWords (store : RegisterStore) (memLayout : MemLayout) : RegisterDescription → List UInt16 :=
  registerWords RegisterDescription.name RegisterDescription.dataType store memLayout

/-- The words of an input register. -/
abbrev inputWords (store : InputRegisterStore) (memLayout : MemLayout) :
    InputRegisterDescription → List UInt16 :=
  registerWords InputRegisterDescription.name InputRegisterDescription.dataType store memLayout

section Read

variable {pdu : Bytes} {registers : List RegisterDescription} {store : RegisterStore} {memLayout : MemLayout}

theorem handleRead_of_err {e : DecodeError} (h : ReadHoldingRegistersRequest.decode pdu = .err e) :
    handleRead pdu registers store memLayout =
      .ok (exception functionCodeReadHoldingRegisters exceptionIllegalDataValue) := by
  rw [handleRead, h, letOk_err]

theorem handleRead_of_not_tiles {request : ReadHoldingRegistersRequest}
    (hdec : ReadHoldingRegistersRequest.decode pdu = .ok request)
    (h : ¬∃ rs, ReadTiles registers request.startingAddress request.quantity.toNat rs) :
    handleRead pdu registers store memLayout =
      .ok (exception functionCodeReadHoldingRegisters exceptionIllegalDataAddress) := by
  rw [handleRead, hdec, letOk_ok, readRegisters_eq_map, resolveReads_eq_none request.quantity.toNat_lt h]
  rfl

theorem handleRead_of_tiles {request : ReadHoldingRegistersRequest}
    (hdec : ReadHoldingRegistersRequest.decode pdu = .ok request) {rs : List RegisterDescription}
    (h : ReadTiles registers request.startingAddress request.quantity.toNat rs) :
    handleRead pdu registers store memLayout =
      .ok (ReadHoldingRegistersResponse.mk (rs.flatMap (holdingWords store memLayout))).encode := by
  rw [handleRead, hdec, letOk_ok, readRegisters_eq_map,
    (resolveReads_eq_some_zero request.quantity.toNat_lt).mpr h]
  rfl

end Read

section ReadInput

variable {pdu : Bytes} {inputRegisters : List InputRegisterDescription} {store : InputRegisterStore}
  {memLayout : MemLayout}

theorem handleReadInputRegisters_of_err {e : DecodeError} (h : ReadInputRegistersRequest.decode pdu = .err e) :
    handleReadInputRegisters pdu inputRegisters store memLayout =
      .ok (exception functionCodeReadInputRegisters exceptionIllegalDataValue) := by
  rw [handleReadInputRegisters, h, letOk_err]

theorem handleReadInputRegisters_of_not_tiles {request : ReadInputRegistersRequest}
    (hdec : ReadInputRegistersRequest.decode pdu = .ok request)
    (h : ¬∃ rs, InputTiles inputRegisters request.startingAddress request.quantity.toNat rs) :
    handleReadInputRegisters pdu inputRegisters store memLayout =
      .ok (exception functionCodeReadInputRegisters exceptionIllegalDataAddress) := by
  rw [handleReadInputRegisters, hdec, letOk_ok, readRegisters_eq_map,
    resolveReads_eq_none request.quantity.toNat_lt h]
  rfl

theorem handleReadInputRegisters_of_tiles {request : ReadInputRegistersRequest}
    (hdec : ReadInputRegistersRequest.decode pdu = .ok request) {rs : List InputRegisterDescription}
    (h : InputTiles inputRegisters request.startingAddress request.quantity.toNat rs) :
    handleReadInputRegisters pdu inputRegisters store memLayout =
      .ok (ReadInputRegistersResponse.mk (rs.flatMap (inputWords store memLayout))).encode := by
  rw [handleReadInputRegisters, hdec, letOk_ok, readRegisters_eq_map,
    (resolveReads_eq_some_zero request.quantity.toNat_lt).mpr h]
  rfl

end ReadInput

/-! ### Write Single Register and Mask Write Register -/

/-- The writable register of one word at an address. -/
def findSingleWordReadWriteRegister (registers : List RegisterDescription) (address : UInt16) :
    Option RegisterDescription :=
  registers.find? fun register =>
    register.address == address && register.dataType.registerCount == 1 && register.access == .readWrite

theorem findSingleWordReadWriteRegister_eq_some {registers : List RegisterDescription} {address : UInt16}
    {register : RegisterDescription} (h : findSingleWordReadWriteRegister registers address = some register) :
    register ∈ registers ∧ register.access = .readWrite ∧ register.address = address := by
  have hfound := List.find?_some h
  simp only [Bool.and_eq_true, beq_iff_eq] at hfound
  exact ⟨List.mem_of_find?_eq_some h, hfound.2, hfound.1.1⟩

theorem registerCount_of_findSingleWord {registers : List RegisterDescription} {address : UInt16}
    {register : RegisterDescription} (h : findSingleWordReadWriteRegister registers address = some register) :
    register.dataType.registerCount = 1 := by
  have hfound := List.find?_some h
  simp only [Bool.and_eq_true, beq_iff_eq] at hfound
  exact hfound.1.2

def handleWriteSingle (pdu : Bytes) (registers : List RegisterDescription) (store : RegisterStore)
    (memLayout : MemLayout) : Handled (Bytes × RegisterStore) :=
  letOk (WriteSingleRegisterRequest.decode pdu)
    (.ok (exception functionCodeWriteSingleRegister exceptionIllegalDataValue, store)) fun request =>
    match findSingleWordReadWriteRegister registers request.registerAddress with
    | some register => do
      let value ← expect (registerValueFromWords register.dataType [request.registerValue] memLayout)
      pure ((WriteSingleRegisterResponse.mk request.registerAddress request.registerValue).encode,
        store.set register.name value)
    | none => .ok (exception functionCodeWriteSingleRegister exceptionIllegalDataAddress, store)

/-- The register's word with the bits of `andMask` kept and the others from `orMask`. -/
def maskWord (currentWord andMask orMask : UInt16) : UInt16 :=
  (currentWord &&& andMask) ||| (orMask &&& ~~~andMask)

def handleMaskWriteRegister (pdu : Bytes) (registers : List RegisterDescription) (store : RegisterStore)
    (memLayout : MemLayout) : Handled (Bytes × RegisterStore) :=
  letOk (MaskWriteRegisterRequest.decode pdu)
    (.ok (exception functionCodeMaskWriteRegister exceptionIllegalDataValue, store)) fun request =>
    match findSingleWordReadWriteRegister registers request.referenceAddress with
    | some register => do
      let currentValue := storedValue store register.name register.dataType
      let currentWord ← index (registerValueToWords currentValue memLayout) 0
      let newWord := maskWord currentWord request.andMask request.orMask
      let newValue ← expect (registerValueFromWords register.dataType [newWord] memLayout)
      pure ((MaskWriteRegisterResponse.mk request.referenceAddress request.andMask request.orMask).encode,
        store.set register.name newValue)
    | none => .ok (exception functionCodeMaskWriteRegister exceptionIllegalDataAddress, store)

section WriteSingle

variable {pdu : Bytes} {registers : List RegisterDescription} {store : RegisterStore} {memLayout : MemLayout}

theorem handleWriteSingle_of_err {e : DecodeError} (h : WriteSingleRegisterRequest.decode pdu = .err e) :
    handleWriteSingle pdu registers store memLayout =
      .ok (exception functionCodeWriteSingleRegister exceptionIllegalDataValue, store) := by
  rw [handleWriteSingle, h, letOk_err]

theorem handleWriteSingle_of_none {request : WriteSingleRegisterRequest}
    (hdec : WriteSingleRegisterRequest.decode pdu = .ok request)
    (h : findSingleWordReadWriteRegister registers request.registerAddress = none) :
    handleWriteSingle pdu registers store memLayout =
      .ok (exception functionCodeWriteSingleRegister exceptionIllegalDataAddress, store) := by
  simp only [handleWriteSingle, hdec, letOk_ok, h]

theorem handleWriteSingle_of_some {request : WriteSingleRegisterRequest}
    (hdec : WriteSingleRegisterRequest.decode pdu = .ok request) {register : RegisterDescription}
    (h : findSingleWordReadWriteRegister registers request.registerAddress = some register) :
    ∃ value, registerValueFromWords register.dataType [request.registerValue] memLayout = some value ∧
      handleWriteSingle pdu registers store memLayout =
        .ok ((WriteSingleRegisterResponse.mk request.registerAddress request.registerValue).encode,
          store.set register.name value) := by
  obtain ⟨value, hvalue⟩ := @isSome_registerValueFromWords _ [request.registerValue]
    (registerCount_of_findSingleWord h).symm memLayout
  refine ⟨value, hvalue, ?_⟩
  simp only [handleWriteSingle, hdec, letOk_ok, h, hvalue, expect_some, ok_bind, pure_eq]

theorem handleMaskWriteRegister_of_err {e : DecodeError} (h : MaskWriteRegisterRequest.decode pdu = .err e) :
    handleMaskWriteRegister pdu registers store memLayout =
      .ok (exception functionCodeMaskWriteRegister exceptionIllegalDataValue, store) := by
  rw [handleMaskWriteRegister, h, letOk_err]

theorem handleMaskWriteRegister_of_none {request : MaskWriteRegisterRequest}
    (hdec : MaskWriteRegisterRequest.decode pdu = .ok request)
    (h : findSingleWordReadWriteRegister registers request.referenceAddress = none) :
    handleMaskWriteRegister pdu registers store memLayout =
      .ok (exception functionCodeMaskWriteRegister exceptionIllegalDataAddress, store) := by
  simp only [handleMaskWriteRegister, hdec, letOk_ok, h]

theorem handleMaskWriteRegister_of_some {request : MaskWriteRegisterRequest}
    (hdec : MaskWriteRegisterRequest.decode pdu = .ok request) {register : RegisterDescription}
    (h : findSingleWordReadWriteRegister registers request.referenceAddress = some register) :
    ∃ word value, holdingWords store memLayout register = [word] ∧
      registerValueFromWords register.dataType [maskWord word request.andMask request.orMask] memLayout =
        some value ∧
      handleMaskWriteRegister pdu registers store memLayout =
        .ok ((MaskWriteRegisterResponse.mk request.referenceAddress request.andMask request.orMask).encode,
          store.set register.name value) := by
  have hcount := registerCount_of_findSingleWord h
  obtain ⟨word, hword⟩ : ∃ word, holdingWords store memLayout register = [word] :=
    List.length_eq_one_iff.mp (by rw [length_registerWords, width, hcount])
  obtain ⟨value, hvalue⟩ := @isSome_registerValueFromWords _
    [maskWord word request.andMask request.orMask] hcount.symm memLayout
  refine ⟨word, value, hword, hvalue, ?_⟩
  simp only [holdingWords, registerWords] at hword
  simp only [handleMaskWriteRegister, hdec, letOk_ok, h, hword, index_cons_zero, hvalue, expect_some, ok_bind,
    pure_eq]

end WriteSingle

/-! ### Write Multiple Registers and Read/Write Multiple Registers -/

/-- The name and value pairs a resolved batch stores. -/
def storeWrites (resolved : List (RegisterDescription × RegisterValue)) : List (String × RegisterValue) :=
  resolved.map fun p => (p.1.name, p.2)

def handleWriteMultipleRegisters (pdu : Bytes) (registers : List RegisterDescription) (store : RegisterStore)
    (memLayout : MemLayout) : Handled (Bytes × RegisterStore) :=
  letOk (WriteMultipleRegistersRequest.decode pdu)
    (.ok (exception functionCodeWriteMultipleRegisters exceptionIllegalDataValue, store)) fun request =>
    letOk (resolveRegisterWrites registers request.startingAddress request.registerValues memLayout)
      (.ok (exception functionCodeWriteMultipleRegisters exceptionIllegalDataAddress, store)) fun resolved =>
      .ok ((WriteMultipleRegistersResponse.mk request.startingAddress
        (UInt16.ofNat request.registerValues.length)).encode, store.setAll (storeWrites resolved))

/-- Both halves are resolved first; then the write is applied and the read made. -/
def handleReadWriteMultipleRegisters (pdu : Bytes) (registers : List RegisterDescription)
    (store : RegisterStore) (memLayout : MemLayout) : Handled (Bytes × RegisterStore) :=
  letOk (ReadWriteMultipleRegistersRequest.decode pdu)
    (.ok (exception functionCodeReadWriteMultipleRegisters exceptionIllegalDataValue, store)) fun request =>
    letOk (resolveRegisterWrites registers request.writeStartingAddress request.writeValues memLayout)
      (.ok (exception functionCodeReadWriteMultipleRegisters exceptionIllegalDataAddress, store))
      fun resolvedWrites =>
        match resolveReads (findRegister registers) RegisterDescription.dataType request.readQuantity.toNat
            (advance request.readStartingAddress request.readQuantity.toNat) request.readStartingAddress 0 with
        | none => .ok (exception functionCodeReadWriteMultipleRegisters exceptionIllegalDataAddress, store)
        | some readRegisters =>
          let store := store.setAll (storeWrites resolvedWrites)
          .ok ((ReadWriteMultipleRegistersResponse.mk
            (readRegisters.flatMap (holdingWords store memLayout))).encode, store)

section WriteMultiple

variable {pdu : Bytes} {registers : List RegisterDescription} {store : RegisterStore} {memLayout : MemLayout}

theorem handleWriteMultipleRegisters_of_err {e : DecodeError}
    (h : WriteMultipleRegistersRequest.decode pdu = .err e) :
    handleWriteMultipleRegisters pdu registers store memLayout =
      .ok (exception functionCodeWriteMultipleRegisters exceptionIllegalDataValue, store) := by
  rw [handleWriteMultipleRegisters, h, letOk_err]

theorem handleWriteMultipleRegisters_of_not_tiles {request : WriteMultipleRegistersRequest}
    (hdec : WriteMultipleRegistersRequest.decode pdu = .ok request)
    (h : ¬∃ rs, WriteTiles registers request.startingAddress request.registerValues.length rs) :
    handleWriteMultipleRegisters pdu registers store memLayout =
      .ok (exception functionCodeWriteMultipleRegisters exceptionIllegalDataAddress, store) := by
  have hq := WriteMultipleRegistersRequest.length_of_decode hdec
  rw [handleWriteMultipleRegisters, hdec, letOk_ok,
    resolveRegisterWrites_of_not_tiles (by omega) h, letOk_err]

theorem handleWriteMultipleRegisters_of_tiles {request : WriteMultipleRegistersRequest}
    (hdec : WriteMultipleRegistersRequest.decode pdu = .ok request) {rs : List RegisterDescription}
    (h : WriteTiles registers request.startingAddress request.registerValues.length rs) :
    handleWriteMultipleRegisters pdu registers store memLayout =
      .ok ((WriteMultipleRegistersResponse.mk request.startingAddress
        (UInt16.ofNat request.registerValues.length)).encode,
        store.setAll (storeWrites (decodeWrites memLayout rs request.registerValues))) := by
  have hq := WriteMultipleRegistersRequest.length_of_decode hdec
  rw [handleWriteMultipleRegisters, hdec, letOk_ok, resolveRegisterWrites_of_tiles (by omega) h, letOk_ok]

theorem handleReadWriteMultipleRegisters_of_err {e : DecodeError}
    (h : ReadWriteMultipleRegistersRequest.decode pdu = .err e) :
    handleReadWriteMultipleRegisters pdu registers store memLayout =
      .ok (exception functionCodeReadWriteMultipleRegisters exceptionIllegalDataValue, store) := by
  rw [handleReadWriteMultipleRegisters, h, letOk_err]

theorem handleReadWriteMultipleRegisters_of_not_tiles {request : ReadWriteMultipleRegistersRequest}
    (hdec : ReadWriteMultipleRegistersRequest.decode pdu = .ok request)
    (h : ¬((∃ ws, WriteTiles registers request.writeStartingAddress request.writeValues.length ws) ∧
      ∃ rs, ReadTiles registers request.readStartingAddress request.readQuantity.toNat rs)) :
    handleReadWriteMultipleRegisters pdu registers store memLayout =
      .ok (exception functionCodeReadWriteMultipleRegisters exceptionIllegalDataAddress, store) := by
  have hq := ReadWriteMultipleRegistersRequest.length_of_decode hdec
  rw [handleReadWriteMultipleRegisters, hdec, letOk_ok]
  by_cases hw : ∃ ws, WriteTiles registers request.writeStartingAddress request.writeValues.length ws
  · have hr : ¬∃ rs, ReadTiles registers request.readStartingAddress request.readQuantity.toNat rs :=
      fun hr => h ⟨hw, hr⟩
    obtain ⟨ws, hw⟩ := hw
    rw [resolveRegisterWrites_of_tiles (by omega) hw, letOk_ok,
      resolveReads_eq_none request.readQuantity.toNat_lt hr]
  · rw [resolveRegisterWrites_of_not_tiles (by omega) hw, letOk_err]

theorem handleReadWriteMultipleRegisters_of_tiles {request : ReadWriteMultipleRegistersRequest}
    (hdec : ReadWriteMultipleRegistersRequest.decode pdu = .ok request) {ws rs : List RegisterDescription}
    (hw : WriteTiles registers request.writeStartingAddress request.writeValues.length ws)
    (hr : ReadTiles registers request.readStartingAddress request.readQuantity.toNat rs) :
    handleReadWriteMultipleRegisters pdu registers store memLayout =
      .ok ((ReadWriteMultipleRegistersResponse.mk (rs.flatMap (holdingWords
          (store.setAll (storeWrites (decodeWrites memLayout ws request.writeValues))) memLayout))).encode,
        store.setAll (storeWrites (decodeWrites memLayout ws request.writeValues))) := by
  have hq := ReadWriteMultipleRegistersRequest.length_of_decode hdec
  rw [handleReadWriteMultipleRegisters, hdec, letOk_ok, resolveRegisterWrites_of_tiles (by omega) hw, letOk_ok,
    (resolveReads_eq_some_zero request.readQuantity.toNat_lt).mpr hr]

end WriteMultiple

end InfusedModbus.Server
