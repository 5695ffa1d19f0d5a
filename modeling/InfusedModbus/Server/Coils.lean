import InfusedModbus.Server.RegisterWalk

/-! The handlers of the coil and discrete input function codes. A range of bits is
answered only if every address in it, counted modulo the address space, is
configured; a write is applied only after all its addresses were found. -/

namespace InfusedModbus.Server

open Foundation Foundation.Outcome Protocol Datafs

/-! ### Ranges of bits -/

section Bits

variable {ρ : Type} (find : UInt16 → Option ρ) (name : ρ → String) (store : Store String CoilValue)

/-- The stored bit of an entry; false when nothing was stored. -/
def storedBit (entry : ρ) : Bool := (store.get (name entry)).any fun value => value.value

/-- The read loop: the bits at `n` addresses from `offset` places past the start. -/
def readBits (startingAddress : UInt16) : ℕ → ℕ → Option (List Bool)
  | 0, _ => some []
  | n + 1, offset =>
    match find (advance startingAddress offset) with
    | none => none
    | some entry => (readBits startingAddress n (offset + 1)).map (storedBit name store entry :: ·)

/-- Every one of the `n` addresses from a start on is configured. -/
def Configured (startingAddress : UInt16) (n : ℕ) : Prop :=
  ∀ i < n, (find (advance startingAddress i)).isSome

instance (startingAddress : UInt16) (n : ℕ) : Decidable (Configured find startingAddress n) :=
  inferInstanceAs (Decidable (∀ i < n, _))

/-- The bit at an address, false where nothing is configured. -/
def bitAtAddress (address : UInt16) : Bool := (find address).any (storedBit name store)

variable {find}

theorem readBits_of_configured {startingAddress : UInt16} {n offset : ℕ}
    (h : ∀ i < n, (find (advance startingAddress (offset + i))).isSome) :
    readBits find name store startingAddress n offset =
      some ((List.range n).map fun i => bitAtAddress find name store (advance startingAddress (offset + i))) := by
  induction n generalizing offset with
  | zero => rfl
  | succ n ih =>
    obtain ⟨entry, hentry⟩ := Option.isSome_iff_exists.mp (h 0 (by omega))
    rw [Nat.add_zero] at hentry
    have hrest : ∀ i < n, (find (advance startingAddress (offset + 1 + i))).isSome := by
      intro i hi
      rw [Nat.add_assoc, Nat.add_comm 1]
      exact h (i + 1) (by omega)
    rw [readBits, hentry]
    simp only [ih hrest, Option.map_some, List.range_succ_eq_map, List.map_cons, List.map_map, Nat.add_zero]
    congr 2
    · simp [bitAtAddress, hentry]
    · apply List.map_congr_left
      intro i _
      simp only [Function.comp, Nat.succ_eq_add_one, Nat.add_assoc, Nat.add_comm 1]

theorem readBits_of_not_configured {startingAddress : UInt16} {n offset i : ℕ} (hi : i < n)
    (h : find (advance startingAddress (offset + i)) = none) :
    readBits find name store startingAddress n offset = none := by
  induction n generalizing offset i with
  | zero => omega
  | succ n ih =>
    rw [readBits]
    cases i with
    | zero =>
      rw [Nat.add_zero] at h
      rw [h]
    | succ i =>
      rw [Nat.add_comm i 1, ← Nat.add_assoc] at h
      rw [ih (by omega) h]
      split <;> rfl

end Bits

/-- The coil at an address. -/
def findCoil (coils : List CoilDescription) (address : UInt16) : Option CoilDescription :=
  coils.find? fun coil => coil.address == address

/-- The discrete input at an address. -/
def findDiscreteInput (discreteInputs : List DiscreteInputDescription) (address : UInt16) :
    Option DiscreteInputDescription :=
  discreteInputs.find? fun discreteInput => discreteInput.address == address

/-- The write loop: pair each value with the coil it goes to. -/
def resolveCoils (coils : List CoilDescription) (startingAddress : UInt16) :
    List Bool → ℕ → Option (List (CoilDescription × Bool))
  | [], _ => some []
  | value :: values, offset =>
    match findCoil coils (advance startingAddress offset) with
    | none => none
    | some coil => (resolveCoils coils startingAddress values (offset + 1)).map ((coil, value) :: ·)

/-- Each pair of a resolved batch is the coil at its place and the value for it. -/
def ResolvedFrom (coils : List CoilDescription) (startingAddress : UInt16) :
    List Bool → ℕ → List (CoilDescription × Bool) → Prop
  | [], _, resolved => resolved = []
  | value :: values, offset, resolved =>
    ∃ coil rest, findCoil coils (advance startingAddress offset) = some coil ∧
      resolved = (coil, value) :: rest ∧ ResolvedFrom coils startingAddress values (offset + 1) rest

theorem resolveCoils_eq_some {coils : List CoilDescription} {startingAddress : UInt16} {values : List Bool}
    {offset : ℕ} {resolved : List (CoilDescription × Bool)} :
    resolveCoils coils startingAddress values offset = some resolved ↔
      ResolvedFrom coils startingAddress values offset resolved := by
  induction values generalizing offset resolved with
  | nil => simp [resolveCoils, ResolvedFrom, eq_comm]
  | cons value values ih =>
    rw [resolveCoils, ResolvedFrom]
    cases findCoil coils (advance startingAddress offset) with
    | none => simp
    | some coil => simp [ih, eq_comm, and_comm]

theorem resolveCoils_isSome {coils : List CoilDescription} {startingAddress : UInt16} {values : List Bool}
    {offset : ℕ} : (resolveCoils coils startingAddress values offset).isSome ↔
      ∀ i < values.length, (findCoil coils (advance startingAddress (offset + i))).isSome := by
  induction values generalizing offset with
  | nil => simp [resolveCoils]
  | cons value values ih =>
    rw [resolveCoils, List.length_cons, Nat.forall_lt_succ_left]
    cases findCoil coils (advance startingAddress offset) with
    | none => simp
    | some coil =>
      simp only [Option.isSome_map, ih, Option.isSome_some, true_and]
      simp only [Nat.add_assoc, Nat.add_comm 1]

/-- Every coil of a resolved batch is at one of the addresses of the range. -/
theorem ResolvedFrom.mem {coils : List CoilDescription} {startingAddress : UInt16} {values : List Bool}
    {offset : ℕ} {resolved : List (CoilDescription × Bool)}
    (h : ResolvedFrom coils startingAddress values offset resolved) {p : CoilDescription × Bool}
    (hp : p ∈ resolved) :
    ∃ i < values.length, findCoil coils (advance startingAddress (offset + i)) = some p.1 := by
  induction values generalizing offset resolved with
  | nil =>
    obtain rfl := h
    cases hp
  | cons value values ih =>
    obtain ⟨coil, rest, hfind, rfl, hrest⟩ := h
    rcases List.mem_cons.mp hp with rfl | hp
    · exact ⟨0, by simp, hfind⟩
    · obtain ⟨i, hi, hfound⟩ := ih hrest hp
      refine ⟨i + 1, by simpa using hi, ?_⟩
      rwa [Nat.add_comm i 1, ← Nat.add_assoc]

theorem findCoil_eq_some {coils : List CoilDescription} {address : UInt16} {coil : CoilDescription}
    (h : findCoil coils address = some coil) : coil ∈ coils ∧ coil.address = address :=
  ⟨List.mem_of_find?_eq_some h, by simpa using List.find?_some h⟩

/-! ### Handlers -/

def handleReadCoils (pdu : Bytes) (coils : List CoilDescription) (coilStore : CoilStore) : Handled Bytes :=
  letOk (ReadCoilsRequest.decode pdu) (.ok (exception functionCodeReadCoils exceptionIllegalDataValue))
    fun request =>
    match readBits (findCoil coils) CoilDescription.name coilStore request.startingAddress
        request.quantity.toNat 0 with
    | none => .ok (exception functionCodeReadCoils exceptionIllegalDataAddress)
    | some coilValues => .ok (ReadCoilsResponse.mk coilValues).encode

def handleReadDiscreteInputs (pdu : Bytes) (discreteInputs : List DiscreteInputDescription)
    (discreteInputStore : DiscreteInputStore) : Handled Bytes :=
  letOk (ReadDiscreteInputsRequest.decode pdu)
    (.ok (exception functionCodeReadDiscreteInputs exceptionIllegalDataValue)) fun request =>
    match readBits (findDiscreteInput discreteInputs) DiscreteInputDescription.name discreteInputStore
        request.startingAddress request.quantity.toNat 0 with
    | none => .ok (exception functionCodeReadDiscreteInputs exceptionIllegalDataAddress)
    | some discreteInputValues => .ok (ReadDiscreteInputsResponse.mk discreteInputValues).encode

def handleWriteSingleCoil (pdu : Bytes) (coils : List CoilDescription) (coilStore : CoilStore) :
    Handled (Bytes × CoilStore) :=
  letOk (WriteSingleCoilRequest.decode pdu)
    (.ok (exception functionCodeWriteSingleCoil exceptionIllegalDataValue, coilStore)) fun request =>
    match findCoil coils request.coilAddress with
    | some coil =>
      .ok ((WriteSingleCoilResponse.mk request.coilAddress request.coilValue).encode,
        coilStore.set coil.name ⟨request.coilValue⟩)
    | none => .ok (exception functionCodeWriteSingleCoil exceptionIllegalDataAddress, coilStore)

/-- The name and value pairs a resolved batch of coils stores. -/
def storeCoils (resolved : List (CoilDescription × Bool)) : List (String × CoilValue) :=
  resolved.map fun p => (p.1.name, ⟨p.2⟩)

def handleWriteMultipleCoils (pdu : Bytes) (coils : List CoilDescription) (coilStore : CoilStore) :
    Handled (Bytes × CoilStore) :=
  letOk (WriteMultipleCoilsRequest.decode pdu)
    (.ok (exception functionCodeWriteMultipleCoils exceptionIllegalDataValue, coilStore)) fun request =>
    match resolveCoils coils request.startingAddress request.coilValues 0 with
    | none => .ok (exception functionCodeWriteMultipleCoils exceptionIllegalDataAddress, coilStore)
    | some resolved =>
      .ok ((WriteMultipleCoilsResponse.mk request.startingAddress
        (UInt16.ofNat request.coilValues.length)).encode, coilStore.setAll (storeCoils resolved))

section Read

variable {pdu : Bytes} {coils : List CoilDescription} {discreteInputs : List DiscreteInputDescription}
  {coilStore : CoilStore} {discreteInputStore : DiscreteInputStore}

theorem handleReadCoils_of_err {e : DecodeError} (h : ReadCoilsRequest.decode pdu = .err e) :
    handleReadCoils pdu coils coilStore = .ok (exception functionCodeReadCoils exceptionIllegalDataValue) := by
  rw [handleReadCoils, h, letOk_err]

theorem handleReadCoils_of_not_configured {request : ReadCoilsRequest}
    (hdec : ReadCoilsRequest.decode pdu = .ok request)
    (h : ¬Configured (findCoil coils) request.startingAddress request.quantity.toNat) :
    handleReadCoils pdu coils coilStore = .ok (exception functionCodeReadCoils exceptionIllegalDataAddress) := by
  simp only [Configured, not_forall, Bool.not_eq_true, Option.isSome_eq_false_iff, Option.isNone_iff_eq_none] at h
  obtain ⟨i, hi, hnone⟩ := h
  rw [handleReadCoils, hdec, letOk_ok, readBits_of_not_configured _ _ hi (by rwa [Nat.zero_add])]

theorem handleReadCoils_of_configured {request : ReadCoilsRequest}
    (hdec : ReadCoilsRequest.decode pdu = .ok request)
    (h : Configured (findCoil coils) request.startingAddress request.quantity.toNat) :
    handleReadCoils pdu coils coilStore = .ok (ReadCoilsResponse.mk ((List.range request.quantity.toNat).map
      fun i => bitAtAddress (findCoil coils) CoilDescription.name coilStore
        (advance request.startingAddress i))).encode := by
  have hread := @readBits_of_configured _ _ CoilDescription.name coilStore _ _ 0
    (by simpa [Configured] using h)
  rw [handleReadCoils, hdec, letOk_ok, hread]
  simp only [Nat.zero_add]

theorem handleReadDiscreteInputs_of_err {e : DecodeError} (h : ReadDiscreteInputsRequest.decode pdu = .err e) :
    handleReadDiscreteInputs pdu discreteInputs discreteInputStore =
      .ok (exception functionCodeReadDiscreteInputs exceptionIllegalDataValue) := by
  rw [handleReadDiscreteInputs, h, letOk_err]

theorem handleReadDiscreteInputs_of_not_configured {request : ReadDiscreteInputsRequest}
    (hdec : ReadDiscreteInputsRequest.decode pdu = .ok request)
    (h : ¬Configured (findDiscreteInput discreteInputs) request.startingAddress request.quantity.toNat) :
    handleReadDiscreteInputs pdu discreteInputs discreteInputStore =
      .ok (exception functionCodeReadDiscreteInputs exceptionIllegalDataAddress) := by
  simp only [Configured, not_forall, Bool.not_eq_true, Option.isSome_eq_false_iff, Option.isNone_iff_eq_none] at h
  obtain ⟨i, hi, hnone⟩ := h
  rw [handleReadDiscreteInputs, hdec, letOk_ok, readBits_of_not_configured _ _ hi (by rwa [Nat.zero_add])]

theorem handleReadDiscreteInputs_of_configured {request : ReadDiscreteInputsRequest}
    (hdec : ReadDiscreteInputsRequest.decode pdu = .ok request)
    (h : Configured (findDiscreteInput discreteInputs) request.startingAddress request.quantity.toNat) :
    handleReadDiscreteInputs pdu discreteInputs discreteInputStore =
      .ok (ReadDiscreteInputsResponse.mk ((List.range request.quantity.toNat).map
        fun i => bitAtAddress (findDiscreteInput discreteInputs) DiscreteInputDescription.name
          discreteInputStore (advance request.startingAddress i))).encode := by
  have hread := @readBits_of_configured _ _ DiscreteInputDescription.name discreteInputStore _ _ 0
    (by simpa [Configured] using h)
  rw [handleReadDiscreteInputs, hdec, letOk_ok, hread]
  simp only [Nat.zero_add]

end Read

section Write

variable {pdu : Bytes} {coils : List CoilDescription} {coilStore : CoilStore}

theorem handleWriteSingleCoil_of_err {e : DecodeError} (h : WriteSingleCoilRequest.decode pdu = .err e) :
    handleWriteSingleCoil pdu coils coilStore =
      .ok (exception functionCodeWriteSingleCoil exceptionIllegalDataValue, coilStore) := by
  rw [handleWriteSingleCoil, h, letOk_err]

theorem handleWriteSingleCoil_of_none {request : WriteSingleCoilRequest}
    (hdec : WriteSingleCoilRequest.decode pdu = .ok request) (h : findCoil coils request.coilAddress = none) :
    handleWriteSingleCoil pdu coils coilStore =
      .ok (exception functionCodeWriteSingleCoil exceptionIllegalDataAddress, coilStore) := by
  simp only [handleWriteSingleCoil, hdec, letOk_ok, h]

theorem handleWriteSingleCoil_of_some {request : WriteSingleCoilRequest}
    (hdec : WriteSingleCoilRequest.decode pdu = .ok request) {coil : CoilDescription}
    (h : findCoil coils request.coilAddress = some coil) :
    handleWriteSingleCoil pdu coils coilStore =
      .ok ((WriteSingleCoilResponse.mk request.coilAddress request.coilValue).encode,
        coilStore.set coil.name ⟨request.coilValue⟩) := by
  simp only [handleWriteSingleCoil, hdec, letOk_ok, h]

theorem handleWriteMultipleCoils_of_err {e : DecodeError} (h : WriteMultipleCoilsRequest.decode pdu = .err e) :
    handleWriteMultipleCoils pdu coils coilStore =
      .ok (exception functionCodeWriteMultipleCoils exceptionIllegalDataValue, coilStore) := by
  rw [handleWriteMultipleCoils, h, letOk_err]

theorem handleWriteMultipleCoils_of_not_configured {request : WriteMultipleCoilsRequest}
    (hdec : WriteMultipleCoilsRequest.decode pdu = .ok request)
    (h : ¬Configured (findCoil coils) request.startingAddress request.coilValues.length) :
    handleWriteMultipleCoils pdu coils coilStore =
      .ok (exception functionCodeWriteMultipleCoils exceptionIllegalDataAddress, coilStore) := by
  have hnone : resolveCoils coils request.startingAddress request.coilValues 0 = none := by
    rw [← Option.isNone_iff_eq_none, ← Option.not_isSome, Bool.not_eq_true', ← Bool.not_eq_true,
      resolveCoils_isSome]
    simpa [Configured] using h
  simp only [handleWriteMultipleCoils, hdec, letOk_ok, hnone]

theorem handleWriteMultipleCoils_of_configured {request : WriteMultipleCoilsRequest}
    (hdec : WriteMultipleCoilsRequest.decode pdu = .ok request)
    (h : Configured (findCoil coils) request.startingAddress request.coilValues.length) :
    ∃ resolved, ResolvedFrom coils request.startingAddress request.coilValues 0 resolved ∧
      handleWriteMultipleCoils pdu coils coilStore =
        .ok ((WriteMultipleCoilsResponse.mk request.startingAddress
          (UInt16.ofNat request.coilValues.length)).encode, coilStore.setAll (storeCoils resolved)) := by
  have hsome : (resolveCoils coils request.startingAddress request.coilValues 0).isSome := by
    rw [resolveCoils_isSome]
    simpa [Configured] using h
  obtain ⟨resolved, hresolved⟩ := Option.isSome_iff_exists.mp hsome
  refine ⟨resolved, resolveCoils_eq_some.mp hresolved, ?_⟩
  simp only [handleWriteMultipleCoils, hdec, letOk_ok, hresolved]

end Write

end InfusedModbus.Server
