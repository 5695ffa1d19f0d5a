import InfusedModbus.Server.Handler

/-! Servers that share a bus. Every server sees every frame. Once a function code is
enabled, its requests are answered by the machine under the unit id and by nobody
else; but the options are consulted before the unit id, so a server that closed the
function code answers for everybody. -/

namespace InfusedModbus.Server

open Foundation Foundation.Outcome Protocol Datafs

/-- One server on the bus. -/
structure BusServer where
  serverOptions : ServerOptions
  machines : Machines
  tomlSource : String
  fc43BulkTransfer : Fc43BulkTransfer

/-- A request for the device description: it is answered whatever its unit id. -/
def AsksForDescription (pdu : Bytes) : Prop :=
  pdu.head? = some functionCodeEncapsulatedInterfaceTransport ∨
    pdu.head? = some functionCodeReadFileRecord ∧
      ∃ request, ReadFileRecordRequest.decode pdu = .ok request ∧ IsBulkTransfer request

namespace BusServer

variable (server : BusServer) (unitId : UInt8) (pdu : Bytes)

def respond : Handled (Option Bytes × Machines) :=
  handleRequest unitId pdu server.serverOptions server.machines server.tomlSource server.fc43BulkTransfer

/-- The server puts a response on the bus. -/
def Answers : Prop := ∃ response machines', server.respond unitId pdu = .ok (some response, machines')

/-- The server puts nothing on the bus, and keeps its state. -/
def StaysSilent : Prop := server.respond unitId pdu = .ok (none, server.machines)

variable {server unitId pdu}

theorem StaysSilent.not_answers (h : server.StaysSilent unitId pdu) : ¬server.Answers unitId pdu := by
  rintro ⟨response, machines', heq⟩
  cases h.symm.trans heq

/-- A closed function code is answered before the unit id is looked at. -/
theorem respond_of_disabled {functionCode : UInt8} (hhead : pdu.head? = some functionCode)
    (hdisabled : server.serverOptions.isEnabled functionCode = false) :
    server.respond unitId pdu = .ok (some (exception functionCode exceptionIllegalFunction), server.machines) := by
  rw [respond, handleRequest, hhead]
  dsimp only
  rw [if_pos hdisabled]

/-- An open function code is left to the machine under the unit id. -/
theorem respond_of_enabled {functionCode : UInt8} (hhead : pdu.head? = some functionCode)
    (henabled : server.serverOptions.isEnabled functionCode = true) (hmachine : ¬AsksForDescription pdu) :
    server.respond unitId pdu = handleUnitRequest unitId functionCode pdu server.machines := by
  rw [AsksForDescription, hhead] at hmachine
  obtain ⟨hidentification, hfile⟩ := not_or.mp hmachine
  rw [respond, handleRequest, hhead]
  dsimp only
  rw [if_neg (by simp [henabled]), if_neg fun h => hidentification (congrArg some h)]
  by_cases hread : functionCode = functionCodeReadFileRecord ∧ server.serverOptions.detectMachineLayout
  · rw [if_pos hread]
    cases hdec : ReadFileRecordRequest.decode pdu with
    | panic => exact absurd hdec (ReadFileRecordRequest.decode_ne_panic pdu)
    | err e => rfl
    | ok request =>
      rw [letOk_ok, if_neg fun h => hfile ⟨congrArg some hread.1, request, hdec, h⟩]
  · rw [if_neg hread]

/-- A server without the machine stays silent once the function code is open. -/
theorem staysSilent_of_stranger {functionCode : UInt8} (hhead : pdu.head? = some functionCode)
    (henabled : server.serverOptions.isEnabled functionCode = true) (hmachine : ¬AsksForDescription pdu)
    (hstranger : server.machines.get unitId = none) : server.StaysSilent unitId pdu := by
  rw [StaysSilent, respond_of_enabled hhead henabled hmachine, handleUnitRequest, hstranger]

/-- The machine that is addressed always answers. -/
theorem answers_of_machine {functionCode : UInt8} (hhead : pdu.head? = some functionCode)
    (henabled : server.serverOptions.isEnabled functionCode = true) (hmachine : ¬AsksForDescription pdu)
    {machine : ServerMachineState} (hget : server.machines.get unitId = some machine) :
    server.Answers unitId pdu := by
  obtain ⟨response, machine', heq, -⟩ := handleMachineRequest_served pdu machine functionCode
  refine ⟨response, server.machines.set unitId machine', ?_⟩
  rw [respond_of_enabled hhead henabled hmachine, handleUnitRequest, hget]
  dsimp only
  rw [heq, map_ok]

end BusServer

/-! ### The bus -/

section Bus

variable {ι : Type} (bus : ι → BusServer)

/-- No unit id is configured at two servers. -/
def DisjointUnits : Prop :=
  ∀ i j, i ≠ j → ∀ unitId, (bus i).machines.get unitId = none ∨ (bus j).machines.get unitId = none

def AtMostOneAnswers (unitId : UInt8) (pdu : Bytes) : Prop :=
  ∀ i j, (bus i).Answers unitId pdu → (bus j).Answers unitId pdu → i = j

variable {bus}

/-- Of the servers that opened the function code at most one answers, and a server
without the machine answers only to refuse a function code that it closed. -/
theorem open_function_code_answered_once (hdisjoint : DisjointUnits bus) {unitId : UInt8} {pdu : Bytes}
    {functionCode : UInt8} (hhead : pdu.head? = some functionCode) (hmachine : ¬AsksForDescription pdu) :
    (∀ i j, (bus i).serverOptions.isEnabled functionCode = true →
        (bus j).serverOptions.isEnabled functionCode = true →
        (bus i).Answers unitId pdu → (bus j).Answers unitId pdu → i = j) ∧
      ∀ i, (bus i).machines.get unitId = none →
        if (bus i).serverOptions.isEnabled functionCode = true then (bus i).StaysSilent unitId pdu
        else (bus i).respond unitId pdu =
          .ok (some (exception functionCode exceptionIllegalFunction), (bus i).machines) := by
  constructor
  · intro i j hi hj hansweri hanswerj
    by_contra hne
    rcases hdisjoint i j hne unitId with hstranger | hstranger
    · exact (BusServer.staysSilent_of_stranger hhead hi hmachine hstranger).not_answers hansweri
    · exact (BusServer.staysSilent_of_stranger hhead hj hmachine hstranger).not_answers hanswerj
  · intro i hstranger
    split
    · next henabled => exact BusServer.staysSilent_of_stranger hhead henabled hmachine hstranger
    · next hdisabled => exact BusServer.respond_of_disabled hhead (Bool.not_eq_true _ ▸ hdisabled)

end Bus

/-! ### Two servers on one bus -/

/-- A machine with one register. -/
def gauge : MachineDescription where
  name := "gauge"
  unitId := 1
  registers := [⟨"pressure", 0, .u16, .readOnly, none⟩]
  coils := []
  discreteInputs := []
  inputRegisters := []
  fileRecords := []
  memLayout := .abcd
  inputRegisterMemLayout := .abcd
  serverId := none

/-- The gauge under unit 1, next to a server under unit 2 with some options. -/
def gaugeBus (serverOptions : ServerOptions) : Bool → BusServer
  | true => ⟨.allowAll, Store.empty.set 1 (.fresh gauge), "", ⟨[], ""⟩⟩
  | false => ⟨serverOptions, Store.empty.set 2 (.fresh gauge), "", ⟨[], ""⟩⟩

def readPressurePdu : Bytes := [functionCodeReadHoldingRegisters, 0, 0, 0, 1]

theorem head_readPressurePdu : readPressurePdu.head? = some functionCodeReadHoldingRegisters := rfl

theorem not_asksForDescription_readPressure : ¬AsksForDescription readPressurePdu := by
  rintro (h | ⟨h, -⟩)
  · exact absurd h (by decide)
  · exact absurd h (by decide)

theorem disjointUnits_gaugeBus (serverOptions : ServerOptions) : DisjointUnits (gaugeBus serverOptions) := by
  intro i j hne unitId
  have hother : ∀ k : UInt8, k ≠ unitId → ∀ m, ((Store.empty : Machines).set k m).get unitId = none := by
    intro k hk m
    rw [Store.get_set_of_ne _ _ hk.symm, Store.get_empty]
  by_cases hone : (1 : UInt8) = unitId
  · have htwo : (2 : UInt8) ≠ unitId := hone ▸ by decide
    cases i with
    | false => exact .inl (hother 2 htwo _)
    | true =>
      cases j with
      | false => exact .inr (hother 2 htwo _)
      | true => exact absurd rfl hne
  · cases i with
    | true => exact .inl (hother 1 hone _)
    | false =>
      cases j with
      | true => exact .inr (hother 1 hone _)
      | false => exact absurd rfl hne

theorem gaugeBus_answers (serverOptions : ServerOptions) : (gaugeBus serverOptions true).Answers 1 readPressurePdu :=
  BusServer.answers_of_machine head_readPressurePdu rfl not_asksForDescription_readPressure (Store.get_set_self _ _ _)

/-- Of two servers that enable the read the one that has the gauge answers it, and the other
does not; under a unit that none of them has, neither does. -/
theorem open_function_code_answered_once_gauge :
    (gaugeBus .allowAll true).Answers 1 readPressurePdu ∧ AtMostOneAnswers (gaugeBus .allowAll) 1 readPressurePdu ∧
      (gaugeBus .allowAll false).StaysSilent 1 readPressurePdu ∧
      ∀ server, (gaugeBus .allowAll server).StaysSilent 3 readPressurePdu := by
  have henabled : ∀ server,
      (gaugeBus .allowAll server).serverOptions.isEnabled functionCodeReadHoldingRegisters = true := by
    decide
  have hstranger : ∀ server, (gaugeBus .allowAll server).machines.get 3 = none := by
    rintro (_ | _)
    · exact Store.get_set_of_ne _ _ (by decide)
    · exact Store.get_set_of_ne _ _ (by decide)
  have honce : ∀ i j, (gaugeBus .allowAll i).Answers 1 readPressurePdu →
      (gaugeBus .allowAll j).Answers 1 readPressurePdu → i = j := fun i j =>
    (@open_function_code_answered_once _ _ (disjointUnits_gaugeBus .allowAll) 1 _ _ head_readPressurePdu
      not_asksForDescription_readPressure).1 i j (henabled i) (henabled j)
  have hother := (@open_function_code_answered_once _ _ (disjointUnits_gaugeBus .allowAll) 1 _ _ head_readPressurePdu
    not_asksForDescription_readPressure).2 false (Store.get_set_of_ne _ _ (by decide))
  rw [if_pos (henabled false)] at hother
  refine ⟨gaugeBus_answers _, honce, hother, fun server => ?_⟩
  have hsilent := (@open_function_code_answered_once _ _ (disjointUnits_gaugeBus .allowAll) 3 _ _ head_readPressurePdu
    not_asksForDescription_readPressure).2 server (hstranger server)
  rwa [if_pos (henabled server)] at hsilent

/-- The read of the gauge is answered by the gauge and refused by a server that enables nothing. -/
theorem closed_function_code_answered_twice :
    DisjointUnits (gaugeBus {}) ∧ ¬AsksForDescription readPressurePdu ∧ (gaugeBus {} false).machines.get 1 = none ∧
      (gaugeBus {} false).Answers 1 readPressurePdu ∧ ¬AtMostOneAnswers (gaugeBus {}) 1 readPressurePdu := by
  have hrefused : (gaugeBus {} false).Answers 1 readPressurePdu :=
    ⟨_, _, BusServer.respond_of_disabled head_readPressurePdu rfl⟩
  exact ⟨disjointUnits_gaugeBus _, not_asksForDescription_readPressure, Store.get_set_of_ne _ _ (by decide), hrefused,
    fun h => absurd (h true false (gaugeBus_answers _) hrefused) (by decide)⟩

end InfusedModbus.Server
