import InfusedModbus.Client.BulkTransfer

/-! A client connected to a whole server. When device identification is enabled the
server answers the client's requests as the identification handler does, and when file
record reads and the machine layout are enabled too, requests for the reserved file are
answered from the compressed description. So both transfers are exact there as well. -/

namespace InfusedModbus.Client

open Foundation Foundation.Outcome Protocol

/-- A connection to a server whose machines stay as they are. -/
def serverConnection (unitId : UInt8) (serverOptions : Server.ServerOptions) (machines : Server.Machines)
    (tomlSource : String) (fc43BulkTransfer : Server.Fc43BulkTransfer) : Connection := fun requestPdu =>
  match Server.handleRequest unitId requestPdu serverOptions machines tomlSource fc43BulkTransfer with
  | .ok (response, _) => response
  | _ => none

section Server

variable {unitId : UInt8} {serverOptions : Server.ServerOptions} {machines : Server.Machines} {tomlSource : String}
  {fc43BulkTransfer : Server.Fc43BulkTransfer}

theorem exchange_congr {connection connection' : Connection} {requestPdu : Bytes}
    (h : connection requestPdu = connection' requestPdu) :
    exchange connection requestPdu = exchange connection' requestPdu := by
  rw [exchange, exchange, h]

theorem serverConnection_identification (henabled : serverOptions.readDeviceIdentification = true)
    {objects : List DeviceIdentificationObject} (hobjects : Server.buildObjects tomlSource = .ok objects)
    (request : ReadDeviceIdentificationRequest) :
    serverConnection unitId serverOptions machines tomlSource fc43BulkTransfer request.encode =
      identificationServer objects request.encode := by
  have hhead : request.encode.head? = some functionCodeEncapsulatedInterfaceTransport := rfl
  have hcode : serverOptions.isEnabled functionCodeEncapsulatedInterfaceTransport = true := henabled
  rw [serverConnection, Server.handleRequest, hhead]
  dsimp only
  rw [if_neg (by simp [hcode]), if_pos rfl, Server.handleEncapsulatedInterfaceTransport,
    ReadDeviceIdentificationRequest.decode_encode, letOk_ok, hobjects, map_ok, identificationServer,
    ReadDeviceIdentificationRequest.decode_encode]

/-- The description of a server that fits the object ids is fetched exactly. -/
theorem fetchChunks_server (henabled : serverOptions.readDeviceIdentification = true)
    (hlen : (chunks Server.maxTomlChunkLen (Server.utf8 tomlSource)).length ≤ Server.chunksAvailable) :
    ∃ requests ≤ 128, fetchChunks (serverConnection unitId serverOptions machines tomlSource fc43BulkTransfer)
      requests = some (.ok (chunks Server.maxTomlChunkLen (Server.utf8 tomlSource))) := by
  obtain ⟨requests, hrequests, hfetch⟩ := fetchChunks_description hlen fun piece hpiece =>
    (mem_chunks (by decide) piece hpiece).2
  refine ⟨requests, hrequests, ?_⟩
  rw [← hfetch]
  unfold fetchChunks
  congr 1
  funext state
  rw [fetchTurn, fetchTurn,
    exchange_congr (serverConnection_identification henabled (Server.buildObjects_of_le hlen) _)]

theorem serverConnection_bulkTransfer (henabled : serverOptions.readFileRecord = true)
    (hlayout : serverOptions.detectMachineLayout = true) (recordNumber recordLength : UInt16) :
    serverConnection unitId serverOptions machines tomlSource fc43BulkTransfer
        (ReadFileRecordRequest.mk [⟨reservedDeviceDescriptionFileNumber, recordNumber, recordLength⟩]).encode =
      bulkTransferServer fc43BulkTransfer.compressedToml
        (ReadFileRecordRequest.mk [⟨reservedDeviceDescriptionFileNumber, recordNumber, recordLength⟩]).encode := by
  generalize hrequest : ReadFileRecordRequest.mk
    [⟨reservedDeviceDescriptionFileNumber, recordNumber, recordLength⟩] = request
  have hdec : ReadFileRecordRequest.decode request.encode = .ok request := by
    rw [← hrequest]
    exact ReadFileRecordRequest.decode_encode (by simp) (by simp [fileRecordSubRequestLen])
  have hbulk : Server.IsBulkTransfer request := by
    rw [← hrequest]
    exact ⟨by simp, by simp⟩
  have hhead : request.encode.head? = some functionCodeReadFileRecord := rfl
  have hcode : serverOptions.isEnabled functionCodeReadFileRecord = true := henabled
  rw [serverConnection, Server.handleRequest, hhead]
  dsimp only
  rw [if_neg (by simp [hcode]), if_neg (by decide), if_pos ⟨rfl, hlayout⟩, hdec, letOk_ok, if_pos hbulk,
    bulkTransferServer, hdec]
  dsimp only
  cases Server.handleReadDeviceDescriptionBulkTransfer request fc43BulkTransfer.compressedToml <;> rfl

/-- The compressed description of a server is fetched exactly when it has no chunk
65535. -/
theorem fetchCompressed_server (overflowChecks : Bool) (henabled : serverOptions.readFileRecord = true)
    (hlayout : serverOptions.detectMachineLayout = true) (described : List ManifestMachine)
    (h : fc43BulkTransfer.compressedToml.length ≤ 65535 * bulkTransferChunkBytes) :
    ∃ turns, fetchCompressed overflowChecks
      (serverConnection unitId serverOptions machines tomlSource fc43BulkTransfer)
      (announce fc43BulkTransfer.compressedToml described) turns = some (.ok fc43BulkTransfer.compressedToml) := by
  obtain ⟨turns, hturns⟩ := fetchCompressed_of_le overflowChecks described h
  refine ⟨turns, ?_⟩
  rw [← hturns]
  unfold fetchCompressed
  congr 1
  funext state
  rw [bulkTurn, bulkTurn]
  cases bulkTransferChunkRange (announce fc43BulkTransfer.compressedToml described).compressedLength.toNat
    state.recordNumber with
  | none => rfl
  | some range =>
    simp only [exchange_congr (@serverConnection_bulkTransfer unitId _ machines tomlSource _
      henabled hlayout state.recordNumber _), announce]

end Server

end InfusedModbus.Client
