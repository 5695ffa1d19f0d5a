import InfusedModbus.Server.Handler

/-! What a server has to offer of its description: the text in pieces, or a manifest in pieces and
the compressed text in records. The machines have no part in either, so an answer is the same
whatever has been written to them. -/

namespace InfusedModbus.Server

open Foundation Foundation.Outcome Protocol

/-- Deflating, and writing a machine as text, both by other libraries. -/
structure BulkCodecs where
  compress : Bytes → Bytes
  machineToml : ManifestMachine → String

def Fc43BulkTransfer.build (codecs : BulkCodecs) (tomlSource : String) (machines : List ManifestMachine) :
    Fc43BulkTransfer :=
  let compressedToml := codecs.compress (utf8 tomlSource)
  let manifest : DeviceDescriptionManifest :=
    ⟨reservedDeviceDescriptionFileNumber, UInt32.ofNat compressedToml.length, machines⟩
  ⟨compressedToml, manifest.toTomlString codecs.machineToml⟩

/-- The objects that a server hands out: those of the text, or those of the manifest. -/
def identificationObjects (tomlSource : String) (detectMachineLayout : Bool) (fc43BulkTransfer : Fc43BulkTransfer) :
    Option (List DeviceIdentificationObject) :=
  match buildObjects tomlSource with
  | .ok objects => some objects
  | .error _ => if detectMachineLayout then (buildObjects fc43BulkTransfer.manifestToml).toOption else none

variable {serverOptions : ServerOptions} {tomlSource : String} {fc43BulkTransfer : Fc43BulkTransfer}
  (unitId : UInt8) (machines : Machines)

/-- The machines have no part in an answer about the description. -/
theorem handleRequest_identification {objectId : UInt8}
    (henabled : serverOptions.isEnabled functionCodeEncapsulatedInterfaceTransport) :
    handleRequest unitId (ReadDeviceIdentificationRequest.mk readDeviceIdExtended objectId).encode serverOptions
        machines tomlSource fc43BulkTransfer =
      .ok (some (match identificationObjects tomlSource serverOptions.detectMachineLayout fc43BulkTransfer with
        | some objects => handleReadDeviceIdentification ⟨readDeviceIdExtended, objectId⟩ objects
        | none => exception functionCodeEncapsulatedInterfaceTransport exceptionServerDeviceFailure), machines) := by
  rw [handleRequest, show (ReadDeviceIdentificationRequest.mk readDeviceIdExtended objectId).encode.head? =
    some functionCodeEncapsulatedInterfaceTransport from rfl]
  dsimp only
  rw [if_neg (by simp [henabled]), if_pos rfl, handleEncapsulatedInterfaceTransport,
    ReadDeviceIdentificationRequest.decode_encode, letOk_ok, identificationObjects]
  cases buildObjects tomlSource with
  | ok objects => rfl
  | error e =>
    dsimp only
    split
    · cases buildObjects fc43BulkTransfer.manifestToml <;> rfl
    · rfl

/-- Nor in an answer with a record of the compressed text. -/
theorem handleRequest_bulkTransfer {request : ReadFileRecordRequest}
    (henabled : serverOptions.isEnabled functionCodeReadFileRecord) (hlayout : serverOptions.detectMachineLayout)
    (hdec : ReadFileRecordRequest.decode request.encode = .ok request) (hbulk : IsBulkTransfer request) :
    ∃ response, handleReadDeviceDescriptionBulkTransfer request fc43BulkTransfer.compressedToml = .ok response ∧
      handleRequest unitId request.encode serverOptions machines tomlSource fc43BulkTransfer =
        .ok (some response, machines) := by
  have hresponse : ∃ response,
      handleReadDeviceDescriptionBulkTransfer request fc43BulkTransfer.compressedToml = .ok response := by
    rcases handleReadDeviceDescriptionBulkTransfer_cases request fc43BulkTransfer.compressedToml with
      ⟨code, hcode⟩ | ⟨records, -, -, hrecords⟩
    · exact ⟨_, hcode⟩
    · exact ⟨_, hrecords⟩
  obtain ⟨response, hresponse⟩ := hresponse
  refine ⟨response, hresponse, ?_⟩
  rw [handleRequest, show request.encode.head? = some functionCodeReadFileRecord from rfl]
  dsimp only
  rw [if_neg (by simp [henabled]), if_neg (by decide), if_pos ⟨rfl, hlayout⟩, hdec, letOk_ok, if_pos hbulk, hresponse,
    map_ok]

/-- A function code that is off is refused. -/
theorem handleRequest_disabled {pdu : Bytes} {functionCode : UInt8} (hhead : pdu.head? = some functionCode)
    (hdisabled : serverOptions.isEnabled functionCode = false) :
    handleRequest unitId pdu serverOptions machines tomlSource fc43BulkTransfer =
      .ok (some (exception functionCode exceptionIllegalFunction), machines) := by
  rw [handleRequest, hhead]
  dsimp only
  rw [if_pos hdisabled]

end InfusedModbus.Server
