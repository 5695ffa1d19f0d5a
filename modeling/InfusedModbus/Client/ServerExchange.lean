import InfusedModbus.Protocol.Transport
import InfusedModbus.Server.Handler

/-! Requests that reach a server. A round trip hands the PDU to whatever is at the other
end and brings the response back; here that is the server itself, with its machines as
the state, and nobody else talks to it. -/

namespace InfusedModbus.Client

open Foundation Foundation.Outcome Protocol Server

/-- `Connection::request`: the response PDU or an error, and the other end afterwards. -/
abbrev Exchange (σ : Type) := UInt8 → Bytes → σ → Outcome IoError Bytes × σ

/-- A server over a transport that does not fail. No machine answers to an unknown unit id. -/
def serverExchange (serverOptions : ServerOptions) (tomlSource : String) (fc43BulkTransfer : Fc43BulkTransfer) :
    Exchange Machines := fun unitId pdu machines =>
  match handleRequest unitId pdu serverOptions machines tomlSource fc43BulkTransfer with
  | .ok (some response, machines') => (.ok response, machines')
  | .ok (none, machines') => (.err .timedOut, machines')
  | .err e => e.elim
  | .panic => (.panic, machines)

section Machine

variable {serverOptions : ServerOptions} {tomlSource : String} {fc43BulkTransfer : Fc43BulkTransfer}
  {unitId functionCode : UInt8} {pdu response : Bytes} {machines : Machines} {machine machine' : ServerMachineState}

/-- A request that only its machine can serve is answered by that machine. -/
theorem serverExchange_of_machine (hhead : pdu.head? = some functionCode)
    (henabled : serverOptions.isEnabled functionCode) (hget : machines.get unitId = some machine)
    (hidentification : functionCode ≠ functionCodeEncapsulatedInterfaceTransport)
    (hfile : functionCode ≠ functionCodeReadFileRecord)
    (h : handleMachineRequest functionCode pdu machine = .ok (response, machine')) :
    serverExchange serverOptions tomlSource fc43BulkTransfer unitId pdu machines =
      (.ok response, machines.set unitId machine') := by
  rw [serverExchange, handleRequest_of_machine hhead henabled hget hidentification hfile, h, map_ok]

/-- So is the read of file records that are not the compressed description. -/
theorem serverExchange_readFileRecord (hhead : pdu.head? = some functionCodeReadFileRecord)
    (henabled : serverOptions.isEnabled functionCodeReadFileRecord) (hget : machines.get unitId = some machine)
    {request : ReadFileRecordRequest} (hdec : ReadFileRecordRequest.decode pdu = .ok request)
    (hbulk : serverOptions.detectMachineLayout → ¬IsBulkTransfer request)
    (h : handleMachineRequest functionCodeReadFileRecord pdu machine = .ok (response, machine')) :
    serverExchange serverOptions tomlSource fc43BulkTransfer unitId pdu machines =
      (.ok response, machines.set unitId machine') := by
  rw [serverExchange, handleRequest_readFileRecord hhead henabled hget hdec hbulk, h, map_ok]

end Machine

end InfusedModbus.Client
