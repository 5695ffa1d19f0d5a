import InfusedModbus.Foundation.Outcome
import InfusedModbus.Protocol.DeviceDescription

/-! What a server announces when its description is too long to be sent as text: the
file that holds the compressed description and how long that is. Server and client
share the arithmetic that cuts it into records. -/

namespace InfusedModbus.Protocol

open Foundation

/-- How many bytes of the compressed description one record carries: the largest even
number that fits a response. -/
def bulkTransferChunkBytes : ℕ := 248

/-- Where the chunk of a record number starts and ends; none past the end. -/
def bulkTransferChunkRange (compressedLength : ℕ) (recordNumber : UInt16) : Option (ℕ × ℕ) :=
  let start := recordNumber.toNat * bulkTransferChunkBytes
  if start ≥ compressedLength then none else some (start, min (start + bulkTransferChunkBytes) compressedLength)

structure ManifestMachine where
  name : String
  unitId : UInt8
  deriving DecidableEq, Repr

structure DeviceDescriptionManifest where
  fileNumber : UInt16
  compressedLength : UInt32
  machines : List ManifestMachine
  deriving DecidableEq, Repr

theorem bulkTransferChunkRange_of_lt {compressedLength : ℕ} {recordNumber : UInt16}
    (h : recordNumber.toNat * bulkTransferChunkBytes < compressedLength) :
    bulkTransferChunkRange compressedLength recordNumber =
      some (recordNumber.toNat * bulkTransferChunkBytes,
        min (recordNumber.toNat * bulkTransferChunkBytes + bulkTransferChunkBytes) compressedLength) := by
  rw [bulkTransferChunkRange, if_neg (by omega)]

theorem bulkTransferChunkRange_of_le {compressedLength : ℕ} {recordNumber : UInt16}
    (h : compressedLength ≤ recordNumber.toNat * bulkTransferChunkBytes) :
    bulkTransferChunkRange compressedLength recordNumber = none := by
  rw [bulkTransferChunkRange, if_pos (by omega)]

theorem bulkTransferChunkRange_eq_some {compressedLength : ℕ} {recordNumber : UInt16} {range : ℕ × ℕ}
    (h : bulkTransferChunkRange compressedLength recordNumber = some range) :
    range.1 = recordNumber.toNat * bulkTransferChunkBytes ∧ range.1 < range.2 ∧ range.2 ≤ compressedLength ∧
      range.2 - range.1 ≤ bulkTransferChunkBytes := by
  have hchunk : bulkTransferChunkBytes = 248 := rfl
  simp only [bulkTransferChunkRange] at h
  split at h
  · cases h
  · obtain rfl := Option.some.inj h
    refine ⟨rfl, ?_, ?_, ?_⟩ <;> dsimp only <;> omega

/-! ### The text of a manifest -/

/-- The lines of a text; a carriage return goes with the line feed after it. -/
def lines (text : List Char) : List (List Char) :=
  let parts := text.splitOn '\n'
  let terminated := parts.dropLast.map fun line => if line.getLast? = some '\r' then line.dropLast else line
  terminated ++ parts.getLast?.toList.filter (· ≠ [])

/-- A machine on one line, from the lines that the serializer writes of it. -/
def machineToInlineToml (machineToml : ManifestMachine → String) (machine : ManifestMachine) : String :=
  "\x7b " ++ ", ".intercalate ((lines (machineToml machine).toList).map String.ofList) ++ " \x7d"

/-- How the serializer writes one machine is left to a parameter. -/
def DeviceDescriptionManifest.toTomlString (machineToml : ManifestMachine → String)
    (manifest : DeviceDescriptionManifest) : String :=
  let machines := ", ".intercalate (manifest.machines.map (machineToInlineToml machineToml))
  "file_number = " ++ toString manifest.fileNumber.toNat ++ "\ncompressed_length = " ++
    toString manifest.compressedLength.toNat ++ "\nmachines = [" ++ machines ++ "]\n"

example : DeviceDescriptionManifest.toTomlString
    (fun machine => "name = \"" ++ machine.name ++ "\"\nunit_id = " ++ toString machine.unitId.toNat ++ "\n")
    ⟨0xFFFF, 12, [⟨"PumpA", 1⟩, ⟨"PumpB", 2⟩]⟩ =
    "file_number = 65535\ncompressed_length = 12\nmachines = [\x7b name = \"PumpA\", unit_id = 1 \x7d, \x7b name = \"PumpB\", unit_id = 2 \x7d]\n" := by
  decide +kernel

end InfusedModbus.Protocol
