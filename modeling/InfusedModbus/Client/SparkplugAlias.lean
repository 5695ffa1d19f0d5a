import InfusedModbus.Foundation.Numbering
import InfusedModbus.Protocol.DeviceDescription

/-! Aliases for the points of all machines of an edge node. The points are numbered machine by
machine and section by section under their machine's and their own name. -/

namespace InfusedModbus.Client

open Foundation Protocol

/-- A file record has no name of its own. -/
def fileRecordMetricName (fileNumber recordNumber : UInt16) : String :=
  toString fileNumber ++ ":" ++ toString recordNumber

/-- The names of a machine's points, in the order in which they are numbered. -/
def metricNames (machine : MachineDescription) : List String :=
  machine.registers.map RegisterDescription.name ++ machine.coils.map CoilDescription.name ++
    machine.discreteInputs.map DiscreteInputDescription.name ++
    machine.inputRegisters.map InputRegisterDescription.name ++
    machine.fileRecords.map fun entry => fileRecordMetricName entry.fileNumber entry.recordNumber

/-- The keys of the alias map, in the order of the insertions. -/
def aliasKeys (machines : List MachineDescription) : List (String × String) :=
  machines.flatMap fun machine => (metricNames machine).map fun name => (machine.name, name)

structure AliasAllocator where
  aliases : Store (String × String) ℕ
  reverse : Store ℕ (String × String)

namespace AliasAllocator

/-- The insertions count up; the reverse map is collected from what is left of them. -/
def build (machines : List MachineDescription) : AliasAllocator where
  aliases := numbers (aliasKeys machines)
  reverse := owners (aliasKeys machines)

def aliasFor (aliases : AliasAllocator) (machineName metricName : String) : Option ℕ :=
  aliases.aliases.get (machineName, metricName)

def metricForAlias (aliases : AliasAllocator) (metricAlias : ℕ) : Option (String × String) :=
  aliases.reverse.get metricAlias

variable {machines : List MachineDescription} {machineName metricName : String} {metricAlias : ℕ}

/-- The two lookups are inverse to each other. -/
theorem metricForAlias_build :
    (build machines).metricForAlias metricAlias = some (machineName, metricName) ↔
      (build machines).aliasFor machineName metricName = some metricAlias := get_owners

theorem aliasFor_injective {machineName' metricName' : String}
    (h : (build machines).aliasFor machineName metricName = some metricAlias)
    (h' : (build machines).aliasFor machineName' metricName' = some metricAlias) :
    machineName = machineName' ∧ metricName = metricName' := Prod.mk.inj (numbers_injective h h')

theorem mem_aliasKeys : (machineName, metricName) ∈ aliasKeys machines ↔
    ∃ machine ∈ machines, machine.name = machineName ∧ metricName ∈ metricNames machine := by
  rw [aliasKeys, List.mem_flatMap]
  constructor
  · rintro ⟨machine, hmachine, hkey⟩
    obtain ⟨name, hname, heq⟩ := List.mem_map.mp hkey
    obtain ⟨rfl, rfl⟩ := Prod.mk.inj heq
    exact ⟨machine, hmachine, rfl, hname⟩
  · rintro ⟨machine, hmachine, rfl, hname⟩
    exact ⟨machine, hmachine, List.mem_map_of_mem hname⟩

/-- Every point of every machine has an alias. -/
theorem exists_aliasFor {machine : MachineDescription} (hmachine : machine ∈ machines)
    (hname : metricName ∈ metricNames machine) :
    ∃ metricAlias, (build machines).aliasFor machine.name metricName = some metricAlias :=
  exists_numbers (mem_aliasKeys.mpr ⟨machine, hmachine, rfl, hname⟩)

end AliasAllocator

end InfusedModbus.Client
