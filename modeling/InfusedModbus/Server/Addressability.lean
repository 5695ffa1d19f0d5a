import InfusedModbus.Protocol.DeviceDescriptionParse
import InfusedModbus.Server.PointReach
import InfusedModbus.Server.TwoViews

/-! Which accepted descriptions leave every point within reach of both sides. The parser
refuses two machines of one name, an address past the end and a reserved file number; it
compares neither unit ids, nor names of points, nor addresses, nor record numbers, and it
looks only at the first word of a value. An accepted description is addressable without
ambiguity exactly when its tables are free of all these collisions. -/

namespace InfusedModbus.Server

open Foundation Foundation.Outcome Protocol Datafs

/-! ### Tables without collisions -/

/-- The entries span addresses that exist and do not overlap. -/
structure SpansApart {ε : Type} (start size : ε → ℕ) (entries : List ε) : Prop where
  disjoint : entries.Pairwise fun r s => Disjoint (extent start size r) (extent start size s)
  fits : ∀ r ∈ entries, start r + size r ≤ 65536

/-- The names of a machine's points, section by section. -/
def rawPointNames (raw : RawMachine) : List String :=
  raw.registers.entries.map RawRegisterEntry.name ++ (raw.coils.entries.map RawBitEntry.name ++
    (raw.discreteInputs.entries.map RawBitEntry.name ++ raw.inputRegisters.entries.map RawInputRegisterEntry.name))

/-- Tables in which no two points share a name, a word or a number, every name is a word and
every record fits a response. -/
structure Collisionless (raw : RawMachine) : Prop where
  names : (rawPointNames raw).Nodup
  words : ∀ name ∈ rawPointNames raw, IsWord name
  registers : SpansApart (fun entry => addressOf raw.registers.baseAddress entry.offset)
    (fun entry => entry.dataType.registerCount) raw.registers.entries
  coils : (raw.coils.entries.map RawBitEntry.offset).Nodup
  discreteInputs : (raw.discreteInputs.entries.map RawBitEntry.offset).Nodup
  inputRegisters : SpansApart (fun entry => addressOf raw.inputRegisters.baseAddress entry.offset)
    (fun entry => entry.dataType.registerCount) raw.inputRegisters.entries
  recordKeys : (raw.fileRecords.map fun entry => (entry.fileNumber, entry.recordNumber)).Nodup
  recordLengths : ∀ entry ∈ raw.fileRecords, entry.recordLength.toNat ≤ 124

section Flat

/-- A section of entries with their addresses is flat when the entries' spans are apart. -/
theorem flatSection_map_iff {ε ρ : Type} {name : ρ → String} {address : ρ → UInt16} {size : ρ → ℕ} {f : ε → ρ}
    {entries : List ε} {start : ε → ℕ} (hstart : ∀ entry ∈ entries, (address (f entry)).toNat = start entry) :
    FlatSection name address size (entries.map f) ↔
      (entries.map fun entry => name (f entry)).Nodup ∧ SpansApart start (fun entry => size (f entry)) entries := by
  have hnames : ((entries.map f).map name) = entries.map fun entry => name (f entry) := List.map_map
  have hextent : ∀ entry ∈ entries, extent (fun r => (address r).toNat) size (f entry) =
      extent start (fun entry => size (f entry)) entry := by
    intro entry hentry
    rw [extent, extent, hstart entry hentry]
  have hdisjoint : ((entries.map f).Pairwise fun r s => Disjoint (extent (fun r => (address r).toNat) size r)
      (extent (fun r => (address r).toNat) size s)) ↔
        entries.Pairwise fun r s => Disjoint (extent start (fun entry => size (f entry)) r)
          (extent start (fun entry => size (f entry)) s) := by
    rw [List.pairwise_map]
    constructor
    · intro h
      refine h.imp_of_mem ?_
      intro r s hr hs hrs
      rwa [hextent r hr, hextent s hs] at hrs
    · intro h
      refine h.imp_of_mem ?_
      intro r s hr hs hrs
      rwa [hextent r hr, hextent s hs]
  constructor
  · intro h
    refine ⟨hnames ▸ h.names, hdisjoint.mp h.disjoint, ?_⟩
    intro entry hentry
    rw [← hstart entry hentry]
    exact h.fits (f entry) (List.mem_map_of_mem hentry)
  · rintro ⟨hnodup, happart⟩
    refine ⟨hnames ▸ hnodup, hdisjoint.mpr happart.disjoint, ?_⟩
    rw [List.forall_mem_map]
    intro entry hentry
    rw [hstart entry hentry]
    exact happart.fits entry hentry

/-- Bits at different offsets are apart. -/
theorem spansApart_bits_iff {ε : Type} {baseAddress : UInt16} {offsetOf : ε → UInt16} {entries : List ε}
    (hfits : ∀ entry ∈ entries, addressOf baseAddress (offsetOf entry) < 65536) :
    SpansApart (fun entry => addressOf baseAddress (offsetOf entry)) (fun _ => 1) entries ↔
      (entries.map offsetOf).Nodup := by
  have hapart : ∀ r s : ε, Disjoint (extent (fun entry => addressOf baseAddress (offsetOf entry)) (fun _ => 1) r)
      (extent (fun entry => addressOf baseAddress (offsetOf entry)) (fun _ => 1) s) ↔ offsetOf r ≠ offsetOf s := by
    intro r s
    rw [extent, extent, Set.disjoint_left, ne_eq, ← UInt16.toNat_inj]
    simp only [addressOf, Set.mem_Ico]
    constructor
    · intro hdisjoint heq
      exact hdisjoint ⟨le_rfl, Nat.lt_succ_self _⟩ (by omega)
    · intro hne x hr hs
      omega
  rw [List.Nodup, List.pairwise_map]
  constructor
  · intro h
    exact h.disjoint.imp fun {r s} => (hapart r s).mp
  · intro h
    exact ⟨h.imp fun {r s} => (hapart r s).mpr, hfits⟩

theorem toNat_add_of_lt {baseAddress offset : UInt16} (h : addressOf baseAddress offset < 65536) :
    (baseAddress + offset).toNat = addressOf baseAddress offset := by
  rw [UInt16.toNat_add, addressOf]
  exact Nat.mod_eq_of_lt h

variable {isValidUnitCode : String → Bool} {raw : RawMachine}

theorem pointNames_described (raw : RawMachine) : DataPoint.pointNames raw.described = rawPointNames raw := by
  simp only [DataPoint.pointNames, rawPointNames, RawMachine.described, List.map_map]
  rfl

/-- The description of a machine is flat exactly when its tables have no collisions within a
section. -/
theorem flatDescription_described_iff (h : raw.Resolvable isValidUnitCode) :
    FlatDescription raw.described ↔
      ((raw.registers.entries.map RawRegisterEntry.name).Nodup ∧
        SpansApart (fun entry => addressOf raw.registers.baseAddress entry.offset)
          (fun entry => entry.dataType.registerCount) raw.registers.entries) ∧
      ((raw.coils.entries.map RawBitEntry.name).Nodup ∧ (raw.coils.entries.map RawBitEntry.offset).Nodup) ∧
      ((raw.discreteInputs.entries.map RawBitEntry.name).Nodup ∧
        (raw.discreteInputs.entries.map RawBitEntry.offset).Nodup) ∧
      ((raw.inputRegisters.entries.map RawInputRegisterEntry.name).Nodup ∧
        SpansApart (fun entry => addressOf raw.inputRegisters.baseAddress entry.offset)
          (fun entry => entry.dataType.registerCount) raw.inputRegisters.entries) ∧
      (raw.fileRecords.map fun entry => (entry.fileNumber, entry.recordNumber)).Nodup := by
  have hregisters := @flatSection_map_iff _ _ RegisterDescription.name RegisterDescription.address
    (width RegisterDescription.dataType) (fun entry : RawRegisterEntry =>
      ⟨entry.name, raw.registers.baseAddress + entry.offset, entry.dataType, entry.access, entry.unit⟩) raw.registers.entries
    (fun entry => addressOf raw.registers.baseAddress entry.offset)
    fun entry hentry => toNat_add_of_lt (h.registers entry hentry)
  have hinputRegisters := @flatSection_map_iff _ _ InputRegisterDescription.name InputRegisterDescription.address
    (width InputRegisterDescription.dataType) (fun entry : RawInputRegisterEntry =>
      ⟨entry.name, raw.inputRegisters.baseAddress + entry.offset, entry.dataType, entry.unit⟩) raw.inputRegisters.entries
    (fun entry => addressOf raw.inputRegisters.baseAddress entry.offset)
    fun entry hentry => toNat_add_of_lt (h.inputRegisters entry hentry)
  have hcoils := @flatSection_map_iff _ _ CoilDescription.name CoilDescription.address (fun _ => 1)
    (fun entry : RawBitEntry => ⟨entry.name, raw.coils.baseAddress + entry.offset⟩) raw.coils.entries
    (fun entry => addressOf raw.coils.baseAddress entry.offset)
    fun entry hentry => toNat_add_of_lt (h.coils entry hentry)
  have hdiscreteInputs := @flatSection_map_iff _ _ DiscreteInputDescription.name DiscreteInputDescription.address
    (fun _ => 1) (fun entry : RawBitEntry => ⟨entry.name, raw.discreteInputs.baseAddress + entry.offset⟩)
    raw.discreteInputs.entries (fun entry => addressOf raw.discreteInputs.baseAddress entry.offset)
    fun entry hentry => toNat_add_of_lt (h.discreteInputs entry hentry)
  rw [spansApart_bits_iff h.coils] at hcoils
  rw [spansApart_bits_iff h.discreteInputs] at hdiscreteInputs
  have hkeys : (raw.described.fileRecords.map recordKey) =
      raw.fileRecords.map fun entry => (entry.fileNumber, entry.recordNumber) := List.map_map
  constructor
  · intro hflat
    exact ⟨hregisters.mp hflat.registers, hcoils.mp hflat.coils, hdiscreteInputs.mp hflat.discreteInputs,
      hinputRegisters.mp hflat.inputRegisters, hkeys ▸ hflat.fileRecords⟩
  · rintro ⟨hregister, hcoil, hdiscreteInput, hinputRegister, hkey⟩
    exact ⟨hregisters.mpr hregister, hcoils.mpr hcoil, hdiscreteInputs.mpr hdiscreteInput,
      hinputRegisters.mpr hinputRegister, hkeys ▸ hkey⟩

end Flat

/-! ### Every point within reach -/

/-- Every machine is under its unit id, its sections are flat, and each of its points is read
by a request of its own and by a line of its own. -/
structure AllAddressable (process : ServerProcess) (text : SocketText) : Prop where
  unitIds : (process.description.machines.map MachineDescription.unitId).Nodup
  routed : ∀ description ∈ process.description.machines, process.machineAt description.unitId = some description
  flat : ∀ description ∈ process.description.machines, FlatDescription description
  wire : ∀ description ∈ process.description.machines, ∀ point : DataPoint, point.Of description →
    WireReadable process description point
  socket : ∀ description ∈ process.description.machines, ∀ point : DataPoint, point.Of description →
    SocketReadable process text description point

section AllAddressable

variable {process : ServerProcess} {text : SocketText} {description : MachineDescription}

theorem isWord_of_isValidMachineName {name : String} (h : isValidMachineName name) : IsWord name := by
  rw [isValidMachineName, Bool.and_eq_true, Bool.not_eq_true', List.isEmpty_eq_false_iff] at h
  refine ⟨h.1, ?_⟩
  intro c hc
  have hname := List.all_eq_true.mp h.2 c hc
  have hascii : 33 ≤ c.toNat ∧ c.toNat ≤ 122 := by
    simp only [isNameCharacter, Bool.or_eq_true, Bool.and_eq_true, decide_eq_true_eq, beq_iff_eq] at hname
    rcases hname with (((⟨hlow, hhigh⟩ | ⟨hlow, hhigh⟩) | ⟨hlow, hhigh⟩) | rfl) | rfl
    · exact ⟨le_trans (by decide) (show 97 ≤ c.toNat from hlow), show c.toNat ≤ 122 from hhigh⟩
    · exact ⟨le_trans (by decide) (show 65 ≤ c.toNat from hlow), le_trans (show c.toNat ≤ 90 from hhigh) (by decide)⟩
    · exact ⟨le_trans (by decide) (show 48 ≤ c.toNat from hlow), le_trans (show c.toNat ≤ 57 from hhigh) (by decide)⟩
    · decide
    · decide
  simp only [isWhitespace, Bool.or_eq_false_iff, Bool.and_eq_false_iff, decide_eq_false_iff_not, beq_eq_false_iff_ne]
  omega

/-- Unit ids that are all different lead each to its own machine. -/
theorem machineAt_of_nodup (h : (process.description.machines.map MachineDescription.unitId).Nodup)
    (hmem : description ∈ process.description.machines) :
    process.machineAt description.unitId = some description := by
  apply DataPoint.find?_name_eq_some
  · rw [List.map_reverse]
    exact List.nodup_reverse.mpr h
  · exact List.mem_reverse.mpr hmem

/-- Two points that a line gets by one name are one, unless both are records. -/
theorem eq_of_isNamed (hflat : FlatDescription description) (hfloats : FloatRoundTrip process.floats text.floats)
    (hsocket : ∀ point : DataPoint, point.Of description → SocketReadable process text description point)
    (point other : DataPoint) (hpoint : point.Of description) (hother : other.Of description) {name : String}
    (hname : ∀ pointName, point.IsNamed pointName → pointName = name)
    (hname' : ∀ pointName, other.IsNamed pointName → pointName = name) : point = other := by
  obtain ⟨pointName, hnamed, -, hresolve⟩ := resolve_of_socketReadable hflat hfloats hpoint (hsocket point hpoint)
  obtain ⟨otherName, hnamed', -, hresolve'⟩ := resolve_of_socketReadable hflat hfloats hother (hsocket other hother)
  obtain rfl := hname pointName hnamed
  obtain rfl := hname' otherName hnamed'
  exact Option.some.inj (hresolve.symm.trans hresolve')

/-- Two kinds of points that lines get by their names share no name. -/
theorem disjoint_names (hflat : FlatDescription description) (hfloats : FloatRoundTrip process.floats text.floats)
    (hsocket : ∀ point : DataPoint, point.Of description → SocketReadable process text description point)
    {α β : Type} {entries : List α} {others : List β} {nameOf : α → String} {nameOf' : β → String}
    (pointOf : α → DataPoint) (pointOf' : β → DataPoint) (hof : ∀ entry ∈ entries, (pointOf entry).Of description)
    (hof' : ∀ entry ∈ others, (pointOf' entry).Of description)
    (hname : ∀ entry name, (pointOf entry).IsNamed name → name = nameOf entry)
    (hname' : ∀ entry name, (pointOf' entry).IsNamed name → name = nameOf' entry)
    (hne : ∀ entry other, pointOf entry ≠ pointOf' other) :
    (entries.map nameOf).Disjoint (others.map nameOf') := by
  intro name hmem hmem'
  obtain ⟨entry, hentry, rfl⟩ := List.mem_map.mp hmem
  obtain ⟨other, hother, hsame⟩ := List.mem_map.mp hmem'
  apply hne entry other
  exact eq_of_isNamed hflat hfloats hsocket _ _ (hof entry hentry) (hof' other hother) (hname entry)
    fun pointName h => (hname' other pointName h).trans hsame

/-- Names by which lines get every point are words, each the name of one point. -/
theorem names_of_socketReadable (hflat : FlatDescription description)
    (hfloats : FloatRoundTrip process.floats text.floats)
    (hsocket : ∀ point : DataPoint, point.Of description → SocketReadable process text description point) :
    (DataPoint.pointNames description).Nodup ∧ ∀ name ∈ DataPoint.pointNames description, IsWord name := by
  have hdisjoint := @disjoint_names _ _ _ hflat hfloats hsocket
  have hword : ∀ (point : DataPoint) (name : String), point.Of description →
      (∀ pointName, point.IsNamed pointName → pointName = name) → IsWord name := by
    intro point name hpoint hname
    obtain ⟨pointName, hnamed, hword, -⟩ := resolve_of_socketReadable hflat hfloats hpoint (hsocket point hpoint)
    exact hname pointName hnamed ▸ hword
  constructor
  · rw [DataPoint.pointNames, List.nodup_append', List.nodup_append', List.nodup_append', List.disjoint_append_right,
      List.disjoint_append_right, List.disjoint_append_right]
    refine ⟨hflat.registers.names, ⟨hflat.coils.names, ⟨hflat.discreteInputs.names, hflat.inputRegisters.names,
        hdisjoint .discreteInput .inputRegister ?_ ?_ ?_ ?_ ?_⟩,
      hdisjoint .coil .discreteInput ?_ ?_ ?_ ?_ ?_, hdisjoint .coil .inputRegister ?_ ?_ ?_ ?_ ?_⟩,
      hdisjoint .register .coil ?_ ?_ ?_ ?_ ?_, hdisjoint .register .discreteInput ?_ ?_ ?_ ?_ ?_,
      hdisjoint .register .inputRegister ?_ ?_ ?_ ?_ ?_⟩
    all_goals first
      | exact fun _ h => h
      | exact fun _ _ h => h.symm
      | intro _ _ h; cases h
  · intro name hname
    simp only [DataPoint.pointNames, List.mem_append, List.mem_map] at hname
    rcases hname with ⟨entry, hentry, rfl⟩ | ⟨entry, hentry, rfl⟩ | ⟨entry, hentry, rfl⟩ | ⟨entry, hentry, rfl⟩
    · exact hword (.register entry) entry.name hentry fun _ h => h.symm
    · exact hword (.coil entry) entry.name hentry fun _ h => h.symm
    · exact hword (.discreteInput entry) entry.name hentry fun _ h => h.symm
    · exact hword (.inputRegister entry) entry.name hentry fun _ h => h.symm

end AllAddressable

/-! ### What is accepted -/

section Accepted

variable {isValidUnitCode : String → Bool} {raw : RawMachine}

/-- Tables without collisions describe a flat machine. -/
theorem Collisionless.flat (h : Collisionless raw) (hresolvable : raw.Resolvable isValidUnitCode) :
    FlatDescription raw.described := by
  have hnames := h.names
  rw [rawPointNames, List.nodup_append', List.nodup_append', List.nodup_append'] at hnames
  obtain ⟨hregisters, ⟨hcoils, ⟨hdiscreteInputs, hinputRegisters, -⟩, -⟩, -⟩ := hnames
  apply (flatDescription_described_iff hresolvable).mpr
  exact ⟨⟨hregisters, h.registers⟩, ⟨hcoils, h.coils⟩, ⟨hdiscreteInputs, h.discreteInputs⟩,
    ⟨hinputRegisters, h.inputRegisters⟩, h.recordKeys⟩

/-- The points of a flat machine that are all within reach have no collisions. -/
theorem collisionless_of_readable {process : ServerProcess} {text : SocketText}
    (hresolvable : raw.Resolvable isValidUnitCode) (hfloats : FloatRoundTrip process.floats text.floats)
    (hflat : FlatDescription raw.described)
    (hwire : ∀ point : DataPoint, point.Of raw.described → WireReadable process raw.described point)
    (hsocket : ∀ point : DataPoint, point.Of raw.described → SocketReadable process text raw.described point) :
    Collisionless raw := by
  obtain ⟨hnames, hwords⟩ := names_of_socketReadable hflat hfloats hsocket
  rw [pointNames_described] at hnames hwords
  obtain ⟨⟨-, hregisters⟩, ⟨-, hcoils⟩, ⟨-, hdiscreteInputs⟩, ⟨-, hinputRegisters⟩, hkeys⟩ :=
    (flatDescription_described_iff hresolvable).mp hflat
  refine ⟨hnames, hwords, hregisters, hcoils, hdiscreteInputs, hinputRegisters, hkeys, ?_⟩
  intro entry hentry
  have hmem : (⟨entry.fileNumber, entry.recordNumber, entry.recordLength⟩ : FileRecordDescription) ∈
      raw.described.fileRecords := List.mem_map_of_mem hentry
  exact recordLength_le (hwire (.fileRecord ⟨entry.fileNumber, entry.recordNumber, entry.recordLength⟩) hmem)

/-- An accepted source is addressable without ambiguity exactly when its unit ids are all
different and no machine's tables have a collision. -/
theorem accepted_addressable_iff {τ : Type} {fromToml : String → Except τ RawDeviceDescription}
    {isValidUnitCode : String → Bool} {tomlSource : String} {source : RawDeviceDescription}
    {process : ServerProcess} {text : SocketText} (hsource : fromToml tomlSource = .ok source)
    (hparse : DeviceDescription.parse fromToml isValidUnitCode tomlSource = .ok process.description)
    (hfloats : FloatRoundTrip process.floats text.floats)
    (henabled : ∀ point : DataPoint, process.serverOptions.isEnabled point.readFunctionCode) :
    AllAddressable process text ↔
      (source.machines.map RawMachine.unitId).Nodup ∧ ∀ machine ∈ source.machines, Collisionless machine := by
  obtain ⟨source', hsource', hmachines, haccepted⟩ := DeviceDescription.parse_eq_ok hparse
  obtain rfl := Except.ok.inj (hsource'.symm.trans hsource)
  have hunitIds : process.description.machines.map MachineDescription.unitId =
      source'.machines.map RawMachine.unitId := by
    rw [hmachines, List.map_map]
    rfl
  have hdescribed : ∀ machine ∈ source'.machines, machine.described ∈ process.description.machines := by
    intro machine hmem
    rw [hmachines]
    exact List.mem_map_of_mem hmem
  constructor
  · intro h
    refine ⟨hunitIds ▸ h.unitIds, ?_⟩
    intro machine hmem
    have hmem' := hdescribed machine hmem
    exact collisionless_of_readable (haccepted machine hmem).2 hfloats (h.flat _ hmem') (h.wire _ hmem') (h.socket _ hmem')
  · rintro ⟨hnodup, hcollisionless⟩
    rw [← hunitIds] at hnodup
    have hall : ∀ description ∈ process.description.machines, ∃ machine ∈ source'.machines,
        machine.described = description := by
      intro description hmem
      rw [hmachines] at hmem
      exact List.mem_map.mp hmem
    refine ⟨hnodup, fun description hmem => machineAt_of_nodup hnodup hmem, ?_, ?_, ?_⟩
    · intro description hmem
      obtain ⟨machine, hmachine, rfl⟩ := hall description hmem
      exact (hcollisionless machine hmachine).flat (haccepted machine hmachine).2
    · intro description hmem point hpoint
      obtain ⟨machine, hmachine, rfl⟩ := hall description hmem
      have hresolvable := (haccepted machine hmachine).2
      have hfree := hcollisionless machine hmachine
      apply wireReadable (machineAt_of_nodup hnodup hmem) (henabled point) (hfree.flat hresolvable) _ hpoint
      · rintro entry rfl
        obtain ⟨record, hrecord, rfl⟩ := List.mem_map.mp hpoint
        exact hfree.recordLengths record hrecord
      · exact List.forall_mem_map.mpr hresolvable.fileRecords
    · intro description hmem point hpoint
      obtain ⟨machine, hmachine, rfl⟩ := hall description hmem
      obtain ⟨hname, hresolvable⟩ := haccepted machine hmachine
      have hfree := hcollisionless machine hmachine
      have hnames := hfree.names
      have hwords := hfree.words
      rw [← pointNames_described] at hnames hwords
      exact socketReadable (isWord_of_isValidMachineName hname) (hfree.flat hresolvable) hnames hwords hpoint

end Accepted

/-! ### Two tanks -/

/-- One register, one coil, and one record that just fits. -/
def rawTank (name : String) (unitId : UInt8) : RawMachine where
  name := name
  unitId := unitId
  registers := { baseAddress := 100, entries := [⟨"level", 0, .u32, .readOnly, none⟩] }
  coils := { entries := [⟨"alarm", 0⟩] }
  fileRecords := [⟨4, 1, 124⟩]

/-- The tables of a tank. -/
def tankToml (name : String) (unitId : UInt8) : String :=
  "[[machines]]\nname = \"" ++ name ++ "\"\nunit_id = " ++ toString unitId.toNat ++
    "\n[machines.registers]\nbase_address = 100\nmem-layout = \"abcd\"\n[[machines.registers.entries]]\n" ++
    "name = \"level\"\noffset = 0\ndata_type = \"u32\"\naccess = \"read_only\"\n[machines.coils]\nbase_address = 0\n" ++
    "[[machines.coils.entries]]\nname = \"alarm\"\noffset = 0\n[[machines.file-records]]\nfile_number = 4\n" ++
    "record_number = 1\nrecord_length = 124\n"

variable (unitId : UInt8)

/-- A tank under unit 1, and another one. -/
def tanksToml : String := tankToml "tank_1" 1 ++ tankToml "tank_2" unitId

def rawTanks : List RawMachine := [rawTank "tank_1" 1, rawTank "tank_2" unitId]

/-- The parser, as far as this text goes. -/
def tanksFromToml (tomlSource : String) : Except Unit RawDeviceDescription :=
  if tomlSource = tanksToml unitId then .ok ⟨rawTanks unitId⟩ else .error ()

/-- A server of what is read from the text, open to every request. -/
def tanksProcess : ServerProcess :=
  { gaugeProcess with
    description := ⟨(rawTanks unitId).map RawMachine.described, show ["tank_1", "tank_2"].Nodup by decide⟩
    serverOptions := .allowAll
    tomlSource := tanksToml unitId }

theorem tanksFromToml_tanksToml : tanksFromToml unitId (tanksToml unitId) = .ok ⟨rawTanks unitId⟩ := if_pos rfl

theorem allowAll_isEnabled (point : DataPoint) : ServerOptions.allowAll.isEnabled point.readFunctionCode := by
  cases point <;> rfl

theorem accepted_addressable_iff_tanks : AllAddressable (tanksProcess 2) bitsText := by
  have hparse : DeviceDescription.parse (tanksFromToml 2) (fun _ => true) (tanksToml 2) =
      .ok (tanksProcess 2).description := by
    rw [DeviceDescription.parse, tanksFromToml_tanksToml]
    rfl
  apply (accepted_addressable_iff (tanksFromToml_tanksToml 2) hparse bits_roundTrip allowAll_isEnabled).mpr
  refine ⟨by decide, ?_⟩
  have htank : ∀ name unitId, Collisionless (rawTank name unitId) := by
    intro name unitId
    refine ⟨show ["level", "alarm"].Nodup by decide, ?_,
      ⟨List.pairwise_singleton _ _, List.forall_mem_singleton.mpr (show 102 ≤ 65536 by decide)⟩,
      List.nodup_singleton _, List.nodup_nil, ⟨.nil, fun _ h => (List.not_mem_nil h).elim⟩, List.nodup_singleton _,
      List.forall_mem_singleton.mpr (show 124 ≤ 124 by decide)⟩
    intro name hname
    rcases List.mem_cons.mp hname with rfl | hname
    · exact isWord_of_all (by decide) rfl
    · obtain rfl := List.mem_singleton.mp hname
      exact isWord_of_all (by decide) rfl
  rw [rawTanks, List.forall_mem_cons, List.forall_mem_singleton]
  exact ⟨htank "tank_1" 1, htank "tank_2" 2⟩

/-- Two machines of unit id 1 are accepted, and only the second is ever asked. -/
theorem shared_unit_id_accepted :
    DeviceDescription.parse (tanksFromToml 1) (fun _ => true) (tanksToml 1) = .ok (tanksProcess 1).description ∧
      ¬AllAddressable (tanksProcess 1) bitsText := by
  constructor
  · rw [DeviceDescription.parse, tanksFromToml_tanksToml]
    rfl
  · intro h
    have hrouted := h.routed _ List.mem_cons_self
    revert hrouted
    decide

end InfusedModbus.Server
