import InfusedModbus.Server.PointRead
import InfusedModbus.Server.RangeInvariant

/-! Two views of one state: the socket names a point and the wire addresses it, and both see
and change the same stores. After any requests and lines, the text that gets a point is read
back as the value that the wire's answer encodes; a line that sets a point changes that
point alone, to the value of its text; a line refused with an error changes nothing. Only a
point whose name is empty is out of the socket's reach. -/

namespace InfusedModbus.Server

open Foundation Foundation.Outcome Protocol Datafs

/-- What reaches a server from its two sides. -/
inductive Call where
  | request (unitId : UInt8) (pdu : Bytes)
  | line (line : String)

inductive Answer where
  | response (reply : Reply)
  | line (reply : Outcome Empty String)

namespace ServerProcess

def answer (process : ServerProcess) (text : SocketText) (handle : ServerHandle) : Call → ServerHandle × Answer
  | .request unitId pdu =>
    let stepped := process.step handle (.request unitId pdu)
    (stepped.1, .response stepped.2)
  | .line line =>
    let handled := handleLine process.floats text handle line
    (handled.1, .line handled.2)

/-- The machines after some calls. -/
def afterCalls (process : ServerProcess) (text : SocketText) (calls : List Call) : ServerHandle :=
  (run (process.answer text) process.start calls).1

end ServerProcess

/-! ### What a line does -/

section Line

variable {floats : FloatParser} {text : SocketText} {handle : ServerHandle} {line : String}

/-- A successful set writes the point of the name. -/
theorem ServerHandle.exists_point_of_set {handle' : ServerHandle} {machineName pointName rawValue : String}
    (h : handle.set floats machineName pointName rawValue = .ok handle') :
    ∃ machine point value, Store.get handle machineName = some machine ∧
      DataPoint.resolve machine pointName = some point ∧ point.parse floats rawValue = .ok value ∧
      handle' = Store.set handle machineName (point.write machine value) := by
  rw [ServerHandle.set_eq] at h
  obtain ⟨machine, hmachine, h⟩ := bind_eq_ok.mp h
  cases hresolve : DataPoint.resolve machine pointName with
  | none =>
    rw [hresolve] at h
    cases h
  | some point =>
    rw [hresolve] at h
    obtain ⟨value, hvalue, h⟩ := bind_eq_ok.mp h
    split at h
    · exact ⟨machine, point, value, ServerHandle.machine_eq_ok.mp hmachine, hresolve, hvalue, (Outcome.ok.inj h).symm⟩
    · cases h

/-- A line that sets a point, and how it is answered when the point was set. -/
structure SetLine (text : SocketText) (handle : ServerHandle) (line machineName pointName rawValue : String)
    (handled : ServerHandle × Outcome Empty String) : Prop where
  parsed : DataCommand.parse text.debugStr (trimEnd line.toList) = .ok (.set machineName pointName rawValue)
  answered : handled.2 = .ok ("OK SET " ++ machineName ++ " " ++ pointName)

/-- A line leaves the machines as they are, or it sets a point and is answered so. -/
theorem handleLine_cases (floats : FloatParser) (text : SocketText) (handle : ServerHandle) (line : String) :
    ((handleLine floats text handle line).1 = handle ∧ ∀ machineName pointName rawValue,
      DataCommand.parse text.debugStr (trimEnd line.toList) = .ok (.set machineName pointName rawValue) →
      ∀ reply, (handleLine floats text handle line).2 = .ok reply → ∃ rest, reply = "ERROR SET " ++ rest) ∨
    ∃ machineName pointName rawValue, SetLine text handle line machineName pointName rawValue
        (handleLine floats text handle line) ∧
      handle.set floats machineName pointName rawValue = .ok (handleLine floats text handle line).1 := by
  unfold handleLine
  cases hparse : DataCommand.parse text.debugStr (trimEnd line.toList) with
  | err e => exact .inl ⟨rfl, nofun⟩
  | panic => exact .inl ⟨rfl, nofun⟩
  | ok command =>
    cases command with
    | get machineName pointName =>
      refine .inl ⟨?_, nofun⟩
      dsimp only [applyCommand]
      cases ServerHandle.get handle text.floats machineName pointName <;> rfl
    | set machineName pointName rawValue =>
      dsimp only [applyCommand]
      cases hset : handle.set floats machineName pointName rawValue with
      | ok handle' => exact .inr ⟨machineName, pointName, rawValue, ⟨hparse, rfl⟩, hset⟩
      | panic => exact .inl ⟨rfl, nofun⟩
      | err e =>
        refine .inl ⟨rfl, ?_⟩
        intro machineName' pointName' rawValue' _ reply hreply
        obtain rfl := Outcome.ok.inj hreply
        exact ⟨machineName ++ " " ++ pointName ++ ": " ++ e.display text.debugStr, by simp [String.append_assoc]⟩

end Line

/-! ### Runs -/

/-- Every described machine is there, with values of the types of its registers. -/
structure SocketInvariant (process : ServerProcess) (handle : ServerHandle) : Prop where
  typed : process.EveryMachine (fun _ => TypedRegisters) handle
  present : ∀ description ∈ process.description.machines, (Store.get handle description.name).isSome

namespace SocketInvariant

variable {process : ServerProcess} {handle : ServerHandle} {text : SocketText}

theorem start (process : ServerProcess) : SocketInvariant process process.start where
  typed := ServerProcess.everyMachine_start fun description _ => typedRegisters_fresh description
  present := by
    intro description hmem
    have hnames : ((process.description.machines.map fun machine =>
        (machine.name, ServerMachineState.fresh machine)).map Prod.fst).Nodup := by
      rw [List.map_map]
      exact process.description.names_nodup
    have hget := Store.get_setAll_of_mem Store.empty hnames
      (List.mem_map_of_mem (f := fun machine => (machine.name, ServerMachineState.fresh machine)) hmem)
    rw [ServerProcess.start, hget]
    rfl

/-- The machine of a description, as it was described. -/
theorem exists_machine (h : SocketInvariant process handle) {description : MachineDescription}
    (hmem : description ∈ process.description.machines) :
    ∃ machine, Store.get handle description.name = some machine ∧ machine.unset = .fresh description ∧
      TypedRegisters machine := by
  obtain ⟨machine, hget⟩ := Option.isSome_iff_exists.mp (h.present description hmem)
  obtain ⟨description', hmem', hname, hunset, htyped⟩ := h.typed description.name machine hget
  obtain rfl := ServerProcess.description_unique hmem' hmem hname
  exact ⟨machine, hget, hunset, htyped⟩

theorem request (h : SocketInvariant process handle) (unitId : UInt8) (pdu : Bytes) :
    SocketInvariant process (process.step handle (.request unitId pdu)).1 where
  typed := ServerProcess.everyMachine_request h.typed fun _ _ _ _ _ _ _ _ _ hserved hinv => hinv.served hserved
  present := by
    intro description hmem
    have hpresent := h.present description hmem
    obtain ⟨response, machines', heq, -⟩ := handleRequest_answered unitId pdu process.serverOptions
      (process.machines handle) process.tomlSource process.fc43BulkTransfer
    simp only [ServerProcess.step, heq, ServerProcess.writeBack]
    split
    · rw [Store.get_set]
      split
      · rfl
      · exact hpresent
    · exact hpresent

theorem line (h : SocketInvariant process handle) (line : String) :
    SocketInvariant process (handleLine process.floats text handle line).1 := by
  rcases handleLine_cases process.floats text handle line with ⟨heq, -⟩ | ⟨machineName, pointName, rawValue, -, hset⟩
  · rw [heq]
    exact h
  obtain ⟨machine, point, value, hget, hresolve, hvalue, heq⟩ := ServerHandle.exists_point_of_set hset
  rw [heq]
  constructor
  · apply h.typed.set hget (DataPoint.unset_write value)
    intro description _ _ hunset hinv
    have hresolve' : DataPoint.resolve (.fresh description) pointName = some point := by
      rw [← hunset]
      exact hresolve
    exact hinv.write hunset (DataPoint.resolve_eq_some hresolve').1 (DataPoint.typed_of_parse hvalue)
  · intro description hmem
    rw [Store.get_set]
    split
    · rfl
    · exact h.present description hmem

theorem afterCalls (process : ServerProcess) (text : SocketText) (calls : List Call) :
    SocketInvariant process (process.afterCalls text calls) := by
  refine @run_invariant _ _ _ _ _ (fun _ => True) ?_ _ (SocketInvariant.start process) _ fun _ _ => trivial
  intro handle call h _
  cases call with
  | request unitId pdu => exact h.request unitId pdu
  | line line => exact h.line line

end SocketInvariant

/-! ### Both views -/

/-- What the two sides see of a point: a text of the value, and the encoding of the value. -/
structure Shows (process : ServerProcess) (text : SocketText) (description : MachineDescription)
    (handle : ServerHandle) (point : DataPoint) (value : point.Value) : Prop where
  socket : point.Printable value → ∀ pointName, point.IsNamed pointName → ∃ reply,
    handleLine process.floats text handle (getLine description.name pointName) =
      (handle, .ok ("OK GET " ++ description.name ++ " " ++ pointName ++ " " ++ reply)) ∧
    point.parse process.floats reply = .ok value
  wire : process.Reads description point value →
    process.step handle (.request description.unitId point.readRequest) =
      (handle, .response (.ok (some (point.response description value))))

/-- One point was given a value, and nothing else was changed. -/
structure OnlyWritten (description : MachineDescription) (handle handle' : ServerHandle) (point : DataPoint)
    (value : point.Value) : Prop where
  written : ∀ machine', Store.get handle' description.name = some machine' → point.read machine' = value
  points : ∀ machine machine', Store.get handle description.name = some machine →
    Store.get handle' description.name = some machine' →
    ∀ other : DataPoint, other.Of description → other ≠ point → other.read machine' = other.read machine
  machines : ∀ name, name ≠ description.name → Store.get handle' name = Store.get handle name

section Views

variable {process : ServerProcess} {text : SocketText} {description : MachineDescription} {handle : ServerHandle}

/-- A name of a point is one word. -/
theorem isWord_of_isNamed (hpoints : DataPoint.DistinctPoints description)
    (hnonempty : "" ∉ DataPoint.pointNames description) {point : DataPoint} (hpoint : point.Of description)
    {pointName : String} (hnamed : point.IsNamed pointName) : IsWord pointName := by
  have hword : pointName ∈ DataPoint.pointNames description → IsWord pointName := by
    intro hmem
    refine ⟨?_, hpoints.plain pointName hmem⟩
    intro hnil
    obtain rfl : pointName = "" := String.toList_eq_nil_iff.mp hnil
    exact hnonempty hmem
  simp only [DataPoint.pointNames, List.mem_append] at hword
  cases point with
  | register entry =>
    obtain rfl := hnamed
    exact hword (.inl (List.mem_map_of_mem hpoint))
  | coil entry =>
    obtain rfl := hnamed
    exact hword (.inr (.inl (List.mem_map_of_mem hpoint)))
  | discreteInput entry =>
    obtain rfl := hnamed
    exact hword (.inr (.inr (.inl (List.mem_map_of_mem hpoint))))
  | inputRegister entry =>
    obtain rfl := hnamed
    exact hword (.inr (.inr (.inr (List.mem_map_of_mem hpoint))))
  | fileRecord entry =>
    obtain ⟨hne, hplain⟩ := plain_of_parseFileRecordName hnamed
    exact ⟨hne, hplain⟩

/-- Both sides see the value that the point reads as. -/
theorem SocketInvariant.shows (h : SocketInvariant process handle) (hfloats : FloatRoundTrip process.floats text.floats)
    (hmem : description ∈ process.description.machines) (hname : IsWord description.name)
    (hpoints : DataPoint.DistinctPoints description) (hnonempty : "" ∉ DataPoint.pointNames description)
    {machine : ServerMachineState} (hget : Store.get handle description.name = some machine) {point : DataPoint}
    (hpoint : point.Of description) : Shows process text description handle point (point.read machine) := by
  obtain ⟨machine₀, hget₀, hunset, hinv⟩ := h.exists_machine hmem
  obtain rfl := Option.some.inj (hget₀.symm.trans hget)
  have htyped := hinv.typed_read hunset hpoints.flat hpoint
  constructor
  · intro hprint pointName hnamed
    refine ⟨point.text text.floats (point.read machine₀), ?_, DataPoint.parse_text hfloats htyped hprint⟩
    have hresolve : DataPoint.resolve machine₀ pointName = some point := by
      have hresolved := hpoints.resolve_eq hpoint hnamed
      rw [← hunset] at hresolved
      exact hresolved
    have hword := isWord_of_isNamed hpoints hnonempty hpoint hnamed
    rw [handleLine_get (parse_getLine text.debugStr hname hword) hget, hresolve]
  · intro hreads
    exact ServerProcess.step_readRequest hget hunset hpoints.flat hpoint htyped hreads

/-- A line that sets a point of the machine writes that point only. -/
theorem SocketInvariant.onlyWritten (h : SocketInvariant process handle)
    (hmem : description ∈ process.description.machines) (hpoints : DataPoint.DistinctPoints description)
    {handle' : ServerHandle} {pointName rawValue : String}
    (hset : handle.set process.floats description.name pointName rawValue = .ok handle') :
    ∃ (point : DataPoint) (value : point.Value), point.Of description ∧ point.IsNamed pointName ∧
      point.parse process.floats rawValue = .ok value ∧ OnlyWritten description handle handle' point value := by
  obtain ⟨machine, point, value, hget, hresolve, hvalue, rfl⟩ := ServerHandle.exists_point_of_set hset
  obtain ⟨machine₀, hget₀, hunset, -⟩ := h.exists_machine hmem
  obtain rfl := Option.some.inj (hget₀.symm.trans hget)
  have hresolve' : DataPoint.resolve (.fresh description) pointName = some point := by
    rw [← hunset]
    exact hresolve
  obtain ⟨hpoint, hnamed⟩ := DataPoint.resolve_eq_some hresolve'
  refine ⟨point, value, hpoint, hnamed, hvalue, ?_, ?_, ?_⟩
  · intro machine' hget'
    rw [Store.get_set_self] at hget'
    obtain rfl := Option.some.inj hget'
    exact DataPoint.read_write_self value
  · intro machine machine' hmachine hget' other hother hne
    rw [Store.get_set_self] at hget'
    obtain rfl := Option.some.inj hget'
    obtain rfl := Option.some.inj (hget.symm.trans hmachine)
    exact DataPoint.read_write_of_ne hpoints.flat hpoint hother hne value
  · intro name hne
    exact Store.get_set_of_ne _ _ hne

theorem head?_of_start {c : Char} {start line : List Char} (h : c :: start <+: line) : line.head? = some c := by
  obtain ⟨rest, rfl⟩ := h
  rfl

/-- The socket and the wire are two views of one state. After any calls, both show of every
point of a machine the value that it holds; a line that sets a point and is answered with an
`OK` gives that point the value of its text and changes nothing else, and both sides show so
at once; a line answered with an `ERROR` changes nothing. -/
theorem socket_and_wire_agree (hfloats : FloatRoundTrip process.floats text.floats)
    (hmem : description ∈ process.description.machines) (hname : IsWord description.name)
    (hpoints : DataPoint.DistinctPoints description) (hnonempty : "" ∉ DataPoint.pointNames description)
    (calls : List Call) :
    (∃ machine, Store.get (process.afterCalls text calls) description.name = some machine ∧
      ∀ point : DataPoint, point.Of description →
        Shows process text description (process.afterCalls text calls) point (point.read machine)) ∧
    ∀ line handle' reply, handleLine process.floats text (process.afterCalls text calls) line = (handle', .ok reply) →
      ("ERROR".toList <+: reply.toList → handle' = process.afterCalls text calls) ∧
      ∀ pointName rawValue,
        DataCommand.parse text.debugStr (trimEnd line.toList) = .ok (.set description.name pointName rawValue) →
        "OK".toList <+: reply.toList →
        ∃ (point : DataPoint) (value : point.Value), point.Of description ∧ point.IsNamed pointName ∧
          point.parse process.floats rawValue = .ok value ∧
          OnlyWritten description (process.afterCalls text calls) handle' point value ∧
          Shows process text description handle' point value := by
  have hinv := SocketInvariant.afterCalls process text calls
  obtain ⟨machine, hget, -, -⟩ := hinv.exists_machine hmem
  refine ⟨⟨machine, hget, fun point hpoint => hinv.shows hfloats hmem hname hpoints hnonempty hget hpoint⟩, ?_⟩
  intro line handle' reply hline
  have hinv' := @SocketInvariant.line _ _ text hinv line
  rw [hline] at hinv'
  rcases handleLine_cases process.floats text (process.afterCalls text calls) line with ⟨hsame, herror⟩ | hset
  · rw [hline] at hsame herror
    constructor
    · intro _
      exact hsame
    · intro pointName rawValue hparse hok
      obtain ⟨rest, rfl⟩ := herror description.name pointName rawValue hparse reply rfl
      have hhead : ("ERROR SET " ++ rest).toList.head? = some 'O' := head?_of_start hok
      rw [String.toList_append] at hhead
      cases hhead
  · obtain ⟨machineName, pointName, rawValue, hset, hhandle⟩ := hset
    rw [hline] at hset hhandle
    obtain rfl := Outcome.ok.inj hset.answered
    constructor
    · intro herror
      have hhead : ("OK SET " ++ machineName ++ " " ++ pointName).toList.head? = some 'E' := head?_of_start herror
      rw [String.toList_append, String.toList_append, String.toList_append] at hhead
      cases hhead
    · intro pointName' rawValue' hparse _
      obtain ⟨rfl, rfl, rfl⟩ := DataCommand.set.inj (Outcome.ok.inj (hset.parsed.symm.trans hparse))
      obtain ⟨point, value, hpoint, hnamed, hvalue, hwritten⟩ := hinv.onlyWritten hmem hpoints hhandle
      obtain ⟨machine', hget', -, -⟩ := hinv'.exists_machine hmem
      have hshows := hinv'.shows hfloats hmem hname hpoints hnonempty hget' hpoint
      rw [hwritten.written machine' hget'] at hshows
      exact ⟨point, value, hpoint, hnamed, hvalue, hwritten, hshows⟩

end Views

/-! ### A level, set by a line -/

/-- Floats written as the numbers of their bits. -/
def bitsParser : FloatParser where
  parseF32 text := (parseUnsigned 32 10 text).map UInt32.ofNat
  parseF64 text := (parseUnsigned 64 10 text).map UInt64.ofNat

def bitsText : SocketText where
  floats := ⟨fun bits => toString bits.toNat, fun bits => toString bits.toNat⟩
  debugStr := fun text => "\"" ++ text ++ "\""

theorem bits_roundTrip : FloatRoundTrip bitsParser bitsText.floats where
  f32 bits _ := by
    dsimp only [bitsParser, bitsText]
    rw [Nat.toString_eq_repr, Nat.toList_repr, parseUnsigned_toDigits bits.toNat_lt, Option.map_some, UInt32.ofNat_toNat]
  f64 bits _ := by
    dsimp only [bitsParser, bitsText]
    rw [Nat.toString_eq_repr, Nat.toList_repr, parseUnsigned_toDigits bits.toNat_lt, Option.map_some, UInt64.ofNat_toNat]
  f32_plain bits := isWhitespace_toString_nat bits.toNat
  f64_plain bits := isWhitespace_toString_nat bits.toNat

/-- The server of the level, with floats. -/
def gaugeProcess : ServerProcess := { levelProcess with floats := bitsParser }

theorem level_distinct : DataPoint.DistinctPoints levelMachine where
  flat :=
    { registers := ⟨by decide, List.pairwise_singleton _ _, by decide⟩
      coils := flatSection_nil
      discreteInputs := flatSection_nil
      inputRegisters := flatSection_nil
      fileRecords := List.nodup_nil }
  names := by decide
  plain := List.forall_mem_singleton.mpr (isWord_of_all (by decide) rfl).plain
  notRecord := by decide

/-- A level set in hexadecimal is the level that both sides show. -/
theorem socket_and_wire_agree_level :
    ∃ (point : DataPoint) (value : point.Value), point.Of levelMachine ∧ point.IsNamed "level" ∧
      point.parse gaugeProcess.floats "0x05" = .ok value ∧
      OnlyWritten levelMachine gaugeProcess.start
        (handleLine gaugeProcess.floats bitsText gaugeProcess.start "SET tank level 0x05").1 point value ∧
      Shows gaugeProcess bitsText levelMachine
        (handleLine gaugeProcess.floats bitsText gaugeProcess.start "SET tank level 0x05").1 point value := by
  have hreply : (handleLine gaugeProcess.floats bitsText gaugeProcess.start "SET tank level 0x05").2 =
      .ok "OK SET tank level" := by
    decide +kernel
  have hviews := @socket_and_wire_agree gaugeProcess bitsText levelMachine bits_roundTrip List.mem_cons_self
    (isWord_of_all (by decide) rfl) level_distinct (by decide) []
  apply (hviews.2 "SET tank level 0x05" _ _ (Prod.ext rfl hreply)).2
  · decide +kernel
  · decide

/-! ### A register without a name -/

def namelessMachine : MachineDescription :=
  ⟨"tank", 1, [⟨"", 0, .u16, .readWrite, none⟩], [], [], [], [], .abcd, .abcd, none⟩

def namelessProcess : ServerProcess := { gaugeProcess with description := ⟨[namelessMachine], by decide⟩ }

/-- The line that should get the register is not understood, whatever the register holds. -/
theorem nameless_point_unreachable :
    DataPoint.DistinctPoints namelessMachine ∧ (DataPoint.register ⟨"", 0, .u16, .readWrite, none⟩).Of namelessMachine ∧
      (DataPoint.register ⟨"", 0, .u16, .readWrite, none⟩).Printable
        (DataPoint.read (.fresh namelessMachine) (.register ⟨"", 0, .u16, .readWrite, none⟩)) ∧
      (handleLine namelessProcess.floats bitsText namelessProcess.start (getLine "tank" "")).2 =
        .ok "ERROR GET requires a point argument" := by
  refine ⟨⟨⟨?_, flatSection_nil, flatSection_nil, flatSection_nil, List.nodup_nil⟩, ?_, ?_, ?_⟩, ?_, ?_, ?_⟩
  · exact ⟨by decide, List.pairwise_singleton _ _, by decide⟩
  · decide
  · exact List.forall_mem_singleton.mpr fun c hc => nomatch hc
  · decide
  · exact List.mem_cons_self
  · exact ⟨trivial, id⟩
  · decide +kernel

end InfusedModbus.Server
