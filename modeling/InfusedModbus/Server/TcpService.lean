import InfusedModbus.Foundation.SharedService
import InfusedModbus.Protocol.Transport
import InfusedModbus.Server.Process

/-! Serving TCP connections. Every accepted connection is a task of its own that reads a
request, hands it to the handler, writes the response under the id of the request and
starts over, until a read or a write fails. The tasks and the local writes work on the
same stores, in any order. -/

namespace InfusedModbus.Server

open Foundation Foundation.Outcome Protocol Datafs

/-! ### Frames on the stream -/

/-- What a connection makes of the bytes since the last request. -/
def cutAdu (received : Bytes) : Option (Option TcpAdu) :=
  match readAdu received with
  | none => none
  | some (.ok adu) => some (some adu)
  | some _ => some none

/-- The bytes of a response; none where the handler stays silent. -/
def responseFrame (request : TcpAdu) : Reply → Bytes
  | .response (.ok (some pdu)) => TcpAdu.encode ⟨request.transactionId, request.unitId, pdu⟩
  | _ => []

theorem readAdu_of_short {received : Bytes} (h : received.length < mbapHeaderLen) : readAdu received = none := if_pos h

section Header

variable (a b c d e f g : UInt8) (rest : Bytes)

/-- Behind the header the reader waits for as many bytes as that announces. -/
theorem readAdu_cons : readAdu (a :: b :: c :: d :: e :: f :: g :: rest) =
    if u16FromBeBytes e f = 0 ∨ mbapMaxLength < u16FromBeBytes e f then
      some (.err ⟨.invalidData, "invalid MBAP length field: " ++ toString (u16FromBeBytes e f).toNat⟩)
    else if rest.length < (u16FromBeBytes e f).toNat - 1 then none
    else some ((TcpAdu.decode (a :: b :: c :: d :: e :: f :: g :: rest)).mapErr IoError.ofDecodeError) := by
  have hlength : (a :: b :: c :: d :: e :: f :: g :: rest).length = mbapHeaderLen + rest.length := by
    simp only [List.length_cons, mbapHeaderLen]
    omega
  have hfield : (readU16Be (a :: b :: c :: d :: e :: f :: g :: rest) mbapLengthByte : Outcome IoError UInt16) =
      .ok (u16FromBeBytes e f) := by
    simp [mbapLengthByte]
  rw [readAdu, if_neg (by omega), hfield]
  dsimp only
  rw [hlength]
  simp only [Nat.add_lt_add_iff_left]

theorem decode_of_header {adu : TcpAdu} (hlength : rest.length = (u16FromBeBytes e f).toNat - 1)
    (h : TcpAdu.decode (a :: b :: c :: d :: e :: f :: g :: rest) = .ok adu) :
    adu = ⟨u16FromBeBytes a b, g, rest⟩ ∧ u16FromBeBytes c d = mbapProtocolId := by
  rw [TcpAdu.decode, if_neg (by simp [mbapHeaderLen])] at h
  simp only [mbapProtocolIdByte, mbapLengthByte, mbapTransactionIdByte, mbapUnitIdByte, readU16Be_cons_succ,
    readU16Be_cons_zero, ok_bind] at h
  split at h
  · cases h
  · next hprotocol =>
    split at h
    · cases h
    · next hfits =>
      have hwhole : (a :: b :: c :: d :: e :: f :: g :: rest).length =
          mbapHeaderLen + ((u16FromBeBytes e f).toNat - 1) := by
        simp only [List.length_cons, mbapHeaderLen, hlength]
        omega
      rw [usizeSub_of_le (TcpAdu.one_le_length hfits), ok_bind, if_neg (by omega)] at h
      simp only [index_cons_succ, index_cons_zero, ok_bind] at h
      rw [slice_of_le (Nat.le_add_right _ _) hwhole.ge] at h
      refine ⟨?_, not_not.mp hprotocol⟩
      rw [← ok.inj h]
      simp [mbapHeaderLen, ← hlength]

end Header

/-- A frame is taken at its last byte. -/
theorem eq_of_cutAdu {received : Bytes} {symbol : UInt8} {adu : TcpAdu} (hwaits : cutAdu received = none)
    (h : cutAdu (received ++ [symbol]) = some (some adu)) : adu.encode = received ++ [symbol] := by
  have hread : readAdu (received ++ [symbol]) = some (.ok adu) := by
    unfold cutAdu at h
    split at h
    · cases h
    · next adu' hread => rwa [← Option.some.inj (Option.some.inj h)]
    · cases h
  have hnone : readAdu received = none := by
    unfold cutAdu at hwaits
    split at hwaits
    · next hread => exact hread
    · cases hwaits
    · cases hwaits
  obtain ⟨a, b, c, d, e, f, g, rest, hall⟩ : ∃ a b c d e f g rest,
      received ++ [symbol] = a :: b :: c :: d :: e :: f :: g :: rest := by
    have hlong : mbapHeaderLen ≤ (received ++ [symbol]).length := by
      by_contra hshort
      rw [readAdu_of_short (by omega)] at hread
      cases hread
    match received ++ [symbol], hlong with
    | a :: b :: c :: d :: e :: f :: g :: rest, _ => exact ⟨a, b, c, d, e, f, g, rest, rfl⟩
  rw [hall, readAdu_cons] at hread
  split at hread
  · cases hread
  · next hfits =>
    split at hread
    · cases hread
    · next henough =>
      have hpositive : u16FromBeBytes e f ≠ 0 := fun hzero => hfits (Or.inl hzero)
      have hlength : rest.length = (u16FromBeBytes e f).toNat - 1 := by
        -- one byte less was not enough
        rcases List.eq_nil_or_concat' rest with rfl | ⟨rest', last, rfl⟩
        · simp only [List.length_nil] at henough ⊢
          omega
        · have hreceived : received = a :: b :: c :: d :: e :: f :: g :: rest' :=
            (@List.append_inj' _ _ _ (a :: b :: c :: d :: e :: f :: g :: rest') _ hall rfl).1
          rw [hreceived, readAdu_cons, if_neg hfits] at hnone
          split at hnone
          · next hshort =>
            rw [List.length_append, List.length_singleton] at henough ⊢
            omega
          · cases hnone
      have hdecode := mapErr_eq_ok.mp (Option.some.inj hread)
      obtain ⟨rfl, hprotocol⟩ := decode_of_header a b c d e f g rest hlength hdecode
      have hfield : UInt16.ofNat (rest.length + 1) = u16FromBeBytes e f := by
        have hnat : (u16FromBeBytes e f).toNat ≠ 0 := fun hzero => hpositive (UInt16.toNat_inj.mp hzero)
        rw [hlength, Nat.sub_add_cancel (by omega), UInt16.ofNat_toNat]
      have hzero : c = 0 ∧ d = 0 := by
        have hhi := hiByte_fromBeBytes c d
        have hlo := loByte_fromBeBytes c d
        rw [hprotocol] at hhi hlo
        exact ⟨hhi.symm, hlo.symm⟩
      rw [hall, TcpAdu.encode_eq, hfield, hzero.1, hzero.2]
      simp

theorem reads_cutAdu : ReadsFrames TcpAdu.encode cutAdu where
  start := rfl
  sound _ _ _ hwaits h := eq_of_cutAdu hwaits h

/-- A request that fits the header is taken whole. -/
theorem whole_of_fits {adu : TcpAdu} (h : adu.pdu.length ≤ 253) : WholeFrame TcpAdu.encode cutAdu adu := by
  have hread : ∀ rest, readAdu (hiByte adu.transactionId :: loByte adu.transactionId :: 0 :: 0 ::
      hiByte (UInt16.ofNat (adu.pdu.length + 1)) :: loByte (UInt16.ofNat (adu.pdu.length + 1)) :: adu.unitId :: rest) =
        if rest.length < adu.pdu.length then none
        else some ((TcpAdu.decode (hiByte adu.transactionId :: loByte adu.transactionId :: 0 :: 0 ::
          hiByte (UInt16.ofNat (adu.pdu.length + 1)) :: loByte (UInt16.ofNat (adu.pdu.length + 1)) ::
          adu.unitId :: rest)).mapErr IoError.ofDecodeError) := by
    intro rest
    have hfield := @TcpAdu.lengthField_toNat adu (by omega)
    have hfits : ¬(UInt16.ofNat (adu.pdu.length + 1) = 0 ∨ mbapMaxLength < UInt16.ofNat (adu.pdu.length + 1)) := by
      rw [UInt16.lt_iff_toNat_lt, ← UInt16.toNat_inj, hfield]
      simp only [mbapMaxLength, UInt16.reduceToNat]
      omega
    rw [readAdu_cons, u16FromBeBytes_toBeBytes, if_neg hfits, hfield, Nat.add_sub_cancel]
  refine ⟨?_, fun received hinitial hne => ?_⟩
  · rw [cutAdu, TcpAdu.encode_eq, hread, if_neg (lt_irrefl _), ← TcpAdu.encode_eq, TcpAdu.decode_encode h, mapErr_ok]
  · have hshort : received.length < adu.encode.length :=
      lt_of_le_of_ne hinitial.length_le fun hlength => hne (hinitial.eq_of_length hlength)
    have hnone : readAdu received = none := by
      by_cases hheader : received.length < mbapHeaderLen
      · exact readAdu_of_short hheader
      · obtain ⟨n, hn⟩ := Nat.exists_eq_add_of_le (not_lt.mp hheader)
        have hreceived : received = hiByte adu.transactionId :: loByte adu.transactionId :: 0 :: 0 ::
            hiByte (UInt16.ofNat (adu.pdu.length + 1)) :: loByte (UInt16.ofNat (adu.pdu.length + 1)) ::
            adu.unitId :: adu.pdu.take n := by
          rw [List.prefix_iff_eq_take.mp hinitial, hn, TcpAdu.encode_eq]
          simp [mbapHeaderLen, Nat.add_comm 7 n]
        rw [TcpAdu.length_encode, hn] at hshort
        rw [hreceived, hread, if_pos]
        rw [List.length_take]
        omega
    rw [cutAdu, hnone]

/-! ### The running server -/

/-- How the connections of a server work. -/
def ServerProcess.tcpDesk (process : ServerProcess) : ServiceDesk ServerHandle Event Reply UInt8 TcpAdu where
  step := process.step
  cut := cutAdu
  input adu := .request adu.unitId adu.pdu
  answer := responseFrame

/-- A server whose connections are numbered as they were accepted. -/
abbrev TcpService := SharedService ℕ ServerHandle Event Reply UInt8 TcpAdu

/-- No request makes the server panic. -/
theorem ServerProcess.step_request_answered (process : ServerProcess) (handle : ServerHandle) (unitId : UInt8)
    (pdu : Bytes) : ∃ response, (process.step handle (.request unitId pdu)).2 = .response (.ok response) := by
  obtain ⟨response, machines', heq, -⟩ := handleRequest_answered unitId pdu process.serverOptions
    (process.machines handle) process.tomlSource process.fc43BulkTransfer
  refine ⟨response, ?_⟩
  rw [step, heq]

/-- A connection has its requests handled in the order in which they arrived, each once and
each as its turn at the stores came, and writes what comes of them in this order. -/
structure ServedInOrder (service : TcpService) (connection : ℕ) : Prop where
  turns : (service.sessions connection).exchanges = service.turns.filterMap (ServiceTurn.exchangeOf connection)
  answered : ∀ exchange ∈ (service.sessions connection).exchanges, ∃ response, exchange.2 = .response (.ok response)
  sent : (service.sessions connection).sent <+: (service.sessions connection).answers responseFrame
  requests : ∀ requests : List TcpAdu, (∀ request ∈ requests, request.pdu.length ≤ 253) →
    (service.sessions connection).arrived = wire TcpAdu.encode requests →
      (service.sessions connection).frames <+: requests ∧
        ((service.sessions connection).Idle → (service.sessions connection).frames = requests ∧
          (service.sessions connection).sent = (service.sessions connection).answers responseFrame)

/-- However the bytes of the connections and the local writes come in between each other, the
stores are those after one sequence of requests and local writes, and every connection is
served in order. -/
theorem connections_served_in_order (process : ServerProcess) {actions : List (ServiceAction ℕ Event UInt8)}
    {service : TcpService}
    (h : execute process.tcpDesk.serve (ServiceDesk.opened process.start) actions = some service) :
    run process.step process.start (service.turns.map process.tcpDesk.inputOf) =
        (service.shared, service.turns.map ServiceTurn.output) ∧
      ∀ connection, ServedInOrder service connection := by
  have hlinear := ServiceDesk.linear_of_execute h
  refine ⟨hlinear.ran, fun connection => ?_⟩
  have hordered := ServiceDesk.ordered_of_execute reads_cutAdu h connection
  constructor
  case turns => exact hlinear.exchanges connection
  case answered =>
    intro exchange hexchange
    obtain ⟨handle, houtput⟩ := hordered.outcomes exchange hexchange
    obtain ⟨response, hresponse⟩ := process.step_request_answered handle exchange.1.unitId exchange.1.pdu
    exact ⟨response, houtput.symm.trans hresponse⟩
  case sent => exact hordered.sent_prefix
  case requests =>
    intro requests hfits harrived
    have hwhole : ∀ request ∈ requests, WholeFrame TcpAdu.encode cutAdu request := fun request hrequest =>
      whole_of_fits (hfits request hrequest)
    exact ⟨hordered.frames_prefix reads_cutAdu hwhole harrived, hordered.frames_eq reads_cutAdu hwhole harrived⟩

/-- A machine with one coil. -/
def lampMachine : MachineDescription := ⟨"lamp", 1, [], [⟨"light", 4⟩], [], [], [], .abcd, .abcd, none⟩

def lampProcess : ServerProcess where
  description := ⟨[lampMachine], by decide⟩
  serverOptions := .allowAll
  tomlSource := ""
  fc43BulkTransfer := ⟨[], ""⟩
  floats := ⟨fun _ => none, fun _ => none⟩

/-- The light is read over one connection while another, whose request came in later, has
already switched it on. -/
def readWhileSwitched : List (ServiceAction ℕ Event UInt8) :=
  [ServiceAction.arrive 0 [0, 1, 0, 0, 0, 6, 1, 1, 0, 4, 0, 1]] ++ List.replicate 11 (ServiceAction.read 0) ++
    [ServiceAction.arrive 1 [0, 9, 0, 0, 0, 6, 1, 5, 0, 4, 0xFF, 0]] ++ List.replicate 12 (ServiceAction.read 1) ++
    [ServiceAction.handle 1] ++ [ServiceAction.read 0, .handle 0] ++ List.replicate 11 (ServiceAction.write 0)

theorem connections_served_in_order_lamp :
    ∃ service, execute lampProcess.tcpDesk.serve (ServiceDesk.opened lampProcess.start) readWhileSwitched =
      some service ∧
      (service.sessions 0).sent = [0, 1, 0, 0, 0, 4, 1, 1, 1, 1] ∧ ∀ connection, ServedInOrder service connection := by
  have hrun : ∃ service,
      execute lampProcess.tcpDesk.serve (ServiceDesk.opened lampProcess.start) readWhileSwitched = some service ∧
        (service.sessions 0).sent = [0, 1, 0, 0, 0, 4, 1, 1, 1, 1] := ⟨_, rfl, rfl⟩
  obtain ⟨service, hexecute, hsent⟩ := hrun
  exact ⟨service, hexecute, hsent, (connections_served_in_order lampProcess hexecute).2⟩

end InfusedModbus.Server
