import InfusedModbus.Client.DescriptionFetch
import InfusedModbus.Server.Fc43BulkTransfer

/-! How a client comes to the description of the server it is connected to. A server sends the
text itself where that fits, and otherwise announces a compressed one, which the client fetches
record by record. Whatever the size and the options, and whatever other clients do meanwhile, the
client ends with exactly the text of the server or with none. -/

namespace InfusedModbus.Client

open Foundation Foundation.Outcome Protocol Server

/-- The most that is inflated. -/
def maxDecompressedLen : ℕ := 64 * 1024 * 1024

/-- The compressed text is inflated to the text within the limit, nothing is inflated to nothing,
and the manifest is parsed from its own text but not from that of a description. -/
structure CodecsAgree (serverCodecs : BulkCodecs) (codecs : DescriptionCodecs) (tomlSource : String)
    (machines : List ManifestMachine) : Prop where
  inflate : codecs.decompress (serverCodecs.compress (utf8 tomlSource)) =
    if (utf8 tomlSource).length ≤ maxDecompressedLen then some (utf8 tomlSource) else none
  nothing : codecs.decompress [] = none
  manifest : codecs.parseManifest (Fc43BulkTransfer.build serverCodecs tomlSource machines).manifestToml =
    some (announce (serverCodecs.compress (utf8 tomlSource)) machines)
  plain : codecs.parseManifest tomlSource = none

/-- Every request is answered as the server answers it in some state of its machines, which other
clients may have changed since the last one; and not at all where the server is silent. -/
def IsServed (peer : Peer) (serverOptions : ServerOptions) (tomlSource : String)
    (fc43BulkTransfer : Fc43BulkTransfer) : Prop :=
  ∀ sent unitId pdu, ∃ machines response machines',
    handleRequest unitId pdu serverOptions machines tomlSource fc43BulkTransfer = .ok (response, machines') ∧
      (peer (sent ++ [(unitId, pdu)])).toOption = response

/-- The text fits as it is, or all that the other way needs is there. -/
def Discoverable (serverOptions : ServerOptions) (tomlSource : String) (fc43BulkTransfer : Fc43BulkTransfer) : Prop :=
  serverOptions.isEnabled functionCodeEncapsulatedInterfaceTransport ∧
    ((utf8 tomlSource).length ≤ 127 * 244 ∨
      serverOptions.detectMachineLayout ∧ serverOptions.isEnabled functionCodeReadFileRecord ∧
        (utf8 fc43BulkTransfer.manifestToml).length ≤ 127 * 244 ∧ (utf8 tomlSource).length ≤ maxDecompressedLen)

instance (serverOptions : ServerOptions) (tomlSource : String) (fc43BulkTransfer : Fc43BulkTransfer) :
    Decidable (Discoverable serverOptions tomlSource fc43BulkTransfer) :=
  inferInstanceAs (Decidable (_ ∧ _))

/-! ### What the server answers -/

section Answers

variable {peer : Peer} {serverOptions : ServerOptions} {tomlSource : String} {fc43BulkTransfer : Fc43BulkTransfer}
  {unitId : UInt8} {sent : Sent}

theorem Peer.connection_eq (peer : Peer) (unitId : UInt8) (sent : Sent) (pdu : Bytes) :
    peer.connection unitId sent pdu = (peer (sent ++ [(unitId, pdu)])).toOption := by
  rw [Peer.connection]
  cases peer (sent ++ [(unitId, pdu)]) <;> rfl

/-- An answer that does not depend on the machines is the one that comes. -/
theorem IsServed.connection (hpeer : IsServed peer serverOptions tomlSource fc43BulkTransfer) {pdu response : Bytes}
    (h : ∀ machines, handleRequest unitId pdu serverOptions machines tomlSource fc43BulkTransfer =
      .ok (some response, machines)) : peer.connection unitId sent pdu = some response := by
  obtain ⟨machines, answer, machines', hanswer, hcame⟩ := hpeer sent unitId pdu
  rw [Peer.connection_eq, hcame]
  rw [h machines] at hanswer
  cases hanswer
  rfl

theorem exchange_of_exception {connection : Connection} {requestPdu : Bytes} {functionCode exceptionCode : UInt8}
    (h : connection requestPdu = some (exception functionCode exceptionCode)) :
    exchange connection requestPdu = .err () := by
  obtain ⟨e, hdec⟩ := isException_exception functionCode exceptionCode
  simp only [exchange, h, hdec, letOk_ok]

/-- The objects that are handed out are those that the client asks for. -/
theorem IsServed.identification (hpeer : IsServed peer serverOptions tomlSource fc43BulkTransfer)
    (henabled : serverOptions.isEnabled functionCodeEncapsulatedInterfaceTransport)
    {objects : List DeviceIdentificationObject}
    (hobjects : identificationObjects tomlSource serverOptions.detectMachineLayout fc43BulkTransfer = some objects)
    (objectId : UInt8) :
    peer.connection unitId sent (identificationRequest objectId) =
      identificationServer objects (identificationRequest objectId) := by
  have hanswer : ∀ machines, handleRequest unitId (identificationRequest objectId) serverOptions machines tomlSource
      fc43BulkTransfer =
        .ok (some (handleReadDeviceIdentification ⟨readDeviceIdExtended, objectId⟩ objects), machines) := by
    intro machines
    rw [identificationRequest, handleRequest_identification unitId machines henabled, hobjects]
  rw [hpeer.connection hanswer, identificationServer, identificationRequest,
    ReadDeviceIdentificationRequest.decode_encode]

/-- Where there are none the first request is refused. -/
theorem IsServed.no_identification (hpeer : IsServed peer serverOptions tomlSource fc43BulkTransfer)
    (h : serverOptions.isEnabled functionCodeEncapsulatedInterfaceTransport →
      identificationObjects tomlSource serverOptions.detectMachineLayout fc43BulkTransfer = none) (objectId : UInt8) :
    ∃ code, peer.connection unitId sent (identificationRequest objectId) =
      some (exception functionCodeEncapsulatedInterfaceTransport code) := by
  by_cases henabled : serverOptions.isEnabled functionCodeEncapsulatedInterfaceTransport = true
  · refine ⟨exceptionServerDeviceFailure, hpeer.connection ?_⟩
    intro machines
    rw [identificationRequest, handleRequest_identification unitId machines henabled, h henabled]
  · refine ⟨exceptionIllegalFunction, hpeer.connection ?_⟩
    intro machines
    exact handleRequest_disabled unitId machines rfl (Bool.eq_false_iff.mpr henabled)

/-- The records of the compressed text are those that the client asks for. -/
theorem IsServed.bulkTransfer (hpeer : IsServed peer serverOptions tomlSource fc43BulkTransfer)
    (henabled : serverOptions.isEnabled functionCodeReadFileRecord) (hlayout : serverOptions.detectMachineLayout)
    {manifest : DeviceDescriptionManifest} (hfile : manifest.fileNumber = reservedDeviceDescriptionFileNumber)
    (recordNumber : UInt16) :
    peer.connection unitId sent (recordRequest manifest recordNumber) =
      bulkTransferServer fc43BulkTransfer.compressedToml (recordRequest manifest recordNumber) := by
  rw [recordRequest]
  generalize UInt16.ofNat _ = recordLength
  have hdec := ReadFileRecordRequest.decode_encode (m := ⟨[⟨manifest.fileNumber, recordNumber, recordLength⟩]⟩)
    (by simp)
    (by simp [fileRecordSubRequestLen])
  have hbulk : IsBulkTransfer ⟨[⟨manifest.fileNumber, recordNumber, recordLength⟩]⟩ := by
    refine ⟨by simp, ?_⟩
    intro subRequest hsub
    obtain rfl := List.mem_singleton.mp hsub
    exact hfile
  obtain ⟨response, hresponse, -⟩ :=
    @handleRequest_bulkTransfer serverOptions tomlSource fc43BulkTransfer unitId .empty _
    henabled hlayout hdec hbulk
  have hanswer : ∀ machines, handleRequest unitId (ReadFileRecordRequest.mk
      [⟨manifest.fileNumber, recordNumber, recordLength⟩]).encode serverOptions machines tomlSource fc43BulkTransfer =
        .ok (some response, machines) := by
    intro machines
    obtain ⟨response', hresponse', heq⟩ := @handleRequest_bulkTransfer serverOptions tomlSource fc43BulkTransfer unitId
      machines _ henabled hlayout hdec hbulk
    rw [hresponse] at hresponse'
    obtain rfl := Outcome.ok.inj hresponse'
    exact heq
  rw [hpeer.connection hanswer, bulkTransferServer, hdec]
  simp only [hresponse]

end Answers

/-! ### The two loops -/

section Loops

variable {overflowChecks : Bool} {peer : Peer} {unitId : UInt8}

theorem fetchTurn_congr {connection connection' : Connection} {state : FetchState}
    (h : connection (identificationRequest state.objectId) = connection' (identificationRequest state.objectId)) :
    fetchTurn connection state = fetchTurn connection' state := by
  rw [identificationRequest] at h
  simp only [fetchTurn, exchange, h]

theorem bulkTurn_congr {connection connection' : Connection} {manifest : DeviceDescriptionManifest} {state : BulkState}
    (h : connection (recordRequest manifest state.recordNumber) =
      connection' (recordRequest manifest state.recordNumber)) :
    bulkTurn overflowChecks connection manifest state = bulkTurn overflowChecks connection' manifest state := by
  rw [bulkTurn, bulkTurn]
  cases hrange : bulkTransferChunkRange manifest.compressedLength.toNat state.recordNumber with
  | none => rfl
  | some range =>
    rw [recordRequest, hrange, Option.getD_some] at h
    simp only [exchange, h]

/-- The pieces are the same whatever else is kept of what was sent. -/
theorem loop_identificationTurn {connection : Connection}
    (h : ∀ sent objectId, peer.connection unitId sent (identificationRequest objectId) =
      connection (identificationRequest objectId)) {requests : ℕ} {chunks : List Bytes}
    (hfetch : fetchChunks connection requests = some (.ok chunks)) :
    ∃ sent, loop (identificationTurn peer unitId) requests (⟨presenceObjectId, []⟩, []) =
      some (.ok (chunks, sent)) := by
  have hturn : ∀ s : FetchState × Sent, (identificationTurn peer unitId s).map (Turn.map Prod.fst Prod.fst) =
      fetchTurn connection s.1 := by
    intro s
    rw [identificationTurn, fetchTurn_congr (h s.2 s.1.objectId)]
    cases fetchTurn connection s.1 with
    | ok turn => cases turn <;> rfl
    | err e => rfl
    | panic => rfl
  have hloop := loop_map hturn requests (⟨presenceObjectId, []⟩, [])
  rw [show loop (fetchTurn connection) requests ⟨presenceObjectId, []⟩ = some (.ok chunks) from hfetch] at hloop
  obtain ⟨ended, hended, hchunks⟩ := Option.map_eq_some_iff.mp hloop
  cases ended with
  | ok result =>
    obtain rfl := Outcome.ok.inj hchunks
    exact ⟨result.2, hended⟩
  | err e => cases hchunks
  | panic => cases hchunks

theorem loop_recordTurn {connection : Connection} {manifest : DeviceDescriptionManifest}
    (h : ∀ sent recordNumber, peer.connection unitId sent (recordRequest manifest recordNumber) =
      connection (recordRequest manifest recordNumber)) (sent : Sent) (turns : ℕ) :
    loop (recordTurn overflowChecks peer unitId manifest) turns (⟨0, []⟩, sent) =
      fetchCompressed overflowChecks connection manifest turns := by
  have hturn : ∀ s : BulkState × Sent, (recordTurn overflowChecks peer unitId manifest s).map (Turn.map Prod.fst id) =
      bulkTurn overflowChecks connection manifest s.1 := by
    intro s
    rw [recordTurn, bulkTurn_congr (h s.2 s.1.recordNumber)]
    cases bulkTurn overflowChecks connection manifest s.1 with
    | ok turn => cases turn <;> rfl
    | err e => rfl
    | panic => rfl
  have hloop := loop_map hturn turns (⟨0, []⟩, sent)
  rw [fetchCompressed, ← hloop]
  cases loop (recordTurn overflowChecks peer unitId manifest) turns (⟨0, []⟩, sent) with
  | none => rfl
  | some ended => cases ended <;> rfl

end Loops

/-! ### The whole discovery -/

theorem fromUtf8_utf8 (text : String) : fromUtf8 (utf8 text) = some text := by
  rw [fromUtf8, utf8, Array.toArray_toList]
  change String.fromUTF8? text.toUTF8 = some text
  rw [String.fromUTF8?, dif_pos (show text.toUTF8.IsValidUTF8 from text.isValidUTF8)]
  rfl

/-- A text that fits is handed out in pieces, all of which are fetched. -/
theorem exists_objects_of_le {text : String} (h : (utf8 text).length ≤ 127 * 244) :
    ∃ objects, buildObjects text = .ok objects ∧ ∃ requests chunks,
      fetchChunks (identificationServer objects) requests = some (.ok chunks) ∧ chunks.flatten = utf8 text := by
  have hcount : (chunks maxTomlChunkLen (utf8 text)).length = ((utf8 text).length + 244 - 1) / 244 :=
    length_chunks (by decide) _
  have hpieces : (chunks maxTomlChunkLen (utf8 text)).length ≤ chunksAvailable := by
    have havail : chunksAvailable = 127 := rfl
    omega
  obtain ⟨requests, -, hfetch⟩ := fetchChunks_description hpieces fun piece hpiece =>
    (mem_chunks (by decide) piece hpiece).2
  exact ⟨_, buildObjects_of_le hpieces, requests, _, hfetch, flatten_chunks (by decide) _⟩

theorem buildObjects_of_gt {text : String} (h : 127 * 244 < (utf8 text).length) :
    ∃ e, buildObjects text = .error e := by
  have havail : chunksAvailable = 127 := rfl
  have hcount : (chunks maxTomlChunkLen (utf8 text)).length = ((utf8 text).length + 244 - 1) / 244 :=
    length_chunks (by decide) _
  rw [buildObjects, buildChunkObjects_of_gt (by omega) (by omega)]
  exact ⟨_, rfl⟩

section Discovery

variable {overflowChecks : Bool} {serverCodecs : BulkCodecs} {codecs : DescriptionCodecs}
  {serverOptions : ServerOptions}
  {tomlSource : String} {machines : List ManifestMachine} {peer : Peer}

/-- A client that is refused at once ends without a text. -/
theorem fetchDeviceDescription_of_refused {unitId functionCode code : UInt8}
    (h : peer.connection unitId [] (identificationRequest presenceObjectId) = some (exception functionCode code)) :
    fetchDeviceDescription overflowChecks codecs peer unitId 1 = some (.ok none) := by
  rw [identificationRequest] at h
  have hturn : identificationTurn peer unitId (⟨presenceObjectId, []⟩, []) = .err () := by
    rw [identificationTurn, fetchTurn, exchange_of_exception h]
    rfl
  rw [fetchDeviceDescription, loop, hturn]

/-- A text whose pieces are fetched is the description unless it is a manifest. -/
theorem fetchDeviceDescription_of_text {fc43BulkTransfer : Fc43BulkTransfer} {text : String}
    (hpeer : IsServed peer serverOptions tomlSource fc43BulkTransfer)
    (henabled : serverOptions.isEnabled functionCodeEncapsulatedInterfaceTransport)
    (hlength : (utf8 text).length ≤ 127 * 244)
    (hobjects : identificationObjects tomlSource serverOptions.detectMachineLayout fc43BulkTransfer =
      (buildObjects text).toOption) (unitId : UInt8) :
    ∃ requests sent, ∀ turns, requests ≤ turns → fetchDeviceDescription overflowChecks codecs peer unitId turns =
      match codecs.parseManifest text with
      | none => some (.ok (some text))
      | some manifest => fetchCompressedDeviceDescription overflowChecks codecs peer unitId manifest sent turns := by
  obtain ⟨objects, hbuilt, requests, chunks, hfetch, hflatten⟩ := exists_objects_of_le hlength
  rw [hbuilt] at hobjects
  obtain ⟨sent, hsent⟩ := loop_identificationTurn (fun sent => hpeer.identification henabled hobjects) hfetch
  refine ⟨requests, sent, ?_⟩
  intro turns hturns
  have hloop : loop (identificationTurn peer unitId) turns (⟨presenceObjectId, []⟩, []) = some (.ok (chunks, sent)) :=
    loop_mono hturns hsent
  cases hmanifest : codecs.parseManifest text with
  | none => simp only [fetchDeviceDescription, hloop, hflatten, fromUtf8_utf8, hmanifest]
  | some manifest => simp only [fetchDeviceDescription, hloop, hflatten, fromUtf8_utf8, hmanifest]

/-- What the second loop fetches is the compressed text, and what is made of it the text itself. -/
theorem fetchCompressedDeviceDescription_of_served (hagree : CodecsAgree serverCodecs codecs tomlSource machines)
    (hlength : (serverCodecs.compress (utf8 tomlSource)).length ≤ 0xFFFF * bulkTransferChunkBytes)
    (hpeer : IsServed peer serverOptions tomlSource (.build serverCodecs tomlSource machines))
    (hlayout : serverOptions.detectMachineLayout) (unitId : UInt8) (sent : Sent) :
    ∃ turns, fetchCompressedDeviceDescription overflowChecks codecs peer unitId
        (announce (serverCodecs.compress (utf8 tomlSource)) machines) sent turns =
      some (.ok (if serverOptions.isEnabled functionCodeReadFileRecord ∧
          (utf8 tomlSource).length ≤ maxDecompressedLen then
        some tomlSource else none)) := by
  by_cases henabled : serverOptions.isEnabled functionCodeReadFileRecord = true
  · obtain ⟨turns, hturns⟩ := fetchCompressed_of_le overflowChecks machines hlength
    refine ⟨turns, ?_⟩
    rw [fetchCompressedDeviceDescription,
      loop_recordTurn fun sent recordNumber => hpeer.bulkTransfer henabled hlayout rfl recordNumber]
    rw [show (Fc43BulkTransfer.build serverCodecs tomlSource machines).compressedToml =
      serverCodecs.compress (utf8 tomlSource) from rfl, hturns]
    dsimp only
    rw [hagree.inflate]
    by_cases hlimit : (utf8 tomlSource).length ≤ maxDecompressedLen
    · rw [if_pos hlimit, if_pos ⟨henabled, hlimit⟩, Option.bind_some, fromUtf8_utf8]
    · rw [if_neg hlimit, if_neg fun h => hlimit h.2]
      rfl
  · -- the first record is refused, and there is one as nothing is not the deflation of anything
    refine ⟨1, ?_⟩
    rw [if_neg fun h => henabled h.1]
    rcases Nat.eq_zero_or_pos (serverCodecs.compress (utf8 tomlSource)).length with hzero | hpos
    · have hturn : recordTurn overflowChecks peer unitId (announce (serverCodecs.compress (utf8 tomlSource)) machines)
          (⟨0, []⟩, sent) = .ok (.done []) := by
        have hrange := @bulkTransferChunkRange_of_le (announce (serverCodecs.compress (utf8 tomlSource))
          machines).compressedLength.toNat 0 (by simp [announce, hzero])
        rw [recordTurn, bulkTurn, hrange]
        dsimp only
        rw [List.take_nil]
        rfl
      rw [fetchCompressedDeviceDescription, loop_of_done hturn]
      dsimp only
      rw [hagree.nothing]
      rfl
    · have hannounced : (announce (serverCodecs.compress (utf8 tomlSource)) machines).compressedLength.toNat =
          (serverCodecs.compress (utf8 tomlSource)).length := by
        have hchunk : bulkTransferChunkBytes = 248 := rfl
        exact UInt32.toNat_ofNat_of_lt' (by simp [UInt32.size]; omega)
      have hrange := @bulkTransferChunkRange_of_lt (announce (serverCodecs.compress (utf8 tomlSource))
        machines).compressedLength.toNat 0 (by rw [hannounced]; simpa using hpos)
      have hrefused : ∀ request, peer.connection unitId sent (ReadFileRecordRequest.mk request).encode =
          some (exception functionCodeReadFileRecord exceptionIllegalFunction) := by
        intro request
        exact hpeer.connection fun _ => handleRequest_disabled _ _ rfl (Bool.eq_false_iff.mpr henabled)
      have hturn : recordTurn overflowChecks peer unitId (announce (serverCodecs.compress (utf8 tomlSource)) machines)
          (⟨0, []⟩, sent) = .err () := by
        rw [recordTurn, bulkTurn, hrange]
        dsimp only
        rw [exchange_of_exception (hrefused _)]
        rfl
      rw [fetchCompressedDeviceDescription, loop, hturn]

end Discovery

/-- Against a server that serves its description, whatever its size and the options, and however
other clients change the machines meanwhile, a client ends with exactly the text of the server
where that can be had, and with none everywhere else. -/
theorem description_discovered (overflowChecks : Bool) {serverCodecs : BulkCodecs} {codecs : DescriptionCodecs}
    {tomlSource : String} {machines : List ManifestMachine}
    (hagree : CodecsAgree serverCodecs codecs tomlSource machines)
    (hlength : (serverCodecs.compress (utf8 tomlSource)).length ≤ 0xFFFF * bulkTransferChunkBytes)
    {serverOptions : ServerOptions} {peer : Peer}
    (hpeer : IsServed peer serverOptions tomlSource (.build serverCodecs tomlSource machines)) (unitId : UInt8) :
    ∃ turns, fetchDeviceDescription overflowChecks codecs peer unitId turns =
      some (.ok (if Discoverable serverOptions tomlSource (.build serverCodecs tomlSource machines) then some tomlSource
        else none)) := by
  by_cases henabled : serverOptions.isEnabled functionCodeEncapsulatedInterfaceTransport = true
  swap
  · obtain ⟨code, hcode⟩ := hpeer.no_identification (fun h => absurd h henabled) presenceObjectId
    exact ⟨1, by rw [fetchDeviceDescription_of_refused hcode, if_neg fun h => henabled h.1]⟩
  rcases Nat.lt_or_ge (127 * 244) (utf8 tomlSource).length with hlarge | hsmall
  swap
  · -- the text fits as it is
    obtain ⟨objects, hbuilt, -⟩ := exists_objects_of_le hsmall
    obtain ⟨requests, sent, hfetch⟩ := fetchDeviceDescription_of_text hpeer henabled hsmall
      (by rw [identificationObjects, hbuilt]; rfl) unitId
    exact ⟨requests, by rw [hfetch requests le_rfl, hagree.plain, if_pos ⟨henabled, .inl hsmall⟩]⟩
  obtain ⟨tooLarge, htooLarge⟩ := buildObjects_of_gt hlarge
  have hobjects : identificationObjects tomlSource serverOptions.detectMachineLayout
      (.build serverCodecs tomlSource machines) = if serverOptions.detectMachineLayout then
        (buildObjects (Fc43BulkTransfer.build serverCodecs tomlSource machines).manifestToml).toOption else none := by
    rw [identificationObjects, htooLarge]
  have hnone : ∀ {p : Prop}, ¬p → ((utf8 tomlSource).length ≤ 127 * 244 ∨ p) → False := by
    rintro p hp (hfits | h)
    · exact absurd hfits (Nat.not_le_of_lt hlarge)
    · exact hp h
  by_cases hlayout : serverOptions.detectMachineLayout = true
  swap
  · rw [if_neg hlayout] at hobjects
    obtain ⟨code, hcode⟩ := hpeer.no_identification (fun _ => hobjects) presenceObjectId
    exact ⟨1, by rw [fetchDeviceDescription_of_refused hcode, if_neg fun h => hnone (fun h => hlayout h.1) h.2]⟩
  rw [if_pos hlayout] at hobjects
  rcases Nat.lt_or_ge (127 * 244)
    (utf8 (Fc43BulkTransfer.build serverCodecs tomlSource machines).manifestToml).length with
    hmanifest | hmanifest
  · obtain ⟨tooLarge', htooLarge'⟩ := buildObjects_of_gt hmanifest
    rw [htooLarge'] at hobjects
    obtain ⟨code, hcode⟩ := hpeer.no_identification (fun _ => hobjects) presenceObjectId
    refine ⟨1, ?_⟩
    rw [fetchDeviceDescription_of_refused hcode, if_neg]
    exact fun h => hnone (fun h => absurd h.2.2.1 (Nat.not_le_of_lt hmanifest)) h.2
  -- the manifest is handed out, and the records after it
  obtain ⟨requests, sent, hfetch⟩ := fetchDeviceDescription_of_text hpeer henabled hmanifest hobjects unitId
  obtain ⟨turns, hturns⟩ := fetchCompressedDeviceDescription_of_served hagree hlength hpeer hlayout unitId sent
  refine ⟨max requests turns, ?_⟩
  rw [hfetch _ (le_max_left requests turns)]
  rw [hagree.manifest]
  dsimp only
  rw [fetchCompressedDeviceDescription_mono (le_max_right requests turns) hturns]
  refine congrArg (fun text => some (Outcome.ok text)) (if_congr ?_ rfl rfl)
  constructor
  · exact fun h => ⟨henabled, .inr ⟨hlayout, h.1, hmanifest, h.2⟩⟩
  · rintro ⟨-, hfits | h⟩
    · exact absurd hfits (Nat.not_le_of_lt hlarge)
    · exact ⟨h.2.1, h.2.2.2⟩

/-! ### A description of one machine and a long comment -/

section Only

variable (tomlSource : String) (deflated : Bytes) (machines : List ManifestMachine)

/-- A machine as the serializer writes it. -/
def machineLines (machine : ManifestMachine) : String :=
  "name = \"" ++ machine.name ++ "\"\nunit_id = " ++ toString machine.unitId.toNat ++ "\n"

/-- The other libraries, where they are used for one description. -/
def codecsOf : BulkCodecs := ⟨fun bytes => if bytes = utf8 tomlSource then deflated else [3, 0], machineLines⟩

def descriptionCodecsOf : DescriptionCodecs where
  parseManifest := fun text =>
    if text = (announce deflated machines).toTomlString machineLines then some (announce deflated machines) else none
  decompress := fun bytes => if bytes = deflated then some (utf8 tomlSource) else none

def transferOf : Fc43BulkTransfer := .build (codecsOf tomlSource deflated) tomlSource machines

/-- A server of one description as a peer. -/
def peerOf : Peer := fun sent =>
  match sent.getLast? with
  | some (unitId, pdu) =>
    match handleRequest unitId pdu .allowAll .empty tomlSource (transferOf tomlSource deflated machines) with
    | .ok (some response, _) => .ok response
    | _ => .error .timedOut
  | none => .error .timedOut

variable {tomlSource deflated machines}

theorem codecsOf_compress : (codecsOf tomlSource deflated).compress (utf8 tomlSource) = deflated := if_pos rfl

theorem manifestToml_transferOf : (transferOf tomlSource deflated machines).manifestToml =
    (announce deflated machines).toTomlString machineLines := by
  rw [transferOf, Fc43BulkTransfer.build, codecsOf_compress]
  rfl

/-- A text that is longer than its manifest is not taken for it. -/
theorem codecsAgree_codecsOf (hne : deflated ≠ []) (hlength : (utf8 tomlSource).length ≤ maxDecompressedLen)
    (hlonger : (utf8 ((announce deflated machines).toTomlString machineLines)).length < (utf8 tomlSource).length) :
    CodecsAgree (codecsOf tomlSource deflated) (descriptionCodecsOf tomlSource deflated machines) tomlSource
      machines := by
  refine ⟨?_, if_neg hne.symm, ?_, ?_⟩
  · rw [codecsOf_compress, if_pos hlength]
    exact if_pos rfl
  · rw [← transferOf, manifestToml_transferOf, codecsOf_compress]
    exact if_pos rfl
  · refine if_neg fun hsame => ?_
    rw [← hsame] at hlonger
    exact lt_irrefl _ hlonger

theorem isServed_peerOf : IsServed (peerOf tomlSource deflated machines) .allowAll tomlSource
    (transferOf tomlSource deflated machines) := by
  intro sent unitId pdu
  obtain ⟨response, machines', hanswer, -⟩ := handleRequest_answered unitId pdu .allowAll .empty tomlSource
    (transferOf tomlSource deflated machines)
  refine ⟨.empty, response, machines', hanswer, ?_⟩
  rw [peerOf, List.getLast?_concat]
  dsimp only
  rw [hanswer]
  cases response <;> rfl

end Only

def pumpTable : String := "[[machines]]\nname = \"pump\"\nunit_id = 3\n"

/-- It does not fit as it is. -/
def longToml : String := pumpTable ++ commentToml 31000

def longDeflated : Bytes :=
  [237, 200, 193, 9, 128, 32, 0, 0, 192, 191, 83, 132, 141, 208, 187, 73, 36, 66, 74, 200, 135, 18, 84, 251, 215, 8,
    13, 112, 247, 188, 148, 90, 222, 142, 218, 203, 181, 44, 161, 231, 86, 134, 121, 136, 231, 211, 206, 24, 158, 94,
    239, 181, 238, 95, 76, 97, 4, 0, 0, 0, 0, 0, 0, 0, 0, 0, 0, 0, 0, 0, 0, 0, 0, 0, 0, 0, 0, 0, 0, 0, 0, 0, 0, 0, 0, 0,
    248, 233, 5]

theorem length_utf8_append (start rest : String) :
    (utf8 (start ++ rest)).length = (utf8 start).length + (utf8 rest).length :=
  String.utf8ByteSize_append

theorem length_pumpTable : (utf8 pumpTable).length = 39 := by
  decide +kernel

theorem length_longToml : (utf8 longToml).length = 31039 := by
  rw [longToml, length_utf8_append, length_commentToml, length_pumpTable]

/-- The description is fetched by way of the manifest. -/
theorem description_discovered_long :
    ∃ turns, fetchDeviceDescription true (descriptionCodecsOf longToml longDeflated [⟨"pump", 3⟩])
      (peerOf longToml longDeflated [⟨"pump", 3⟩]) 3 turns = some (.ok (some longToml)) := by
  have hshort : (utf8 ((announce longDeflated [⟨"pump", 3⟩]).toTomlString machineLines)).length ≤ 127 * 244 := by
    decide +kernel
  have hfits : (utf8 longToml).length ≤ maxDecompressedLen := by
    rw [length_longToml]
    decide
  have hagree : CodecsAgree (codecsOf longToml longDeflated) (descriptionCodecsOf longToml longDeflated [⟨"pump", 3⟩])
      longToml [⟨"pump", 3⟩] :=
    codecsAgree_codecsOf (by decide) hfits (hshort.trans_lt (by rw [length_longToml]; decide))
  have hfetch := description_discovered true hagree (by rw [codecsOf_compress]; decide) isServed_peerOf 3
  rw [← @manifestToml_transferOf longToml] at hshort
  rwa [if_pos ⟨rfl, .inr ⟨rfl, rfl, hshort, hfits⟩⟩] at hfetch

end InfusedModbus.Client
