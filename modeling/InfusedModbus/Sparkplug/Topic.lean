import Mathlib.Data.String.Basic

/-! The topics of the messages of an edge node and its devices. The levels of a topic stand
between slashes: the namespace, the group, the kind of the message, the node, and the device
of a message that is a device's. As long as the ids have no slash, a topic tells them all. -/

namespace InfusedModbus.Sparkplug

inductive MessageType where
  | nbirth | ndeath | ndata | ncmd | dbirth | ddeath | ddata | dcmd
  deriving DecidableEq, Repr

namespace MessageType

def asStr : MessageType → String
  | .nbirth => "NBIRTH"
  | .ndeath => "NDEATH"
  | .ndata => "NDATA"
  | .ncmd => "NCMD"
  | .dbirth => "DBIRTH"
  | .ddeath => "DDEATH"
  | .ddata => "DDATA"
  | .dcmd => "DCMD"

def isDeviceScoped : MessageType → Bool
  | .dbirth | .ddeath | .ddata | .dcmd => true
  | _ => false

theorem asStr_injective {messageType messageType' : MessageType} (h : messageType.asStr = messageType'.asStr) :
    messageType = messageType' := by
  cases messageType <;> cases messageType' <;> first | rfl | exact absurd h (by decide)

end MessageType

inductive TopicError where
  | missingDeviceId | unexpectedDeviceId
  deriving DecidableEq, Repr

def buildTopic (groupId : String) (messageType : MessageType) (edgeNodeId : String) (deviceId : Option String) :
    Except TopicError String :=
  match messageType.isDeviceScoped, deviceId with
  | true, some deviceId =>
    .ok ("spBv1.0/" ++ groupId ++ "/" ++ messageType.asStr ++ "/" ++ edgeNodeId ++ "/" ++ deviceId)
  | true, none => .error .missingDeviceId
  | false, none => .ok ("spBv1.0/" ++ groupId ++ "/" ++ messageType.asStr ++ "/" ++ edgeNodeId)
  | false, some _ => .error .unexpectedDeviceId

/-- Where a host application tells whether it is online. -/
def buildStateTopic (hostId : String) : String := "spBv1.0/STATE/" ++ hostId

/-! ### Levels -/

/-- A text that is one level of a topic. -/
def IsLevel (text : String) : Prop := '/' ∉ text.toList

instance (text : String) : Decidable (IsLevel text) := inferInstanceAs (Decidable ('/' ∉ text.toList))

def topicOf (levels : List String) : String := "/".intercalate levels

theorem splitOn_cons {level : String} (h : IsLevel level) (rest : String) :
    (level ++ "/" ++ rest).toList.splitOn '/' = level.toList :: rest.toList.splitOn '/' := by
  rw [String.toList_append, String.toList_append, List.append_assoc]
  exact List.splitOn_append_cons_self_of_not_mem h _

theorem splitOn_topicOf {levels : List String} (hlevels : ∀ level ∈ levels, IsLevel level) (hne : levels ≠ []) :
    (topicOf levels).toList.splitOn '/' = levels.map String.toList := by
  rw [topicOf, String.toList_intercalate]
  apply List.splitOn_intercalate
  · intro chars hchars
    obtain ⟨level, hlevel, rfl⟩ := List.mem_map.mp hchars
    exact hlevels level hlevel
  · simpa using hne

/-- A topic has one reading. -/
theorem topicOf_injective {levels levels' : List String} (hlevels : ∀ level ∈ levels, IsLevel level)
    (hlevels' : ∀ level ∈ levels', IsLevel level) (hne : levels ≠ []) (hne' : levels' ≠ [])
    (h : topicOf levels = topicOf levels') : levels = levels' := by
  have hchars := splitOn_topicOf hlevels hne
  rw [h, splitOn_topicOf hlevels' hne'] at hchars
  exact (List.map_injective_iff.mpr (fun _ _ => String.toList_injective) hchars).symm

/-- The levels of a message's topic. -/
def messageLevels (groupId : String) (messageType : MessageType) (edgeNodeId : String) (deviceId : Option String) :
    List String :=
  ["spBv1.0", groupId, messageType.asStr, edgeNodeId] ++ deviceId.toList

theorem buildTopic_eq_ok {groupId edgeNodeId topic : String} {messageType : MessageType} {deviceId : Option String} :
    buildTopic groupId messageType edgeNodeId deviceId = .ok topic ↔
      messageType.isDeviceScoped = deviceId.isSome ∧
        topicOf (messageLevels groupId messageType edgeNodeId deviceId) = topic := by
  unfold buildTopic
  cases messageType.isDeviceScoped <;> cases deviceId <;>
    simp [messageLevels, topicOf, String.intercalate_cons_cons, String.append_assoc]

theorem buildStateTopic_eq (hostId : String) : buildStateTopic hostId = topicOf ["spBv1.0", "STATE", hostId] := by
  simp [buildStateTopic, topicOf, String.intercalate_cons_cons, ← String.append_assoc]

theorem isLevel_asStr (messageType : MessageType) : IsLevel messageType.asStr := by
  cases messageType <;> decide

/-- The ids of a message are levels. -/
structure LevelIds (groupId edgeNodeId : String) (deviceId : Option String) : Prop where
  group : IsLevel groupId
  edgeNode : IsLevel edgeNodeId
  device : ∀ id ∈ deviceId, IsLevel id

theorem LevelIds.messageLevels {groupId edgeNodeId : String} {deviceId : Option String}
    (h : LevelIds groupId edgeNodeId deviceId) (messageType : MessageType) :
    ∀ level ∈ messageLevels groupId messageType edgeNodeId deviceId, IsLevel level := by
  intro level hlevel
  simp only [Sparkplug.messageLevels, List.mem_append, List.mem_cons, List.not_mem_nil, or_false,
    Option.mem_toList] at hlevel
  rcases hlevel with (rfl | rfl | rfl | rfl) | hdevice
  · decide
  · exact h.group
  · exact isLevel_asStr messageType
  · exact h.edgeNode
  · exact h.device level hdevice

/-- A topic tells the group, the kind, the node and the device. -/
theorem buildTopic_injective {groupId groupId' edgeNodeId edgeNodeId' topic : String}
    {messageType messageType' : MessageType} {deviceId deviceId' : Option String}
    (hids : LevelIds groupId edgeNodeId deviceId) (hids' : LevelIds groupId' edgeNodeId' deviceId')
    (h : buildTopic groupId messageType edgeNodeId deviceId = .ok topic)
    (h' : buildTopic groupId' messageType' edgeNodeId' deviceId' = .ok topic) :
    groupId = groupId' ∧ messageType = messageType' ∧ edgeNodeId = edgeNodeId' ∧ deviceId = deviceId' := by
  have hlevels := topicOf_injective (hids.messageLevels messageType) (hids'.messageLevels messageType')
    (by simp [messageLevels]) (by simp [messageLevels])
    ((buildTopic_eq_ok.mp h).2.trans (buildTopic_eq_ok.mp h').2.symm)
  simp only [messageLevels, List.cons_append, List.nil_append, List.cons.injEq, true_and] at hlevels
  obtain ⟨hgroup, htype, hnode, hdevice⟩ := hlevels
  refine ⟨hgroup, MessageType.asStr_injective htype, hnode, ?_⟩
  cases deviceId <;> cases deviceId' <;> simp_all

/-- So does that of a command to a device, even before it is known that the device's id is a
level. -/
theorem buildTopic_dcmd_injective {groupId groupId' edgeNodeId edgeNodeId' deviceId topic : String}
    {messageType : MessageType} {deviceId' : Option String} (hgroup : IsLevel groupId) (hnode : IsLevel edgeNodeId)
    (hids' : LevelIds groupId' edgeNodeId' deviceId')
    (h : buildTopic groupId .dcmd edgeNodeId (some deviceId) = .ok topic)
    (h' : buildTopic groupId' messageType edgeNodeId' deviceId' = .ok topic) :
    groupId' = groupId ∧ messageType = .dcmd ∧ edgeNodeId' = edgeNodeId ∧ deviceId' = some deviceId := by
  have htopic : topic = "spBv1.0" ++ "/" ++ (groupId ++ "/" ++ ("DCMD" ++ "/" ++ (edgeNodeId ++ "/" ++ deviceId))) := by
    rw [← (buildTopic_eq_ok.mp h).2]
    simp [messageLevels, topicOf, String.intercalate_cons_cons, MessageType.asStr, String.append_assoc]
  have hsplit := splitOn_topicOf (hids'.messageLevels messageType) (by simp [messageLevels])
  rw [(buildTopic_eq_ok.mp h').2, htopic, splitOn_cons (by decide), splitOn_cons hgroup, splitOn_cons (by decide),
    splitOn_cons hnode] at hsplit
  simp only [messageLevels, List.cons_append, List.nil_append, List.map_cons, List.cons.injEq] at hsplit
  obtain ⟨-, hsameGroup, htype, hsameNode, hdevice⟩ := hsplit
  refine ⟨(String.toList_injective hsameGroup).symm,
    MessageType.asStr_injective (String.toList_injective htype).symm, (String.toList_injective hsameNode).symm, ?_⟩
  have hjoined : ['/'].intercalate (deviceId.toList.splitOn '/') = deviceId.toList := List.intercalate_splitOn '/'
  rw [hdevice] at hjoined
  cases deviceId' with
  | none => exact absurd hdevice (List.splitOn_ne_nil _ _)
  | some id =>
    have hsame : id.toList = deviceId.toList := by simpa using hjoined
    rw [String.toList_injective hsame]

/-- No message of a node has the topic of a host's state. -/
theorem buildTopic_ne_buildStateTopic {groupId edgeNodeId hostId : String} {messageType : MessageType}
    {deviceId : Option String} (hids : LevelIds groupId edgeNodeId deviceId) (hhost : IsLevel hostId) :
    buildTopic groupId messageType edgeNodeId deviceId ≠ .ok (buildStateTopic hostId) := by
  intro h
  have hstate : ∀ level ∈ ["spBv1.0", "STATE", hostId], IsLevel level := by
    intro level hlevel
    simp only [List.mem_cons, List.not_mem_nil, or_false] at hlevel
    rcases hlevel with rfl | rfl | rfl
    · decide
    · decide
    · exact hhost
  have hlevels := topicOf_injective (hids.messageLevels messageType) hstate (by simp [messageLevels]) (by simp)
    ((buildTopic_eq_ok.mp h).2.trans (buildStateTopic_eq hostId))
  have hlength := congrArg List.length hlevels
  simp [messageLevels] at hlength

end InfusedModbus.Sparkplug
