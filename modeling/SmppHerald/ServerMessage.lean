import SmppHerald.Message

namespace SmppHerald.ServerMessage

open SmppHerald.CommandIds
open SmppHerald.Io
open SmppHerald.Json
open SmppHerald.Message

/-- The values of `CommandStatus` that are answered with or compared to. -/
inductive CommandStatus
  | esmeRok
  | esmeRInvCmdId
  | esmeRInvBndSts
  | esmeRSysErr
  | esmeRBindFail
  | esmeRCancelFail
  | esmeRReplaceFail
  | esmeRSubmitFail
  | esmeRInvSched
  | esmeRInvExpiry
  | esmeRQueryFail
  | esmeRUnknownErr
  | esmeRBcastFail
  | esmeRBcastQueryFail
  | esmeRBcastCancelFail
deriving DecidableEq, Repr

def CommandStatus.asU32 : CommandStatus → UInt32
  | .esmeRok => 0x00000000
  | .esmeRInvCmdId => 0x00000003
  | .esmeRInvBndSts => 0x00000004
  | .esmeRSysErr => 0x00000008
  | .esmeRBindFail => 0x0000000D
  | .esmeRCancelFail => 0x00000011
  | .esmeRReplaceFail => 0x00000013
  | .esmeRSubmitFail => 0x00000045
  | .esmeRInvSched => 0x00000061
  | .esmeRInvExpiry => 0x00000062
  | .esmeRQueryFail => 0x00000067
  | .esmeRUnknownErr => 0x000000FF
  | .esmeRBcastFail => 0x0000010D
  | .esmeRBcastQueryFail => 0x0000010E
  | .esmeRBcastCancelFail => 0x0000010F

inductive MessageMode
  | default | datagram | transaction | storeAndForward
deriving DecidableEq, Repr

def MessageMode.fromU8 (value : UInt8) : MessageMode :=
  match (value &&& 0b00000011).toNat with
  | 1 => .datagram
  | 2 => .transaction
  | 3 => .storeAndForward
  | _ => .default

def MessageMode.fromString (value : String) : Option MessageMode :=
  let letters := (value.toList.filter fun c => c ≠ '_' ∧ c ≠ '-').map Utf8.toLowercase
  let value := String.ofList letters
  if value = "default" then some .default
  else if value = "datagram" then some .datagram
  else if value = "transaction" ∨ value = "forward" then some .transaction
  else if value = "storeandforward" ∨ value = "storeforward" then some .storeAndForward
  else none

structure Address where
  ton : UInt8
  npi : UInt8
  address : String
deriving DecidableEq, Repr

/-- The names of the distribution lists and their members. -/
abbrev DistrubutionList := List (String × List Address)

def DistrubutionList.get (lists : DistrubutionList) (name : String) : Option (List Address) :=
  lists.lookup name

structure ServerConfig where
  interfaceVersion : UInt8
  defaultValidityPeriod : Option UInt32
  defaultMcMode : Option String
  predefinedMessages : Option (List String)
  defaultServiceType : Option String

namespace ServerConfig

def getDefaultValidityPeriod (config : ServerConfig) : UInt32 :=
  config.defaultValidityPeriod.getD 3600

def getDefaultMcMode (config : ServerConfig) : MessageMode :=
  let messageMode :=
    (MessageMode.fromString (config.defaultMcMode.getD "storeandforward")).getD .storeAndForward
  if messageMode = .default then .storeAndForward else messageMode

/-- The callers ask for an index from one on. -/
def getPredefinedMessage (config : ServerConfig) (index : Nat) : Option String :=
  config.predefinedMessages.bind fun messages => messages[index - 1]?

def getDefaultServiceType (config : ServerConfig) : String := config.defaultServiceType.getD ""

end ServerConfig

def extractDestionationAddresses (decodedMessage : Value) (distributionList : DistrubutionList) :
    List Address :=
  match extractCommandId decodedMessage with
  | some .submitSm | some .dataSm | some .deliverSm =>
      match (decodedMessage.get "dest_addr_ton").bind Value.asU64,
          (decodedMessage.get "dest_addr_npi").bind Value.asU64,
          (decodedMessage.get "destination_addr").bind Value.asStr with
      | some ton, some npi, some address => [⟨ton.toUInt8, npi.toUInt8, address⟩]
      | _, _, _ => []
  | some .submitMulti =>
      (((decodedMessage.get "dest_addresses").bind Value.asArray).getD []).flatMap fun addr =>
        match (addr.get "dest_addr_ton").bind Value.asU64,
            (addr.get "dest_addr_npi").bind Value.asU64,
            (addr.get "destination_addr").bind Value.asStr with
        | some ton, some npi, some address => [⟨ton.toUInt8, npi.toUInt8, address⟩]
        | _, _, _ =>
            match (addr.get "dl_name").bind Value.asStr with
            | some dlName => (distributionList.get dlName).getD []
            | none => []
  | _ => []

def replaceMessageWithPredefined (value : Value) (predefinedMessage : String) : Outcome Value :=
  match extractCommandId value with
  | some .submitSm | some .dataSm | some .deliverSm =>
      match value.get "short_message" with
      | some shortMessage =>
          if shortMessage.asStr.getD "" = "" then
            .ok (value.assignKey "short_message" (.string predefinedMessage))
          else .ok value
      | none => .err (invalidInput "Missing short_message field")
  | _ => .ok value

def replaceSmDefaultMsgIdWithPredefinedMessage (config : ServerConfig) (decodedMessage : Value) :
    Outcome Value :=
  let smDefaultMsgId := decodedMessage.u64Field "sm_default_msg_id"
  if smDefaultMsgId ≠ 0 then
    match config.getPredefinedMessage smDefaultMsgId.toNat with
    | some predefinedMessage =>
        replaceMessageWithPredefined (decodedMessage.assignKey "sm_default_msg_id" (.ofNat 0))
          predefinedMessage
    | none => .ok decodedMessage
  else .ok decodedMessage

def setServiceType (config : ServerConfig) (decodedMessage : Value) : Value :=
  if decodedMessage.strField "service_type" = "" ∧ config.getDefaultServiceType ≠ "" then
    decodedMessage.assignKey "service_type" (.string config.getDefaultServiceType)
  else decodedMessage

def getMessageMode (config : ServerConfig) (decodedMessage : Value) : MessageMode :=
  match MessageMode.fromU8 (decodedMessage.u64Field "esm_class").toUInt8 with
  | .default => config.getDefaultMcMode
  | messageMode => messageMode

/-- `command_id` and `sequence_number` as all three senders of deliver_sm replace them. -/
def asDeliverSm (newSequenceNumber : UInt32) (decodedMessage : Value) : Value :=
  (decodedMessage.assignKey "command_id" (.ofNat CommandId.deliverSm.asU32.toNat)).assignKey
    "sequence_number" (.ofNat newSequenceNumber.toNat)

/-- What becomes of a submit_sm or data_sm before the server decides where it goes. -/
def prepareDataSubmitSm (config : ServerConfig) (newSequenceNumber : UInt32)
    (decodedMessage : Value) : Outcome Value := do
  let decodedMessage ← replaceSmDefaultMsgIdWithPredefinedMessage config decodedMessage
  return (setServiceType config decodedMessage).insertKey "sequence_number"
    (.ofNat newSequenceNumber.toNat)

theorem prepareDataSubmitSm_of_replaced {config : ServerConfig} {decodedMessage replaced : Value}
    (h : replaceSmDefaultMsgIdWithPredefinedMessage config decodedMessage = .ok replaced)
    (n : UInt32) : prepareDataSubmitSm config n decodedMessage =
      .ok ((setServiceType config replaced).insertKey "sequence_number" (.ofNat n.toNat)) := by
  rw [prepareDataSubmitSm, h]
  rfl

theorem replaceMessageWithPredefined_ok {value replaced : Value} {predefinedMessage : String}
    (h : replaceMessageWithPredefined value predefinedMessage = .ok replaced) :
    replaced = value ∨ replaced = value.assignKey "short_message" (.string predefinedMessage) := by
  have hshort : ∀ shortMessage : Value, (if shortMessage.asStr.getD "" = "" then
      .ok (value.assignKey "short_message" (.string predefinedMessage)) else .ok value) =
        Outcome.ok replaced →
      replaced = value ∨
        replaced = value.assignKey "short_message" (.string predefinedMessage) := by
    intro shortMessage h
    split at h
    · exact .inr (Outcome.ok.inj h).symm
    · exact .inl (Outcome.ok.inj h).symm
  unfold replaceMessageWithPredefined at h
  split at h
  · split at h
    · exact hshort _ h
    · simp at h
  · split at h
    · exact hshort _ h
    · simp at h
  · split at h
    · exact hshort _ h
    · simp at h
  · exact .inl (Outcome.ok.inj h).symm

theorem replaceSmDefaultMsgId_ok {config : ServerConfig} {message replaced : Value}
    (h : replaceSmDefaultMsgIdWithPredefinedMessage config message = .ok replaced) :
    replaced = message ∨ replaced = message.assignKey "sm_default_msg_id" (.ofNat 0) ∨
      ∃ text, replaced = (message.assignKey "sm_default_msg_id" (.ofNat 0)).assignKey
        "short_message" (.string text) := by
  simp only [replaceSmDefaultMsgIdWithPredefinedMessage] at h
  split at h
  · split at h
    · rename_i text _
      rcases replaceMessageWithPredefined_ok h with hsame | hreplaced
      · exact .inr (.inl hsame)
      · exact .inr (.inr ⟨text, hreplaced⟩)
    · exact .inl (Outcome.ok.inj h).symm
  · exact .inl (Outcome.ok.inj h).symm

theorem get_asDeliverSm_of_ne {key : String} (hcommand : key ≠ "command_id")
    (hsequence : key ≠ "sequence_number") (n : UInt32) (message : Value) :
    (asDeliverSm n message).get key = message.get key := by
  rw [asDeliverSm, Value.get_assignKey_of_ne hsequence, Value.get_assignKey_of_ne hcommand]

theorem extractCommandId_asDeliverSm {message : Value} {value : Value}
    (h : message.get "command_id" = some value) (n : UInt32) :
    extractCommandId (asDeliverSm n message) = some .deliverSm := by
  have hget : (asDeliverSm n message).get "command_id" =
      some (.ofNat CommandId.deliverSm.asU32.toNat) := by
    rw [asDeliverSm, Value.get_assignKey_of_ne (by decide), Value.get_assignKey_self, h]
    rfl
  rw [extractCommandId, hget]
  rfl

/-- The fields of a submit_multi that its messages to the single destinations take over. -/
def submitMultiFields : List String :=
  ["service_type", "source_addr_ton", "source_addr_npi", "source_addr", "esm_class", "protocol_id",
   "priority_flag", "schedule_delivery_time", "validity_period", "registered_delivery",
   "replace_if_present_flag", "data_coding", "sm_default_msg_id", "short_message"]

def createSubmitSmFromSubmitMulti (decodedMessage : Value) (destAddr : Address) : Value :=
  let own : Map :=
    [("command_id", .ofNat CommandId.submitSm.asU32.toNat),
     ("sequence_number", (decodedMessage.get "sequence_number").getD (.ofNat 0)),
     ("command_status", .ofNat 0),
     ("dest_addr_ton", .ofNat destAddr.ton.toNat),
     ("dest_addr_npi", .ofNat destAddr.npi.toNat),
     ("destination_addr", .string destAddr.address)]
  let taken := submitMultiFields.filterMap fun field =>
    (decodedMessage.get field).map fun value => (field, value)
  .object (insertAll (own ++ taken) [])

/-- Fields of other names that are taken over leave the own ones as they are. -/
theorem get_of_own {own : Map} {fields : List String} {decodedMessage : Value} {name : String}
    {value : Value} (hmem : ∃ entry ∈ own, entry.1 = name)
    (hown : ∀ entry ∈ own, entry.1 = name → entry.2 = value) (hname : name ∉ fields) :
    (Value.object (insertAll (own ++ fields.filterMap fun field =>
      (decodedMessage.get field).map fun value => (field, value)) [])).get name = some value := by
  obtain ⟨entry, hentry, hkey⟩ := hmem
  refine lookup_insertAll_of_agree ?_ ⟨entry, List.mem_append_left _ hentry, hkey⟩
  intro entry hentry hkey
  rcases List.mem_append.mp hentry with hentry | htaken
  · exact hown entry hentry hkey
  · obtain ⟨field, hfield, hvalue⟩ := List.mem_filterMap.mp htaken
    obtain ⟨value, -, rfl⟩ := Option.map_eq_some_iff.mp hvalue
    obtain rfl : field = name := hkey
    exact absurd hfield hname

end SmppHerald.ServerMessage
