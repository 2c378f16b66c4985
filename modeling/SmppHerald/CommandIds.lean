import Mathlib.Algebra.Group.Nat.Defs

namespace SmppHerald.CommandIds

inductive CommandId
  | bindReceiver
  | bindReceiverResp
  | bindTransmitter
  | bindTransmitterResp
  | bindTransceiver
  | bindTransceiverResp
  | unbind
  | unbindResp
  | outbind
  | submitSm
  | submitSmResp
  | submitMulti
  | submitMultiResp
  | deliverSm
  | deliverSmResp
  | dataSm
  | dataSmResp
  | querySm
  | querySmResp
  | cancelSm
  | cancelSmResp
  | replaceSm
  | replaceSmResp
  | enquireLink
  | enquireLinkResp
  | genericNack
  | alertNotification
  | broadcastSm
  | broadcastSmResp
  | queryBroadcastSm
  | queryBroadcastSmResp
  | cancelBroadcastSm
  | cancelBroadcastSmResp
  | unknown
deriving DecidableEq, Repr

namespace CommandId

def asU32 : CommandId → UInt32
  | .bindReceiver => 0x00000001
  | .bindReceiverResp => 0x80000001
  | .bindTransmitter => 0x00000002
  | .bindTransmitterResp => 0x80000002
  | .bindTransceiver => 0x00000009
  | .bindTransceiverResp => 0x80000009
  | .unbind => 0x00000006
  | .unbindResp => 0x80000006
  | .outbind => 0x0000000B
  | .submitSm => 0x00000004
  | .submitSmResp => 0x80000004
  | .submitMulti => 0x00000021
  | .submitMultiResp => 0x80000021
  | .deliverSm => 0x00000005
  | .deliverSmResp => 0x80000005
  | .dataSm => 0x00000103
  | .dataSmResp => 0x80000103
  | .querySm => 0x00000003
  | .querySmResp => 0x80000003
  | .cancelSm => 0x00000008
  | .cancelSmResp => 0x80000008
  | .replaceSm => 0x00000007
  | .replaceSmResp => 0x80000007
  | .enquireLink => 0x00000015
  | .enquireLinkResp => 0x80000015
  | .genericNack => 0x80000000
  | .alertNotification => 0x00000102
  | .broadcastSm => 0x00000111
  | .broadcastSmResp => 0x80000111
  | .queryBroadcastSm => 0x00000112
  | .queryBroadcastSmResp => 0x80000112
  | .cancelBroadcastSm => 0x00000113
  | .cancelBroadcastSmResp => 0x80000113
  | .unknown => 0xFFFFFFFF

/-- The arms of `from_u32`. -/
def numbers : List (UInt32 × CommandId) :=
  [(0x00000001, .bindReceiver),
   (0x80000001, .bindReceiverResp),
   (0x00000002, .bindTransmitter),
   (0x80000002, .bindTransmitterResp),
   (0x00000009, .bindTransceiver),
   (0x80000009, .bindTransceiverResp),
   (0x00000006, .unbind),
   (0x80000006, .unbindResp),
   (0x0000000B, .outbind),
   (0x00000004, .submitSm),
   (0x80000004, .submitSmResp),
   (0x00000021, .submitMulti),
   (0x80000021, .submitMultiResp),
   (0x00000005, .deliverSm),
   (0x80000005, .deliverSmResp),
   (0x00000103, .dataSm),
   (0x80000103, .dataSmResp),
   (0x00000003, .querySm),
   (0x80000003, .querySmResp),
   (0x00000008, .cancelSm),
   (0x80000008, .cancelSmResp),
   (0x00000007, .replaceSm),
   (0x80000007, .replaceSmResp),
   (0x00000015, .enquireLink),
   (0x80000015, .enquireLinkResp),
   (0x80000000, .genericNack),
   (0x00000102, .alertNotification),
   (0x00000111, .broadcastSm),
   (0x80000111, .broadcastSmResp),
   (0x00000112, .queryBroadcastSm),
   (0x80000112, .queryBroadcastSmResp),
   (0x00000113, .cancelBroadcastSm),
   (0x80000113, .cancelBroadcastSmResp)]

def fromU32 (value : UInt32) : Option CommandId := numbers.lookup value

/-- The arms of `from_str`, over lower-case names without `-` and `_`. -/
def names : List (String × CommandId) :=
  [("bindreceiver", .bindReceiver),
   ("bindreceiverresp", .bindReceiverResp),
   ("bindreceiverresponse", .bindReceiverResp),
   ("bindtransmitter", .bindTransmitter),
   ("bindtransmitterresp", .bindTransmitterResp),
   ("bindtransmitterresponse", .bindTransmitterResp),
   ("bindtransceiver", .bindTransceiver),
   ("bindtransceiverresp", .bindTransceiverResp),
   ("bindtransceiverresponse", .bindTransceiverResp),
   ("unbind", .unbind),
   ("unbindresp", .unbindResp),
   ("unbindresponse", .unbindResp),
   ("outbind", .outbind),
   ("submitsm", .submitSm),
   ("submitsmresp", .submitSmResp),
   ("submitsmresponse", .submitSmResp),
   ("submitmulti", .submitMulti),
   ("submitmultiresp", .submitMultiResp),
   ("submitmultiresponse", .submitMultiResp),
   ("deliversm", .deliverSm),
   ("deliversmresp", .deliverSmResp),
   ("deliversmresponse", .deliverSmResp),
   ("datasm", .dataSm),
   ("datasmresp", .dataSmResp),
   ("datasmresponse", .dataSmResp),
   ("querysm", .querySm),
   ("querysmresp", .querySmResp),
   ("querysmresponse", .querySmResp),
   ("cancelsm", .cancelSm),
   ("cancelsmresp", .cancelSmResp),
   ("cancelsmresponse", .cancelSmResp),
   ("replacesm", .replaceSm),
   ("replacesmresp", .replaceSmResp),
   ("replacesmresponse", .replaceSmResp),
   ("enquirelink", .enquireLink),
   ("enquirelinkresp", .enquireLinkResp),
   ("enquirelinkresponse", .enquireLinkResp),
   ("genericnack", .genericNack),
   ("alertnotification", .alertNotification),
   ("broadcastsm", .broadcastSm),
   ("broadcastsmresp", .broadcastSmResp),
   ("broadcastsmresponse", .broadcastSmResp),
   ("querybroadcastsm", .queryBroadcastSm),
   ("querybroadcastsmresp", .queryBroadcastSmResp),
   ("querybroadcastsmresponse", .queryBroadcastSmResp),
   ("cancelbroadcastsm", .cancelBroadcastSm),
   ("cancelbroadcastsmresp", .cancelBroadcastSmResp),
   ("cancelbroadcastsmresponse", .cancelBroadcastSmResp)]

def hexDigit (c : Char) : Option Nat :=
  if '0' ≤ c ∧ c ≤ '9' then some (c.toNat - 48)
  else if 'a' ≤ c ∧ c ≤ 'f' then some (c.toNat - 87)
  else if 'A' ≤ c ∧ c ≤ 'F' then some (c.toNat - 55)
  else none

def hexDigits (value : Nat) : List Char → Option Nat
  | [] => some value
  | c :: cs => (hexDigit c).bind fun digit => hexDigits (value * 16 + digit) cs

/-- `u32::from_str_radix(_, 16)`: a leading plus sign is allowed, an overflow is an error. -/
def fromStrRadix16 (text : List Char) : Option UInt32 :=
  let digits := match text with
    | '+' :: digits => digits
    | digits => digits
  if digits = [] then none
  else (hexDigits 0 digits).bind fun value =>
    if value < 2 ^ 32 then some (UInt32.ofNat value) else none

def fromStr (name : String) : Option CommandId :=
  let name := name.toList.filter fun c => c ≠ '-' ∧ c ≠ '_'
  let named := names.lookup (String.ofList (name.map Char.toLower))
  match name with
  | '0' :: 'x' :: digits =>
      match fromStrRadix16 digits with
      | some value => fromU32 value
      | none => named
  | _ => named

def toStr : CommandId → String
  | .bindReceiver => "BindReceiver"
  | .bindReceiverResp => "BindReceiverResp"
  | .bindTransmitter => "BindTransmitter"
  | .bindTransmitterResp => "BindTransmitterResp"
  | .bindTransceiver => "BindTransceiver"
  | .bindTransceiverResp => "BindTransceiverResp"
  | .unbind => "Unbind"
  | .unbindResp => "UnbindResp"
  | .outbind => "Outbind"
  | .submitSm => "SubmitSm"
  | .submitSmResp => "SubmitSmResp"
  | .submitMulti => "SubmitMulti"
  | .submitMultiResp => "SubmitMultiResp"
  | .deliverSm => "DeliverSm"
  | .deliverSmResp => "DeliverSmResp"
  | .dataSm => "DataSm"
  | .dataSmResp => "DataSmResp"
  | .querySm => "QuerySm"
  | .querySmResp => "QuerySmResp"
  | .cancelSm => "CancelSm"
  | .cancelSmResp => "CancelSmResp"
  | .replaceSm => "ReplaceSm"
  | .replaceSmResp => "ReplaceSmResp"
  | .enquireLink => "EnquireLink"
  | .enquireLinkResp => "EnquireLinkResp"
  | .genericNack => "GenericNack"
  | .alertNotification => "AlertNotification"
  | .broadcastSm => "BroadcastSm"
  | .broadcastSmResp => "BroadcastSmResp"
  | .queryBroadcastSm => "QueryBroadcastSm"
  | .queryBroadcastSmResp => "QueryBroadcastSmResp"
  | .cancelBroadcastSm => "CancelBroadcastSm"
  | .cancelBroadcastSmResp => "CancelBroadcastSmResp"
  | .unknown => "Unknown"

def isResponse (commandId : CommandId) : Bool := commandId.asU32 &&& 0x80000000 ≠ 0

def isRequest (commandId : CommandId) : Bool := !commandId.isResponse

theorem asU32_of_fromU32 {value : UInt32} {commandId : CommandId}
    (h : fromU32 value = some commandId) : commandId.asU32 = value := by
  have htable : ∀ arm ∈ numbers, arm.2.asU32 = arm.1 := by decide
  rw [fromU32, List.lookup_eq_some_iff] at h
  obtain ⟨before, after, hsplit, -⟩ := h
  exact htable (value, commandId) (by rw [hsplit]; simp)

theorem fromU32_asU32 {commandId : CommandId} (h : commandId ≠ .unknown) :
    fromU32 commandId.asU32 = some commandId := by
  revert h
  cases commandId <;> decide

end CommandId

end SmppHerald.CommandIds
