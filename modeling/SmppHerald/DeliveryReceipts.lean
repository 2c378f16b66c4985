import Mathlib.Logic.Function.Basic
import SmppHerald.ServerMessage
import SmppHerald.Time

namespace SmppHerald.DeliveryReceipts

open SmppHerald.ServerMessage
open SmppHerald.Time

section EsmClass

inductive MessageType
  | default | deliveryReceipt | intermediateDeliveryNotification
deriving DecidableEq, Repr

def MessageType.fromU8 (value : UInt8) : MessageType :=
  match (value &&& 0b00100100).toNat with
  | 0b00000100 => .deliveryReceipt
  | 0b00100000 => .intermediateDeliveryNotification
  | _ => .default

inductive Ansi41Specific
  | deliveryAcknowledgement | userAcknowledgement | conversationAbort | unknown
deriving DecidableEq, Repr

def Ansi41Specific.fromU8 (value : UInt8) : Ansi41Specific :=
  match (value &&& 0b00011000).toNat with
  | 0b00001000 => .deliveryAcknowledgement
  | 0b00010000 => .userAcknowledgement
  | 0b00011000 => .conversationAbort
  | _ => .unknown

def Ansi41Specific.isDeliveryAck : Ansi41Specific → Bool
  | .deliveryAcknowledgement => true
  | .userAcknowledgement => true
  | _ => false

inductive GSMSpecific
  | noSpecific | udhIndicator | replyPath | udhAndReplyPath
deriving DecidableEq, Repr

def GSMSpecific.fromU8 (value : UInt8) : GSMSpecific :=
  match (value &&& 0b11000000).toNat with
  | 0b01000000 => .udhIndicator
  | 0b10000000 => .replyPath
  | 0b11000000 => .udhAndReplyPath
  | _ => .noSpecific

structure EsmClass where
  messageMode : MessageMode := .default
  messageType : MessageType := .default
  ansi41Specific : Ansi41Specific := .unknown
  gsmSpecific : GSMSpecific := .noSpecific
deriving DecidableEq, Repr

namespace EsmClass

def fromU8 (value : UInt8) : Option EsmClass :=
  some
    { messageMode := MessageMode.fromU8 value
      messageType := MessageType.fromU8 value
      ansi41Specific := Ansi41Specific.fromU8 value
      gsmSpecific := GSMSpecific.fromU8 value }

def mergeFrom (self other : EsmClass) : EsmClass where
  messageMode := if other.messageMode ≠ .default then other.messageMode else self.messageMode
  messageType := if other.messageType ≠ .default then other.messageType else self.messageType
  gsmSpecific := if other.gsmSpecific ≠ .noSpecific then other.gsmSpecific else self.gsmSpecific
  ansi41Specific :=
    if other.ansi41Specific ≠ .unknown then other.ansi41Specific else self.ansi41Specific

end EsmClass

end EsmClass

section RegisteredDelivery

inductive DeliveryReceipt
  | noRequested | requestedWhenDeliverySucessOrFailure | requestedWhenDeliveryFailure
  | requestedWhenDeliverySuccess
deriving DecidableEq, Repr

def DeliveryReceipt.isDeliveryReceiptRequested : DeliveryReceipt → Bool
  | .noRequested => false
  | _ => true

inductive SMEOriginatedAcknowledgement
  | noRequested | deliveryAckRequested | manualAckRequest | deliveryAckAndManualAckRequested
deriving DecidableEq, Repr

def SMEOriginatedAcknowledgement.isSmeAckRequested : SMEOriginatedAcknowledgement → Bool
  | .noRequested => false
  | _ => true

inductive IntermediateNotification
  | noRequested | requested
deriving DecidableEq, Repr

structure RegisteredDelivery where
  deliveryReceipt : DeliveryReceipt := .noRequested
  smeAcked : SMEOriginatedAcknowledgement := .noRequested
  intermediateNotification : IntermediateNotification := .noRequested
deriving DecidableEq, Repr

end RegisteredDelivery

section Manager

/-- Where the receipts of a message go, which were asked for, and until when. -/
structure Receipt where
  receiptUrl : String
  registeredDelivery : RegisteredDelivery
  esmClass : EsmClass
  expireTime : Instant

structure DeliveryReceiptManager where
  receiptUrls : String → Option Receipt
  nextCleanTime : Instant

namespace DeliveryReceiptManager

def new (now : Instant) : DeliveryReceiptManager where
  receiptUrls _ := none
  nextCleanTime := now + seconds 300

def isAllReceiptRequested (registeredDelivery : RegisteredDelivery) (esmClass : EsmClass) : Bool :=
  if registeredDelivery.deliveryReceipt.isDeliveryReceiptRequested = true ∧
      esmClass.messageType ≠ .deliveryReceipt then false
  else if registeredDelivery.intermediateNotification = .requested ∧
      esmClass.messageType ≠ .intermediateDeliveryNotification then false
  else if registeredDelivery.smeAcked.isSmeAckRequested = true ∧
      esmClass.ansi41Specific.isDeliveryAck = false then false
  else true

def cleanExpiredEntries (manager : DeliveryReceiptManager) (now : Instant) :
    DeliveryReceiptManager :=
  if now < manager.nextCleanTime then manager
  else
    { receiptUrls := fun messageId =>
        (manager.receiptUrls messageId).filter fun receipt => decide (now < receipt.expireTime)
      nextCleanTime := now + seconds 300 }

def registerReceiptUrl (manager : DeliveryReceiptManager) (now : Instant)
    (messageId receiptUrl : String) (registeredDelivery : RegisteredDelivery) :
    DeliveryReceiptManager :=
  if registeredDelivery.deliveryReceipt = .noRequested ∧
      registeredDelivery.intermediateNotification = .noRequested ∧
        registeredDelivery.smeAcked = .noRequested then manager
  else
    let cleaned := manager.cleanExpiredEntries now
    { cleaned with
      receiptUrls := Function.update cleaned.receiptUrls messageId
        (some ⟨receiptUrl, registeredDelivery, {}, now + seconds 3600⟩) }

/-- The URL of a message whose entry has not expired. The entry goes once the PDU at hand has all
that was asked for. -/
def getReceiptUrl (manager : DeliveryReceiptManager) (now : Instant) (messageId : String)
    (esmClass : EsmClass) : Option String × DeliveryReceiptManager :=
  match manager.receiptUrls messageId with
  | none => (none, manager)
  | some receipt =>
      let url := if now < receipt.expireTime then some receipt.receiptUrl else none
      let merged := { receipt with esmClass := receipt.esmClass.mergeFrom esmClass }
      let kept :=
        if isAllReceiptRequested receipt.registeredDelivery esmClass = true then none
        else some merged
      (url, { manager with receiptUrls := Function.update manager.receiptUrls messageId kept })

/-- The message has an entry that has not expired. -/
def Knows (manager : DeliveryReceiptManager) (now : Instant) (messageId : String) : Prop :=
  ∃ receipt, manager.receiptUrls messageId = some receipt ∧ now < receipt.expireTime

theorem getReceiptUrl_isSome_iff (manager : DeliveryReceiptManager) (now : Instant)
    (messageId : String) (esmClass : EsmClass) :
    (manager.getReceiptUrl now messageId esmClass).1.isSome = true ↔
      manager.Knows now messageId := by
  unfold getReceiptUrl Knows
  cases manager.receiptUrls messageId with
  | none => simp
  | some receipt =>
      by_cases hexpired : now < receipt.expireTime
      · simp [hexpired]
      · simp [hexpired]

theorem getReceiptUrl_of_ne (manager : DeliveryReceiptManager) (now : Instant)
    {messageId other : String} (hne : other ≠ messageId) (esmClass : EsmClass) :
    (manager.getReceiptUrl now messageId esmClass).2.receiptUrls other =
      manager.receiptUrls other := by
  unfold getReceiptUrl
  cases manager.receiptUrls messageId with
  | none => rfl
  | some receipt => exact Function.update_of_ne hne _ _

end DeliveryReceiptManager

end Manager

end SmppHerald.DeliveryReceipts
