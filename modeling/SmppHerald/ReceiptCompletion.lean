import SmppHerald.DeliveryReceipts

namespace SmppHerald.ReceiptCompletion

open SmppHerald.DeliveryReceipts
open SmppHerald.Time

section Kinds

/-- What a sender may ask for. -/
inductive ReceiptKind
  | deliveryReceipt | intermediateNotification | smeAcknowledgement
deriving DecidableEq, Repr

def requests (registeredDelivery : RegisteredDelivery) : ReceiptKind → Bool
  | .deliveryReceipt => registeredDelivery.deliveryReceipt.isDeliveryReceiptRequested
  | .intermediateNotification => registeredDelivery.intermediateNotification == .requested
  | .smeAcknowledgement => registeredDelivery.smeAcked.isSmeAckRequested

def brings (esmClass : EsmClass) : ReceiptKind → Bool
  | .deliveryReceipt => esmClass.messageType == .deliveryReceipt
  | .intermediateNotification => esmClass.messageType == .intermediateDeliveryNotification
  | .smeAcknowledgement => esmClass.ansi41Specific.isDeliveryAck

/-- One PDU brings everything that was asked for. -/
def BringsAll (registeredDelivery : RegisteredDelivery) (esmClass : EsmClass) : Prop :=
  ∀ kind, requests registeredDelivery kind = true → brings esmClass kind = true

/-- The manager looks at the PDU at hand alone. -/
theorem isAllReceiptRequested_iff (registeredDelivery : RegisteredDelivery) (esmClass : EsmClass) :
    DeliveryReceiptManager.isAllReceiptRequested registeredDelivery esmClass = true ↔
      BringsAll registeredDelivery esmClass := by
  unfold DeliveryReceiptManager.isAllReceiptRequested
  constructor
  · intro h kind hkind
    split_ifs at h with hreceipt hnotification hacknowledgement
    cases kind with
    | deliveryReceipt =>
        by_contra hnot
        exact hreceipt ⟨hkind, by simpa [brings] using hnot⟩
    | intermediateNotification =>
        by_contra hnot
        exact hnotification ⟨by simpa [requests] using hkind, by simpa [brings] using hnot⟩
    | smeAcknowledgement =>
        by_contra hnot
        exact hacknowledgement ⟨hkind, by simpa [brings] using hnot⟩
  · intro h
    have hreceipt := h .deliveryReceipt
    have hnotification := h .intermediateNotification
    have hacknowledgement := h .smeAcknowledgement
    simp only [requests, brings, beq_iff_eq] at hreceipt hnotification hacknowledgement
    rw [if_neg, if_neg, if_neg]
    · rintro ⟨hrequested, hnot⟩
      simp [hacknowledgement hrequested] at hnot
    · rintro ⟨hrequested, hnot⟩
      exact hnot (hnotification hrequested)
    · rintro ⟨hrequested, hnot⟩
      exact hnot (hreceipt hrequested)

end Kinds

section Calls

/-- A call of `get_receipt_url` for one message. -/
structure ReceiptCall where
  now : Instant
  esmClass : EsmClass

/-- The results of calls one after another, and the manager after them. -/
def getReceiptUrls (messageId : String) (manager : DeliveryReceiptManager) :
    List ReceiptCall → List (Option String) × DeliveryReceiptManager
  | [] => ([], manager)
  | call :: calls =>
      let (url, manager) := manager.getReceiptUrl call.now messageId call.esmClass
      let (urls, manager) := getReceiptUrls messageId manager calls
      (url :: urls, manager)

/-- Everything that was asked for has come with one of the calls. -/
def Complete (registeredDelivery : RegisteredDelivery) (calls : List ReceiptCall) : Prop :=
  ∀ kind, requests registeredDelivery kind = true → ∃ call ∈ calls, brings call.esmClass kind = true

/-- Each call has the URL until everything that was asked for has come with the calls before it, and
what is known about other messages stays. -/
structure UrlUntilComplete (messageId receiptUrl : String) (registeredDelivery : RegisteredDelivery)
    (manager : DeliveryReceiptManager) (calls : List ReceiptCall) : Prop where
  returned : ∀ i, i < calls.length → ¬ Complete registeredDelivery (calls.take i) →
    (getReceiptUrls messageId manager calls).1[i]? = some (some receiptUrl)
  ended : ∀ i, i < calls.length → Complete registeredDelivery (calls.take i) →
    (getReceiptUrls messageId manager calls).1[i]? = some none
  others : ∀ other, other ≠ messageId →
    (getReceiptUrls messageId manager calls).2.receiptUrls other = manager.receiptUrls other

/-- Whenever everything has come with the calls before another one, one of them brought it all. -/
def Undivided (registeredDelivery : RegisteredDelivery) (calls : List ReceiptCall) : Prop :=
  ∀ i, i < calls.length → Complete registeredDelivery (calls.take i) →
    ∃ call ∈ calls.take i, BringsAll registeredDelivery call.esmClass

variable {messageId receiptUrl : String} {registeredDelivery : RegisteredDelivery}
  {manager : DeliveryReceiptManager} {calls : List ReceiptCall}

theorem complete_of_bringsAll {call : ReceiptCall} (hcall : call ∈ calls)
    (h : BringsAll registeredDelivery call.esmClass) : Complete registeredDelivery calls :=
  fun kind hkind => ⟨call, hcall, h kind hkind⟩

theorem getReceiptUrls_others {other : String} (hne : other ≠ messageId) :
    (getReceiptUrls messageId manager calls).2.receiptUrls other = manager.receiptUrls other := by
  induction calls generalizing manager with
  | nil => rfl
  | cons call calls ih =>
      rw [getReceiptUrls]
      exact ih.trans (manager.getReceiptUrl_of_ne call.now hne call.esmClass)

theorem getReceiptUrls_of_none (hnone : manager.receiptUrls messageId = none) :
    (getReceiptUrls messageId manager calls).1 = calls.map fun _ => none := by
  induction calls generalizing manager with
  | nil => rfl
  | cons call calls ih =>
      have hcall : manager.getReceiptUrl call.now messageId call.esmClass = (none, manager) := by
        unfold DeliveryReceiptManager.getReceiptUrl
        rw [hnone]
      rw [getReceiptUrls, hcall]
      simp only
      rw [ih hnone]
      rfl

open Classical in
theorem getReceiptUrls_getElem? {receipt : Receipt}
    (hreceipt : manager.receiptUrls messageId = some receipt)
    (hurl : receipt.receiptUrl = receiptUrl)
    (hdelivery : receipt.registeredDelivery = registeredDelivery)
    (hbefore : ∀ call ∈ calls, call.now < receipt.expireTime) {i : Nat} (hi : i < calls.length) :
    (getReceiptUrls messageId manager calls).1[i]? =
      some (if ∃ call ∈ calls.take i, BringsAll registeredDelivery call.esmClass then none
        else some receiptUrl) := by
  induction calls generalizing manager receipt i with
  | nil => simp at hi
  | cons call calls ih =>
      rw [List.forall_mem_cons] at hbefore
      obtain ⟨hnow, hlater⟩ := hbefore
      have hcall := isAllReceiptRequested_iff registeredDelivery call.esmClass
      cases i with
      | zero => simp [getReceiptUrls, DeliveryReceiptManager.getReceiptUrl, hreceipt, hnow, hurl]
      | succ i =>
          have hi' : i < calls.length := by simpa using hi
          rw [getReceiptUrls, DeliveryReceiptManager.getReceiptUrl, hreceipt]
          simp only [hdelivery, List.getElem?_cons_succ, List.take_succ_cons, List.mem_cons,
            exists_eq_or_imp]
          by_cases hall : BringsAll registeredDelivery call.esmClass
          · rw [if_pos (hcall.mpr hall), if_pos (.inl hall), getReceiptUrls_of_none (by simp)]
            simp [hi']
          · rw [if_neg (fun h => hall (hcall.mp h))]
            simp only [hall, false_or]
            refine ih (Function.update_self _ _ _) ?_ ?_ ?_ hi'
            · exact hurl
            · rfl
            · exact hlater

theorem registerReceiptUrl_receiptUrls {kind : ReceiptKind}
    (hkind : requests registeredDelivery kind = true) (now : Instant) :
    (manager.registerReceiptUrl now messageId receiptUrl registeredDelivery).receiptUrls messageId =
      some ⟨receiptUrl, registeredDelivery, {}, now + seconds 3600⟩ := by
  rw [DeliveryReceiptManager.registerReceiptUrl, if_neg]
  · exact Function.update_self _ _ _
  · rintro ⟨hreceipt, hnotification, hacknowledgement⟩
    cases kind with
    | deliveryReceipt =>
        simp [requests, hreceipt, DeliveryReceipt.isDeliveryReceiptRequested] at hkind
    | intermediateNotification => simp [requests, hnotification] at hkind
    | smeAcknowledgement =>
        simp [requests, hacknowledgement, SMEOriginatedAcknowledgement.isSmeAckRequested] at hkind

end Calls

section Main

/-- The calls before a registration expires have its URL until everything has come exactly when one
PDU brings it all wherever everything has come. -/
theorem getReceiptUrl_until_complete_iff (manager : DeliveryReceiptManager) (now : Instant)
    (registeredDelivery : RegisteredDelivery) (messageId receiptUrl : String)
    (calls : List ReceiptCall) (hrequested : ∃ kind, requests registeredDelivery kind = true)
    (hbefore : ∀ call ∈ calls, call.now < now + seconds 3600) :
    UrlUntilComplete messageId receiptUrl registeredDelivery
        (manager.registerReceiptUrl now messageId receiptUrl registeredDelivery) calls ↔
      Undivided registeredDelivery calls := by
  obtain ⟨kind, hkind⟩ := hrequested
  have hentry := @registerReceiptUrl_receiptUrls messageId receiptUrl registeredDelivery manager
    kind hkind now
  have hurl := fun i hi =>
    @getReceiptUrls_getElem? messageId receiptUrl registeredDelivery _ calls _ hentry rfl rfl
      hbefore i hi
  constructor
  · intro huntil i hi hcomplete
    have hnone := huntil.ended i hi hcomplete
    by_contra hnot
    rw [hurl i hi, if_neg hnot] at hnone
    simp at hnone
  · intro hundivided
    refine ⟨fun i hi hopen => ?_, fun i hi hcomplete => ?_, fun other hne => ?_⟩
    · rw [hurl i hi, if_neg]
      rintro ⟨call, hcall, hall⟩
      exact hopen (complete_of_bringsAll hcall hall)
    · rw [hurl i hi, if_pos (hundivided i hi hcomplete)]
    · exact getReceiptUrls_others hne

/-- A sender that asks for a delivery receipt and an acknowledgement. -/
def bothRequested : RegisteredDelivery where
  deliveryReceipt := .requestedWhenDeliverySucessOrFailure
  smeAcked := .deliveryAckRequested

def receiptCall (messageType : MessageType) (ansi41Specific : Ansi41Specific) : ReceiptCall where
  now := 60000
  esmClass := { messageType, ansi41Specific }

theorem getReceiptUrl_until_complete_one_pdu :
    UrlUntilComplete "7" "http://localhost/receipts" bothRequested
        ((DeliveryReceiptManager.new 0).registerReceiptUrl 0 "7" "http://localhost/receipts"
          bothRequested)
        [receiptCall .deliveryReceipt .deliveryAcknowledgement, receiptCall .default .unknown] := by
  refine (getReceiptUrl_until_complete_iff _ 0 _ _ _ _ ⟨.deliveryReceipt, rfl⟩ ?_).mpr ?_
  · simp [receiptCall, seconds]
  · intro i hi hcomplete
    refine ⟨receiptCall .deliveryReceipt .deliveryAcknowledgement, ?_, fun kind hkind => ?_⟩
    · obtain ⟨call, hcall, _⟩ := hcomplete .deliveryReceipt rfl
      cases i with
      | zero => simp at hcall
      | succ i => simp
    · cases kind with
      | deliveryReceipt => rfl
      | intermediateNotification => cases hkind
      | smeAcknowledgement => rfl

/-- The receipt and the acknowledgement come in PDUs of their own, and the URL is still there. -/
theorem getReceiptUrl_after_complete :
    ¬ ∀ (manager : DeliveryReceiptManager) (now : Instant) (registeredDelivery : RegisteredDelivery)
      (messageId receiptUrl : String) (calls : List ReceiptCall),
      (∃ kind, requests registeredDelivery kind = true) →
        (∀ call ∈ calls, call.now < now + seconds 3600) →
          UrlUntilComplete messageId receiptUrl registeredDelivery
            (manager.registerReceiptUrl now messageId receiptUrl registeredDelivery) calls := by
  intro h
  have huntil := h (DeliveryReceiptManager.new 0) 0 bothRequested "7" "http://localhost/receipts"
    [receiptCall .deliveryReceipt .unknown, receiptCall .default .deliveryAcknowledgement,
      receiptCall .default .unknown]
    ⟨.deliveryReceipt, rfl⟩ (by simp [receiptCall, seconds])
  have hnone := huntil.ended 2 (by decide) (by
    intro kind hkind
    cases kind with
    | deliveryReceipt => exact ⟨receiptCall .deliveryReceipt .unknown, by simp, rfl⟩
    | intermediateNotification => cases hkind
    | smeAcknowledgement => exact ⟨receiptCall .default .deliveryAcknowledgement, by simp, rfl⟩)
  simp [getReceiptUrls, DeliveryReceiptManager.getReceiptUrl,
    DeliveryReceiptManager.registerReceiptUrl, bothRequested, receiptCall, seconds,
    DeliveryReceiptManager.isAllReceiptRequested, DeliveryReceiptManager.cleanExpiredEntries,
    DeliveryReceiptManager.new, DeliveryReceipt.isDeliveryReceiptRequested,
    Ansi41Specific.isDeliveryAck, SMEOriginatedAcknowledgement.isSmeAckRequested] at hnone

end Main

end SmppHerald.ReceiptCompletion
