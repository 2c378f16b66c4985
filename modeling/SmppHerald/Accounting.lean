import SmppHerald.AcceptedPdus
import SmppHerald.Responses

namespace SmppHerald.Accounting

open SmppHerald.AcceptedPdus
open SmppHerald.Buffer
open SmppHerald.ByteParser
open SmppHerald.CommandIds
open SmppHerald.DecodedMessage
open SmppHerald.Delimiting
open SmppHerald.Encodability
open SmppHerald.FieldCodecs
open SmppHerald.HandlerCalls
open SmppHerald.Interaction
open SmppHerald.Io
open SmppHerald.Json
open SmppHerald.Message
open SmppHerald.PduFormat
open SmppHerald.Relay
open SmppHerald.ResponseEncoding
open SmppHerald.Responses
open SmppHerald.ServerConnection
open SmppHerald.ServerMessage
open SmppHerald.Time
open SmppHerald.Utf8
open SmppHerald.WireFormat

/-- The calls that were made, and the replies to them. -/
abbrev Log := List (Event Reply)

section Attempts

def rejectsRequest : Event Reply → Bool
  | ⟨.handleRequest _, .error _⟩ => true
  | _ => false

def refusesDelivery : Event Reply → Bool
  | ⟨.waitResponse _, response⟩ =>
      decide (transactionStatus response ≠ CommandStatus.esmeRok.asU32)
  | _ => false

def stores : Event Reply → Bool
  | ⟨.save _ _, .ok ()⟩ => true
  | _ => false

/-- What was asked for a destination failed. What is sent in datagram mode is handed off. -/
def failed (isLocal : Bool) (messageMode : MessageMode) (log : Log) : Bool :=
  if isLocal = true then log.any rejectsRequest
  else
    match messageMode with
    | .datagram => false
    | .transaction => log.any refusesDelivery
    | .storeAndForward | .default => !log.any stores

variable {server : ServerContext} {commandId sequenceNumber : UInt32} {messageId : String}

theorem run_processLocalDataSubmitMessage {message : Value} {log : Log}
    {result : Except IoError Bytes}
    (hrun : Run (processLocalDataSubmitMessage server commandId sequenceNumber message) log
      (some result)) : ∃ octets, result = .ok octets := by
  unfold processLocalDataSubmitMessage at hrun
  rcases (run_bind_iff _ _ _ _).mp hrun with ⟨-, hnone⟩ | ⟨response, _, log, rfl, -, hrun⟩
  · cases hnone
  · split at hrun
    · rename_i octets _
      obtain ⟨-, hresult⟩ := (run_pure_iff _ _ _).mp hrun
      exact ⟨octets, Option.some.inj hresult⟩
    · cases ((run_panic_iff _ _).mp hrun).2
    · rcases (run_bind_iff _ _ _ _).mp hrun with ⟨-, hnone⟩ | ⟨_, _, log, rfl, -, hrun⟩
      · cases hnone
      · rcases (run_bind_iff _ _ _ _).mp hrun with ⟨-, hnone⟩ | ⟨octets, _, log, rfl, -, hrun⟩
        · cases hnone
        · obtain ⟨-, hresult⟩ := (run_pure_iff _ _ _).mp hrun
          exact ⟨octets, Option.some.inj hresult⟩

/-- Whether the watched events have happened tells whether the result is `Ok`. -/
def Tells (okay : Bool → Bool) (seen : Bool) : Option (Except Value Value) → Prop
  | some (.ok _) => okay seen = true
  | some (.error _) => okay seen = false
  | none => True

theorem watches_perform {watched : Event Reply → Bool} {okay : Bool → Bool} {seen : Bool}
    {c : ServerCall} {next : Reply c → Action (Except Value Value)}
    (h : ∀ reply, Conforms (watching watched) (Tells okay) (seen || watched ⟨c, reply⟩)
      (next reply)) : Conforms (watching watched) (Tells okay) seen (perform c >>= next) :=
  (conforms_perform_bind c next).mpr ⟨trivial, h⟩

theorem watches_sendMessageInTransactionMode (message : Value) :
    Conforms (watching refusesDelivery) (Tells not) false
      (sendMessageInTransactionMode server commandId sequenceNumber messageId message) := by
  refine watches_perform fun n => ?_
  rw [conforms_bind]
  have hforward := @calls_forwardMessageToClient server
    (fun c => ∀ reply, refusesDelivery ⟨c, reply⟩ = false) (fun _ _ _ => rfl)
    (asDeliverSm n message)
  refine (hforward.watching _).mono ?_
  rintro _ (_ | ⟨⟩) rfl
  · trivial
  · refine watches_perform fun response => ?_
    cases response with
    | none => rfl
    | some response =>
        simp only
        split
        · rename_i hstatus
          simp [Tells, refusesDelivery, transactionStatus, hstatus]
        · rename_i hstatus
          simp [Tells, refusesDelivery, transactionStatus, hstatus]

theorem watches_timeOrNone {watched : Event Reply → Bool} {okay : Bool → Bool} {seen : Bool}
    {time : Outcome Instant} {next : Option Instant → Action (Except Value Value)}
    (h : ∀ time, Conforms (watching watched) (Tells okay) seen (next time)) :
    Conforms (watching watched) (Tells okay) seen (timeOrNone time >>= next) := by
  cases time with
  | ok time => exact h (some time)
  | err e => exact h none
  | panicked => trivial

theorem watches_storeAndForwardMessage (message : Value) :
    Conforms (watching stores) (Tells id) false
      (storeAndForwardMessage server commandId sequenceNumber messageId message) := by
  refine watches_perform fun now => watches_timeOrNone fun scheduleDeliveryTime => ?_
  refine watches_perform fun now => ?_
  split
  · rfl
  · refine watches_perform fun now => watches_timeOrNone fun validityPeriod => ?_
    refine watches_perform fun now => ?_
    split
    · rfl
    · split
      · rfl
      · refine watches_perform fun saved => ?_
        rcases saved with ⟨⟨⟩⟩ | e | _
        · rfl
        · rfl
        · trivial

theorem run_sendMessageInDatagramMode {message : Value} {log : Log} {result : Except Value Value}
    (hrun : Run (sendMessageInDatagramMode commandId sequenceNumber messageId message) log
      (some result)) : ∃ response, result = .ok response := by
  obtain ⟨n, _, -, hrun⟩ := (run_perform_bind_iff _ _ _ _).mp hrun
  obtain ⟨_, _, -, hrun⟩ := (run_perform_bind_iff _ _ _ _).mp hrun
  exact ⟨_, Option.some.inj ((run_pure_iff _ _ _).mp hrun).2⟩

theorem run_submitCopyInMode {messageMode : MessageMode} {message : Value} {log : Log}
    {result : Except Value Value}
    (hrun : Run (submitCopyInMode server messageMode commandId sequenceNumber messageId message) log
      (some result)) :
    failed false messageMode log = true ↔ ∃ response, result = .error response := by
  have htells : ∀ {okay : Bool → Bool} {seen : Bool}, Tells okay seen (some result) →
      (okay seen = false ↔ ∃ response, result = .error response) := by
    intro okay seen h
    cases result with
    | ok response => simp [show okay seen = true from h]
    | error response => simp [show okay seen = false from h]
  unfold failed
  rw [if_neg Bool.false_ne_true]
  cases messageMode with
  | datagram =>
      obtain ⟨response, hresponse⟩ := run_sendMessageInDatagramMode hrun
      simp [hresponse]
  | transaction =>
      have h := htells ((watches_sendMessageInTransactionMode message).run hrun)
      rw [← h]
      simp
  | storeAndForward =>
      have h := htells ((watches_storeAndForwardMessage message).run hrun)
      rw [← h]
      simp
  | default =>
      have h := htells ((watches_storeAndForwardMessage message).run hrun)
      rw [← h]
      simp

theorem run_submitToDestination {messageMode : MessageMode} {message : Value} {addr : Address}
    {log : Log} {result : Bool}
    (hrun : Run (submitToDestination server commandId sequenceNumber messageId messageMode message
      addr) log (some result)) :
    result = (!server.isMyRequestAddress addr.address && failed false messageMode log) := by
  obtain ⟨n, rest, rfl, hcopy⟩ := (run_perform_bind_iff _ _ _ _).mp hrun
  have hfront : failed false messageMode (⟨.nextSequenceNumber, n⟩ :: rest) =
      failed false messageMode rest := by
    cases messageMode <;> rfl
  rw [hfront]
  simp only at hcopy
  split at hcopy
  · rename_i hlocal
    rcases (run_bind_iff _ _ _ _).mp hcopy with
      ⟨-, hnone⟩ | ⟨processed, first, second, rfl, hfirst, hsecond⟩
    · cases hnone
    · obtain ⟨octets, rfl⟩ := run_processLocalDataSubmitMessage hfirst
      rw [hlocal, Option.some.inj ((run_pure_iff _ _ _).mp hsecond).2]
      rfl
  · rename_i hlocal
    rw [Bool.not_eq_true] at hlocal
    rcases (run_bind_iff _ _ _ _).mp hcopy with
      ⟨-, hnone⟩ | ⟨submitted, first, second, rfl, hfirst, hsecond⟩
    · cases hnone
    · have hfailed := run_submitCopyInMode hfirst
      rw [hlocal, Bool.not_false, Bool.true_and]
      cases submitted with
      | ok response =>
          obtain ⟨rfl, hresult⟩ := (run_pure_iff _ _ _).mp hsecond
          rw [List.append_nil, Option.some.inj hresult, eq_comm, ← Bool.not_eq_true, hfailed]
          simp
      | error response =>
          obtain ⟨rfl, hresult⟩ := (run_pure_iff _ _ _).mp hsecond
          rw [List.append_nil, Option.some.inj hresult, eq_comm, hfailed]
          exact ⟨response, rfl⟩

variable (server commandId sequenceNumber messageId) in
/-- The calls that were made for a destination, up to its result. -/
def Attempted (messageMode : MessageMode) (message : Value) (attempt : Address × Log) : Prop :=
  ∃ result, Run (submitToDestination server commandId sequenceNumber messageId messageMode message
    attempt.1) attempt.2 (some result)

/-- The loop goes through the destinations one by one, and collects those that are not the server's
own and failed. -/
theorem run_submitToDestinations {messageMode : MessageMode} {message : Value}
    {addresses failedAddresses : List Address} {log : Log}
    (hrun : Run (submitToDestinations server commandId sequenceNumber messageId messageMode message
      addresses) log (some failedAddresses)) :
    ∃ attempts : List (Address × Log), log = (attempts.map Prod.snd).flatten ∧
      attempts.map Prod.fst = addresses ∧
      (∀ attempt ∈ attempts,
        Attempted server commandId sequenceNumber messageId messageMode message attempt) ∧
      failedAddresses = (attempts.filter fun attempt =>
        !server.isMyRequestAddress attempt.1.address &&
          failed false messageMode attempt.2).map Prod.fst := by
  induction addresses generalizing failedAddresses log with
  | nil =>
      obtain ⟨rfl, hresult⟩ := (run_pure_iff _ _ _).mp hrun
      exact ⟨[], rfl, rfl, by simp, Option.some.inj hresult⟩
  | cons addr rest ih =>
      rcases (run_bind_iff _ _ _ _).mp hrun with
        ⟨-, hnone⟩ | ⟨result, first, second, rfl, hfirst, hsecond⟩
      · cases hnone
      rcases (run_bind_iff _ _ _ _).mp hsecond with
        ⟨-, hnone⟩ | ⟨others, middle, last, rfl, hothers, hlast⟩
      · cases hnone
      obtain ⟨rfl, hresult⟩ := (run_pure_iff _ _ _).mp hlast
      obtain ⟨attempts, rfl, rfl, hattempted, rfl⟩ := ih hothers
      have hthis := run_submitToDestination hfirst
      refine ⟨(addr, first) :: attempts, by simp, rfl, ?_, ?_⟩
      · rw [List.forall_mem_cons]
        exact ⟨⟨result, hfirst⟩, hattempted⟩
      · rw [Option.some.inj hresult, List.filter_cons, ← hthis]
        split <;> rfl

end Attempts

section Requests

/-- The address that an entry names. -/
def addressOf (entry : Value) : Option Address :=
  match (entry.get "dest_addr_ton").bind Value.asU64,
      (entry.get "dest_addr_npi").bind Value.asU64,
      (entry.get "destination_addr").bind Value.asStr with
  | some ton, some npi, some address => some ⟨ton.toUInt8, npi.toUInt8, address⟩
  | _, _, _ => none

/-- What is asked for: an address, or a distribution list that the server does not have. -/
inductive Destination
  | address (addr : Address)
  | unknownList (dlName : String)

def Destination.address? : Destination → Option Address
  | .address addr => some addr
  | .unknownList _ => none

def Destination.unknownList? : Destination → Option String
  | .address _ => none
  | .unknownList dlName => some dlName

def destinationsOf (distributionList : DistrubutionList) (entry : Value) : List Destination :=
  match addressOf entry with
  | some addr => [.address addr]
  | none =>
      match (entry.get "dl_name").bind Value.asStr with
      | some dlName =>
          match distributionList.get dlName with
          | some members => members.map .address
          | none => [.unknownList dlName]
      | none => []

/-- The entries of `dest_addresses`, with the members of each list in its place. -/
def requested (message : Value) (distributionList : DistrubutionList) : List Destination :=
  (((message.get "dest_addresses").bind Value.asArray).getD []).flatMap
    (destinationsOf distributionList)

theorem extractDestionationAddresses_eq {message : Value}
    (h : extractCommandId message = some .submitMulti) (distributionList : DistrubutionList) :
    extractDestionationAddresses message distributionList =
      (requested message distributionList).filterMap Destination.address? := by
  have hmembers : ∀ members : List Address,
      (members.map Destination.address).filterMap Destination.address? = members := by
    intro members
    rw [List.filterMap_map]
    exact List.filterMap_some
  rw [extractDestionationAddresses, h]
  simp only
  rw [requested, List.filterMap_flatMap]
  congr 1
  funext entry
  unfold destinationsOf addressOf
  generalize (entry.get "dest_addr_ton").bind Value.asU64 = ton,
    (entry.get "dest_addr_npi").bind Value.asU64 = npi,
    (entry.get "destination_addr").bind Value.asStr = address
  split
  · rfl
  · simp only
    cases (entry.get "dl_name").bind Value.asStr with
    | none => rfl
    | some dlName =>
        simp only
        cases distributionList.get dlName with
        | none => rfl
        | some members => exact (hmembers members).symm

variable {config : ServerConfig} {message replaced : Value}

theorem get_prepared
    (h : replaceSmDefaultMsgIdWithPredefinedMessage config message = .ok replaced) {key : String}
    (hkey : key ∉ ["sm_default_msg_id", "short_message", "service_type"]) :
    (setServiceType config replaced).get key = message.get key := by
  simp only [List.mem_cons, List.not_mem_nil, or_false, not_or] at hkey
  have hreplaced : replaced.get key = message.get key := by
    rcases replaceSmDefaultMsgId_ok h with rfl | rfl | ⟨text, rfl⟩
    · rfl
    · exact Value.get_assignKey_of_ne hkey.1 _ _
    · rw [Value.get_assignKey_of_ne hkey.2.1, Value.get_assignKey_of_ne hkey.1]
  unfold setServiceType
  split
  · rw [Value.get_assignKey_of_ne hkey.2.2, hreplaced]
  · exact hreplaced

theorem requested_prepared
    (h : replaceSmDefaultMsgIdWithPredefinedMessage config message = .ok replaced)
    (distributionList : DistrubutionList) :
    requested (setServiceType config replaced) distributionList =
      requested message distributionList := by
  rw [requested, requested, get_prepared h (by decide)]

theorem extractCommandId_prepared
    (h : replaceSmDefaultMsgIdWithPredefinedMessage config message = .ok replaced) :
    extractCommandId (setServiceType config replaced) = extractCommandId message :=
  extractCommandId_congr (get_prepared h (by decide)) (get_prepared h (by decide))

end Requests

section Entries

/-- The octets of an entry of `unsuccess_smes`. -/
def entryOctets (addr : Address) : Bytes :=
  writeU8 addr.ton ++ (writeU8 addr.npi ++ (writeCOctetStr addr.address ++
    writeU32 CommandStatus.esmeRUnknownErr.asU32))

/-- An entry with these four values. -/
def entryWith (ton npi address code : Value) : Value :=
  .object (insertAll [("dest_addr_ton", ton), ("dest_addr_npi", npi), ("destination_addr", address),
    ("error_status_code", code)] [])

theorem get_entryWith (ton npi address code : Value) :
    (entryWith ton npi address code).get "dest_addr_ton" = some ton ∧
      (entryWith ton npi address code).get "dest_addr_npi" = some npi ∧
      (entryWith ton npi address code).get "destination_addr" = some address ∧
      (entryWith ton npi address code).get "error_status_code" = some code := by
  have hget : ∀ name, (entryWith ton npi address code).get name =
      [("error_status_code", code), ("destination_addr", address), ("dest_addr_npi", npi),
       ("dest_addr_ton", ton)].lookup name := by
    intro name
    rw [entryWith, Value.get, lookup_insertAll, List.lookup_nil, Option.or_none]
    rfl
  exact ⟨hget _, hget _, hget _, hget _⟩

theorem unsuccessSme_eq (addr : Address) : unsuccessSme addr =
    entryWith (.ofNat addr.ton.toNat) (.ofNat addr.npi.toNat) (.string addr.address)
      (.ofNat CommandStatus.esmeRUnknownErr.asU32.toNat) := rfl

theorem addressOf_unsuccessSme (addr : Address) : addressOf (unsuccessSme addr) = some addr := by
  obtain ⟨hton, hnpi, haddress, -⟩ := get_entryWith (.ofNat addr.ton.toNat)
    (.ofNat addr.npi.toNat) (.string addr.address)
    (.ofNat CommandStatus.esmeRUnknownErr.asU32.toNat)
  have hoctet : ∀ n : UInt8, (Value.ofNat n.toNat).asU64.map UInt64.toUInt8 = some n := by
    intro n
    simp [Value.ofNat, Value.asU64, Number.asU64]
  obtain ⟨ton, htonValue, htonOctet⟩ := Option.map_eq_some_iff.mp (hoctet addr.ton)
  obtain ⟨npi, hnpiValue, hnpiOctet⟩ := Option.map_eq_some_iff.mp (hoctet addr.npi)
  rw [unsuccessSme_eq, addressOf, hton, hnpi, haddress, Option.bind_some, Option.bind_some,
    htonValue, hnpiValue]
  simp only [Option.bind_some, Value.asStr, htonOctet, hnpiOctet]

theorem encodeFields_cons_ok {name : String} {codec : FieldCodec}
    {fields : List (String × FieldCodec)} {value fieldValue : Value} {octets : Bytes}
    (hget : value.get name = some fieldValue)
    (h : encodeFields ((name, codec) :: fields) value = .ok octets) :
    ∃ first rest, codec.encode fieldValue = .ok first ∧ encodeFields fields value = .ok rest ∧
      octets = first ++ rest := by
  rw [encodeFields, hget] at h
  obtain ⟨first, hfirst, h⟩ := Outcome.bind_eq_ok_iff.mp h
  obtain ⟨rest, hrest, h⟩ := Outcome.bind_eq_ok_iff.mp h
  exact ⟨first, rest, hfirst, hrest, (Outcome.ok.inj h).symm⟩

/-- An entry is written with as much of its address as there is room for. -/
theorem encode_unsuccessSme {addr : Address} {octets : Bytes}
    (h : unsuccessSmeCodec.encode (unsuccessSme addr) = .ok octets) :
    ∃ text, truncate 21 addr.address = .ok text ∧
      octets = entryOctets { addr with address := text } := by
  obtain ⟨hton, hnpi, haddress, hcode⟩ := get_entryWith (.ofNat addr.ton.toNat)
    (.ofNat addr.npi.toNat) (.string addr.address)
    (.ofNat CommandStatus.esmeRUnknownErr.asU32.toNat)
  rw [unsuccessSme_eq, unsuccessSmeCodec, FieldCodec.encode] at h
  obtain ⟨ton, _, htonOctets, hnpiRest, rfl⟩ := encodeFields_cons_ok hton h
  obtain ⟨npi, _, hnpiOctets, haddressRest, rfl⟩ := encodeFields_cons_ok hnpi hnpiRest
  obtain ⟨address, _, haddressOctets, hcodeRest, rfl⟩ :=
    encodeFields_cons_ok haddress haddressRest
  obtain ⟨code, _, hcodeOctets, hend, rfl⟩ := encodeFields_cons_ok hcode hcodeRest
  obtain rfl := Outcome.ok.inj ((Represents.u8 addr.ton).encode.symm.trans htonOctets)
  obtain rfl := Outcome.ok.inj ((Represents.u8 addr.npi).encode.symm.trans hnpiOctets)
  obtain rfl := Outcome.ok.inj ((Represents.u32 _).encode.symm.trans hcodeOctets)
  rw [encodeFields] at hend
  obtain rfl := Outcome.ok.inj hend
  rw [FieldCodec.encode] at haddressOctets
  obtain ⟨text, htext, haddressOctets⟩ := Outcome.bind_eq_ok_iff.mp haddressOctets
  obtain rfl := Outcome.ok.inj haddressOctets
  refine ⟨text, htext, ?_⟩
  rw [entryOctets, List.append_nil]
  rfl

theorem consumes_entryOctets {addr : Address} (h : (0 : UInt8) ∉ bytes addr.address) :
    Consumes unsuccessSmeCodec.decode (entryOctets addr) (unsuccessSme addr) := by
  have htext : Consumes (FieldCodec.cOctetStr 21).decode (writeCOctetStr addr.address)
      (.string addr.address) := by
    rw [FieldCodec.decode]
    exact ((consumes_readCOctetStr h).mapError _).bind_pure Value.string
  have hparts := (consumes_decodeFields
    [(("dest_addr_ton", .u8), .ofNat addr.ton.toNat, writeU8 addr.ton),
     (("dest_addr_npi", .u8), .ofNat addr.npi.toNat, writeU8 addr.npi),
     (("destination_addr", .cOctetStr 21), .string addr.address, writeCOctetStr addr.address),
     (("error_status_code", .u32), .ofNat CommandStatus.esmeRUnknownErr.asU32.toNat,
      writeU32 CommandStatus.esmeRUnknownErr.asU32)] (by
    simp only [List.forall_mem_cons, List.not_mem_nil, false_implies, implies_true, and_true]
    exact ⟨(Represents.u8 addr.ton).decode rfl, (Represents.u8 addr.npi).decode rfl, htext,
      (Represents.u32 _).decode rfl⟩)).bind_pure fun entries => Value.object (insertAll entries [])
  rw [unsuccessSmeCodec, FieldCodec.decode]
  exact hparts

/-- A text without NUL, or no text. -/
def NulFree (value : Value) : Prop := ∀ s, value = .string s → (0 : UInt8) ∉ bytes s

theorem yields_nulFree : Yields (FieldCodec.cOctetStr 21).decode NulFree := by
  have hread : Yields readCOctetStr fun s => (0 : UInt8) ∉ bytes s :=
    (yields_untilOctet 0).bind fun text hnul =>
      yields_pure (fromUtf8Lossy text) (zero_notMem_fromUtf8Lossy hnul)
  rw [FieldCodec.decode]
  refine (hread.mapError _).bind fun s hs => yields_pure (Value.string s) ?_
  intro _ hsame
  rw [← Value.string.inj hsame]
  exact hs

theorem yields_unsuccessSme :
    Yields unsuccessSmeCodec.decode fun value =>
      ∀ addr, addressOf value = some addr → (0 : UInt8) ∉ bytes addr.address := by
  rw [unsuccessSmeCodec, FieldCodec.decode]
  simp only [decodeFields, Parser.bind_assoc, Parser.pure_bind]
  refine ((yields_true _).mapError _).bind fun ton _ => ((yields_true _).mapError _).bind
    fun npi _ => (yields_nulFree.mapError _).bind fun address haddress =>
      ((yields_true _).mapError _).bind fun code _ => yields_pure _ ?_
  intro addr haddr
  change addressOf (entryWith ton npi address code) = some addr at haddr
  obtain ⟨-, -, hget, -⟩ := get_entryWith ton npi address code
  unfold addressOf at haddr
  split at haddr
  · rename_i htext
    obtain rfl := Option.some.inj haddr
    rw [hget, Option.bind_some] at htext
    cases address with
    | string s =>
        obtain rfl := Option.some.inj htext
        exact haddress s rfl
    | _ => cases htext
  · cases haddr

end Entries

section Response

theorem lowerHex_nulFree (width n : Nat) : ∀ c ∈ lowerHex width n, c ≠ Char.ofNat 0 := by
  have hdigits : ∀ digit < 16,
      Char.ofNat (if digit < 10 then digit + 48 else digit + 87) ≠ Char.ofNat 0 := by decide
  intro c hc
  simp only [lowerHex, List.mem_map] at hc
  obtain ⟨i, -, rfl⟩ := hc
  exact hdigits _ (Nat.mod_lt _ (by decide))

theorem messageId_nulFree (messageId : MessageId) : (0 : UInt8) ∉ bytes messageId.text := by
  have hfront : ∀ c ∈ "msg-".toList, c ≠ Char.ofNat 0 := by simp
  have hdash : ∀ c ∈ ['-'], c ≠ Char.ofNat 0 := by simp
  cases messageId with
  | counter n =>
      unfold MessageId.text generated
      rw [bytes_ofList]
      apply zero_notMem_charBytes
      intro hmem
      exact List.forall_mem_append.mpr ⟨hfront, lowerHex_nulFree _ _⟩ _ hmem rfl
  | uuid high low =>
      have hall : ∀ c ∈ "msg-".toList ++ (lowerHex 8 (high.toNat / 16 ^ 8) ++ ['-'] ++
          lowerHex 4 (high.toNat / 16 ^ 4) ++ ['-'] ++ lowerHex 4 high.toNat ++ ['-'] ++
          lowerHex 4 (low.toNat / 16 ^ 12) ++ ['-'] ++ lowerHex 12 low.toNat),
          c ≠ Char.ofNat 0 := by
        simp only [List.forall_mem_append]
        exact ⟨hfront, ⟨⟨⟨⟨⟨⟨⟨lowerHex_nulFree _ _, hdash⟩, lowerHex_nulFree _ _⟩, hdash⟩,
          lowerHex_nulFree _ _⟩, hdash⟩, lowerHex_nulFree _ _⟩, hdash⟩, lowerHex_nulFree _ _⟩
      unfold MessageId.text generated
      rw [bytes_ofList]
      apply zero_notMem_charBytes
      intro hmem
      exact hall _ hmem rfl

/-- The octets of a response that lists so many entries. -/
def responseOctets (length status sequenceNumber : UInt32) (messageId : MessageId) (count : Nat)
    (entries : Bytes) : SMPPMessage :=
  header length 0x80000021 status sequenceNumber ++ (writeCOctetStr messageId.text ++
    (writeU8 (UInt8.ofNat count) ++ entries))

/-- The address as there is room for it. -/
def Cut (addr written : Address) : Prop :=
  ∃ text, truncate 21 addr.address = .ok text ∧ written = { addr with address := text }

theorem exists_written {failedAddresses : List Address} {octets : Bytes}
    (h : encodeAll unsuccessSmeCodec.encode (failedAddresses.map unsuccessSme) = .ok octets) :
    ∃ written, List.Forall₂ Cut failedAddresses written ∧
      octets = (written.map entryOctets).flatten := by
  induction failedAddresses generalizing octets with
  | nil =>
      obtain rfl := Outcome.ok.inj h
      exact ⟨[], .nil, rfl⟩
  | cons addr rest ih =>
      rw [List.map_cons, encodeAll] at h
      obtain ⟨first, hfirst, h⟩ := Outcome.bind_eq_ok_iff.mp h
      obtain ⟨others, hothers, h⟩ := Outcome.bind_eq_ok_iff.mp h
      obtain rfl := Outcome.ok.inj h
      obtain ⟨text, htext, rfl⟩ := encode_unsuccessSme hfirst
      obtain ⟨written, hwritten, rfl⟩ := ih hothers
      exact ⟨{ addr with address := text } :: written, .cons ⟨text, htext, rfl⟩ hwritten, rfl⟩

theorem encodeAll_nothing {α : Type} {encode : α → Outcome Bytes} {items : List α}
    (h : ∀ item ∈ items, encode item = .ok []) : encodeAll encode items = .ok [] := by
  induction items with
  | nil => rfl
  | cons item items ih =>
      rw [List.forall_mem_cons] at h
      rw [encodeAll, h.1, ih h.2]
      rfl

theorem encodeField_entries {message : Value} {failedAddresses : List Address} {octets : Bytes}
    (hget : message.get "unsuccess_smes" = some (.array (failedAddresses.map unsuccessSme)))
    (h : encodeField message ("unsuccess_smes", none) = .ok octets) :
    failedAddresses.length ≤ 255 ∧ ∃ written, List.Forall₂ Cut failedAddresses written ∧
      octets = writeU8 (UInt8.ofNat failedAddresses.length) ++ (written.map entryOctets).flatten := by
  have hcodec : fieldCodecs "unsuccess_smes" = some (.array unsuccessSmeCodec) := rfl
  simp only [encodeField, hcodec, hget, Option.some_or, Outcome.mapErr_eq_ok_iff,
    FieldCodec.encode, Value.asArray, List.length_map] at h
  split at h
  · cases h
  · rename_i hfew
    obtain ⟨whole, hwhole, h⟩ := Outcome.bind_eq_ok_iff.mp h
    obtain rfl := Outcome.ok.inj h
    obtain ⟨written, hwritten, rfl⟩ := exists_written hwhole
    exact ⟨by omega, written, hwritten, rfl⟩

theorem encodeField_messageId {message : Value} {messageId : MessageId} {octets : Bytes}
    (hget : message.get "message_id" = some (.string messageId.text))
    (h : encodeField message ("message_id", none) = .ok octets) :
    octets = writeCOctetStr messageId.text := by
  have hcodec : fieldCodecs "message_id" = some (.cOctetStr 65) := rfl
  have hencode := (Represents.cOctetStr (messageId_nulFree messageId)
    (length_messageId messageId)).encode
  simp only [encodeField, hcodec, hget, Option.some_or, Outcome.mapErr_eq_ok_iff, hencode] at h
  exact (Outcome.ok.inj h).symm

theorem exists_response {namedTlvFields : NamedTlvFields} {sequenceNumber : UInt32}
    {messageId : MessageId} {failedAddresses : List Address} {pdu : SMPPMessage}
    (h : fromJson namedTlvFields
      (submitMultiResponse sequenceNumber messageId.text failedAddresses) = .ok pdu) :
    ∃ length status written, failedAddresses.length ≤ 255 ∧
      List.Forall₂ Cut failedAddresses written ∧
      pdu = responseOctets length status sequenceNumber messageId failedAddresses.length
        (written.map entryOctets).flatten := by
  have hresponse : messageCommandFields (0x80000000 ||| CommandId.submitMulti.asU32) =
      some [("message_id", none), ("unsuccess_smes", none)] := rfl
  have hkeeps : ∀ status, KeepsHeader status [("message_id", .string messageId.text),
      ("unsuccess_smes", .array (failedAddresses.map unsuccessSme))] := by
    intro status
    simp [KeepsHeader]
  have hget : ∀ {name}, name ∉ headerNames →
      (submitMultiResponse sequenceNumber messageId.text failedAddresses).get name =
        [("unsuccess_smes", .array (failedAddresses.map unsuccessSme)),
          ("message_id", .string messageId.text)].lookup name :=
    fun hname => get_response_field hname
  have hnames : ∀ codec ∈ createTlvFields,
      codec.name ∉ ["message_id", "unsuccess_smes"] := by decide
  have htlvs : encodeAll (encodeTlvField (submitMultiResponse sequenceNumber messageId.text
      failedAddresses)) namedTlvFields.entries = .ok [] := by
    apply encodeAll_nothing
    intro codec hcodec
    have hknown := namedTlvFields.perm.mem_iff.mp hcodec
    have hname := hnames codec hknown
    simp only [List.mem_cons, List.not_mem_nil, or_false, not_or] at hname
    rw [encodeTlvField, hget (tlvName_notMem_headerNames hknown)]
    simp [List.lookup_cons, beq_false_of_ne hname.1, beq_false_of_ne hname.2]
  rw [submitMultiResponse, fromJson_response hresponse (hkeeps _)] at h
  simp only [encodeMessageWithFields, hresponse] at h
  rw [← submitMultiResponse] at h
  obtain ⟨mandatory, hmandatory, h⟩ := Outcome.bind_eq_ok_iff.mp h
  rw [htlvs] at h
  obtain ⟨_, hnothing, h⟩ := Outcome.bind_eq_ok_iff.mp h
  obtain rfl := Outcome.ok.inj hnothing
  rw [encodeAll] at hmandatory
  obtain ⟨first, hfirst, hmandatory⟩ := Outcome.bind_eq_ok_iff.mp hmandatory
  obtain ⟨others, hothers, hmandatory⟩ := Outcome.bind_eq_ok_iff.mp hmandatory
  obtain rfl := Outcome.ok.inj hmandatory
  rw [encodeAll] at hothers
  obtain ⟨second, hsecond, hothers⟩ := Outcome.bind_eq_ok_iff.mp hothers
  obtain rfl := Outcome.ok.inj hothers
  obtain rfl := encodeField_messageId (hget (by decide)) hfirst
  obtain ⟨hfew, written, hwritten, rfl⟩ := encodeField_entries (hget (by decide)) hsecond
  rw [submitMultiResponse, headerWord_of_supplies (supplies_status (hkeeps _)),
    headerWord_of_supplies (supplies_sequenceNumber (hkeeps _))] at h
  have hcommand : 0x80000000 ||| CommandId.submitMulti.asU32 = 0x80000021 := rfl
  have hpdu : updateLength (header 0 0x80000021 (if failedAddresses = [] then .esmeRok
      else CommandStatus.esmeRUnknownErr).asU32 sequenceNumber ++ (writeCOctetStr messageId.text ++
        (writeU8 (UInt8.ofNat failedAddresses.length) ++
          (written.map entryOctets).flatten))) = pdu := by
    rw [← Outcome.ok.inj h, hcommand]
    simp only [header, List.append_assoc, List.append_nil]
  rw [updateLength_header] at hpdu
  exact ⟨_, _, written, hfew, hwritten, hpdu.symm⟩

theorem decodeField_messageId (messageId : MessageId) :
    Consumes (decodeField ("message_id", none)) (writeCOctetStr messageId.text)
      ("message_id", .string messageId.text) := by
  have hread := consumes_readCOctetStr (messageId_nulFree messageId)
  change Consumes ((FieldCodec.cOctetStr 65).decode.mapError _ >>= _) _ _
  rw [FieldCodec.decode]
  exact (((hread.mapError _).bind_pure Value.string).mapError _).bind_pure
    fun value => ("message_id", value)

theorem decodeField_entries {count : Nat} (hcount : count ≤ 255) (entries : Bytes) :
    decodeField ("unsuccess_smes", none) (writeU8 (UInt8.ofNat count) ++ entries) =
      match Parser.times count unsuccessSmeCodec.decode entries with
      | (.ok items, rest) => (.ok ("unsuccess_smes", .array items), rest)
      | (.error _, rest) =>
          (.error (invalidInput "Failed to decode field: unsuccess_smes"), rest) := by
  have hread := consumes_readU8 (UInt8.ofNat count) entries
  have hcodec : fieldCodecs "unsuccess_smes" = some (.array unsuccessSmeCodec) := rfl
  simp only [decodeField, hcodec, FieldCodec.decode, Parser.bind_apply, Parser.mapError, hread,
    toNat_ofNat_length (Nat.lt_succ_of_le hcount)]
  rcases Parser.times count unsuccessSmeCodec.decode entries with ⟨_ | items, rest⟩ <;> rfl

/-- The values of the two fields of a response. -/
def responseValues (messageId : MessageId) (items : List Value) : Map :=
  [("message_id", .string messageId.text), ("unsuccess_smes", .array items)]

theorem decodeMandatory_response_iff {messageId : MessageId} {count : Nat} (hcount : count ≤ 255)
    {entries rest : Bytes} {values : Map} :
    decodeMandatory [("message_id", none), ("unsuccess_smes", none)]
        (writeCOctetStr messageId.text ++ (writeU8 (UInt8.ofNat count) ++ entries)) =
          (.ok values, rest) ↔
      ∃ items, Parser.times count unsuccessSmeCodec.decode entries = (.ok items, rest) ∧
        values = responseValues messageId items := by
  have hfirst := decodeField_messageId messageId (writeU8 (UInt8.ofNat count) ++ entries)
  simp only [decodeMandatory, Parser.bind_apply, hfirst, decodeField_entries hcount]
  rcases Parser.times count unsuccessSmeCodec.decode entries with ⟨_ | items, last⟩
  · simp
  · simp only [Parser.pure_apply, Prod.mk.injEq, Except.ok.injEq]
    constructor
    · rintro ⟨rfl, rfl⟩
      exact ⟨items, ⟨rfl, rfl⟩, rfl⟩
    · rintro ⟨_, ⟨rfl, rfl⟩, rfl⟩
      exact ⟨rfl, rfl⟩

theorem get_listed {commandId commandStatus sequenceNumber : UInt32} {messageId : MessageId}
    {items : List Value} {rest : Bytes} {tlvs : Map} (htlvs : readTlvs rest = .ok tlvs) :
    (Value.object (insertAll (headerEntries commandId commandStatus sequenceNumber ++
      responseValues messageId items ++ tlvs) [])).get "unsuccess_smes" = some (.array items) := by
  have hlater : tlvs.reverse.lookup "unsuccess_smes" = none := by
    rw [List.lookup_eq_none_iff]
    intro entry hentry
    obtain ⟨codec, hcodec, hname, -⟩ := decodeTlvs_ok htlvs entry (List.mem_reverse.mp hentry)
    have hnames : ∀ codec ∈ createTlvFields, codec.name ≠ "unsuccess_smes" := by decide
    rw [bne_iff_ne, ← hname]
    exact (hnames codec hcodec).symm
  change (insertAll _ _).lookup _ = _
  rw [lookup_insertAll, List.reverse_append, List.lookup_append, hlater]
  rfl

section Reading

variable {length status sequenceNumber : UInt32} {messageId : MessageId} {count : Nat}
  {entries : Bytes}

theorem exists_listed (hcount : count ≤ 255) {response : Value}
    (h : toJson (responseOctets length status sequenceNumber messageId count entries) =
      .ok response) :
    ∃ items rest, Parser.times count unsuccessSmeCodec.decode entries = (.ok items, rest) ∧
      response.get "unsuccess_smes" = some (.array items) := by
  rw [responseOctets, toJson_header] at h
  have htable : messageCommandFields 0x80000021 =
      some [("message_id", none), ("unsuccess_smes", none)] := rfl
  simp only [decodeBody, htable] at h
  split at h
  · cases h
  · rename_i values rest hmandatory
    obtain ⟨items, hitems, rfl⟩ := (decodeMandatory_response_iff hcount).mp hmandatory
    cases htlvs : decodeTlvs rest.length rest with
    | error e => simp [htlvs, Except.map] at h
    | ok tlvs =>
        rw [htlvs] at h
        obtain rfl := Except.ok.inj h
        exact ⟨items, rest, hitems, get_listed htlvs⟩

theorem toJson_response (hcount : count ≤ 255) {items : List Value}
    (h : Parser.times count unsuccessSmeCodec.decode entries = (.ok items, [])) :
    ∃ response, toJson (responseOctets length status sequenceNumber messageId count entries) =
        .ok response ∧ response.get "unsuccess_smes" = some (.array items) := by
  have htable : messageCommandFields 0x80000021 =
      some [("message_id", none), ("unsuccess_smes", none)] := rfl
  have hnone : readTlvs [] = .ok [] := readTlvs_noTag (by simp)
  rw [responseOctets, toJson_body length status sequenceNumber htable
    ((decodeMandatory_response_iff hcount).mpr ⟨items, h, rfl⟩), hnone]
  exact ⟨_, rfl, get_listed hnone⟩

end Reading

theorem Cut.bytes_eq {addr written : Address} (h : Cut addr written) :
    bytes written.address = (bytes addr.address).take 21 := by
  obtain ⟨text, htext, rfl⟩ := h
  exact truncate_ok htext

theorem Cut.eq_of_length {addr written : Address} (h : Cut addr written)
    (hlength : (bytes addr.address).length ≤ 21) : written = addr := by
  obtain ⟨text, htext, rfl⟩ := h
  rw [truncate, if_neg (by omega)] at htext
  rw [← Outcome.ok.inj htext]

theorem times_written {written : List Address}
    (h : ∀ addr ∈ written, (0 : UInt8) ∉ bytes addr.address) :
    Parser.times written.length unsuccessSmeCodec.decode (written.map entryOctets).flatten =
      (.ok (written.map unsuccessSme), []) := by
  have hitems := consumes_items (written.map fun addr => (unsuccessSme addr, entryOctets addr)) (by
    intro item hitem
    obtain ⟨addr, haddr, rfl⟩ := List.mem_map.mp hitem
    exact consumes_entryOctets (h addr haddr))
  rw [List.length_map, List.map_map, List.map_map] at hitems
  exact hitems.exact

theorem map_addressOf (addresses : List Address) :
    (addresses.map unsuccessSme).map addressOf = addresses.map some := by
  rw [List.map_map]
  apply List.map_congr_left
  intro addr _
  exact addressOf_unsuccessSme addr

/-- A response that can be read, and the entries it lists. -/
def Lists (pdu : SMPPMessage) (listed : List Value) : Prop :=
  ∃ response, toJson pdu = .ok response ∧
    response.get "unsuccess_smes" = some (.array listed)

/-- The address has no NUL, and there is room for it. -/
def Listable (addr : Address) : Prop :=
  (0 : UInt8) ∉ bytes addr.address ∧ (bytes addr.address).length ≤ 21

section Listed

variable {namedTlvFields : NamedTlvFields} {sequenceNumber : UInt32} {messageId : MessageId}
  {failedAddresses : List Address} {pdu : SMPPMessage}

theorem length_listed (h : fromJson namedTlvFields
      (submitMultiResponse sequenceNumber messageId.text failedAddresses) = .ok pdu)
    {listed : List Value} (hlists : Lists pdu listed) : listed.length = failedAddresses.length := by
  obtain ⟨length, status, written, hfew, -, rfl⟩ := exists_response h
  obtain ⟨response, hresponse, hget⟩ := hlists
  obtain ⟨items, rest, hitems, hgetItems⟩ := exists_listed hfew hresponse
  obtain rfl := Value.array.inj (Option.some.inj (hget.symm.trans hgetItems))
  exact (yields_times (yields_true _) _ hitems).1

theorem lists_of_listable (h : fromJson namedTlvFields
      (submitMultiResponse sequenceNumber messageId.text failedAddresses) = .ok pdu)
    (hlistable : ∀ addr ∈ failedAddresses, Listable addr) :
    ∃ listed, Lists pdu listed ∧ listed.map addressOf = failedAddresses.map some := by
  obtain ⟨length, status, written, hfew, hwritten, rfl⟩ := exists_response h
  obtain rfl : written = failedAddresses := by
    clear h hfew
    induction hwritten with
    | nil => rfl
    | cons hcut _ ih =>
        rw [List.forall_mem_cons] at hlistable
        rw [hcut.eq_of_length hlistable.1.2, ih hlistable.2]
  refine ⟨written.map unsuccessSme, ?_, map_addressOf written⟩
  exact toJson_response hfew (times_written fun addr haddr => (hlistable addr haddr).1)

theorem listable_of_lists (h : fromJson namedTlvFields
      (submitMultiResponse sequenceNumber messageId.text failedAddresses) = .ok pdu)
    {listed : List Value} (hlists : Lists pdu listed)
    (hmem : ∀ addr ∈ failedAddresses, some addr ∈ listed.map addressOf) :
    ∀ addr ∈ failedAddresses, Listable addr := by
  obtain ⟨length, status, written, hfew, hwritten, rfl⟩ := exists_response h
  obtain ⟨response, hresponse, hget⟩ := hlists
  obtain ⟨items, rest, hitems, hgetItems⟩ := exists_listed hfew hresponse
  obtain rfl := Value.array.inj (Option.some.inj (hget.symm.trans hgetItems))
  have hnul : ∀ addr ∈ failedAddresses, (0 : UInt8) ∉ bytes addr.address := by
    intro addr haddr
    obtain ⟨item, hitem, haddress⟩ := List.mem_map.mp (hmem addr haddr)
    exact (yields_times yields_unsuccessSme _ hitems).2 item hitem addr haddress
  -- without NULs the entries are read as they were written, each of them cut to its room
  have hcut : ∀ addr ∈ written, (0 : UInt8) ∉ bytes addr.address ∧
      (bytes addr.address).length ≤ 21 := by
    clear hitems hmem hget hgetItems hresponse h hfew
    induction hwritten with
    | nil => simp
    | @cons addr cut rest others hfirst _ ih =>
        rw [List.forall_mem_cons] at hnul ⊢
        refine ⟨?_, ih hnul.2⟩
        rw [hfirst.bytes_eq]
        exact ⟨fun hmem => hnul.1 (List.mem_of_mem_take hmem), List.length_take_le _ _⟩
  have hread := times_written fun addr haddr => (hcut addr haddr).1
  rw [← hwritten.length_eq, hitems] at hread
  simp only [Prod.mk.injEq, Except.ok.injEq] at hread
  intro addr haddr
  have hlisted := hmem addr haddr
  rw [hread.1, map_addressOf] at hlisted
  obtain ⟨same, hsame, heq⟩ := List.mem_map.mp hlisted
  obtain rfl := Option.some.inj heq
  exact hcut same hsame

end Listed

end Response

section Runs

variable {server : ServerContext} {commandId sequenceNumber : UInt32}

/-- What is written for a response. -/
def Encoded (server : ServerContext) (response : Value) (octets : Bytes) : Prop :=
  fromJson server.namedTlvFields response = .ok octets ∨
    (∃ e, fromJson server.namedTlvFields response = .err e) ∧ octets = []

theorem run_encodeOrEmpty {response : Value} {log : Log} {result : Option Bytes}
    (hrun : Run (encodeOrEmpty server response) log result) :
    log = [] ∧ ∀ octets, result = some octets → Encoded server response octets := by
  unfold encodeOrEmpty at hrun
  split at hrun
  · rename_i pdu hpdu
    obtain ⟨rfl, rfl⟩ := (run_pure_iff _ _ _).mp hrun
    refine ⟨rfl, ?_⟩
    rintro _ hsame
    obtain rfl := Option.some.inj hsame
    exact .inl hpdu
  · rename_i e herror
    obtain ⟨rfl, rfl⟩ := (run_pure_iff _ _ _).mp hrun
    refine ⟨rfl, ?_⟩
    rintro _ hsame
    obtain rfl := Option.some.inj hsame
    exact .inr ⟨⟨e, herror⟩, rfl⟩
  · obtain ⟨rfl, rfl⟩ := (run_panic_iff _ _).mp hrun
    exact ⟨rfl, fun _ hsome => by cases hsome⟩

theorem run_handleSubmitMulti {message : Value} {log : Log} {result : Option (Except IoError Unit)}
    (hrun : Run (handleSubmitMulti server commandId sequenceNumber message) log result)
    {octets : Bytes} {reply : Except IoError Unit} (hwrite : ⟨.write octets, reply⟩ ∈ log) :
    ∃ messageId : MessageId, ∃ replaced failedAddresses first,
      replaceSmDefaultMsgIdWithPredefinedMessage server.config message = .ok replaced ∧
      log = ⟨.generateId, messageId⟩ :: (first ++ [⟨.write octets, reply⟩]) ∧
      Run (submitToDestinations server commandId sequenceNumber messageId.text
        (getMessageMode server.config message) (setServiceType server.config replaced)
        (extractDestionationAddresses (setServiceType server.config replaced)
          server.distributionList)) first (some failedAddresses) ∧
      Encoded server (submitMultiResponse sequenceNumber messageId.text failedAddresses)
        octets := by
  have hsilent : ∀ {first : Log}, (∀ event ∈ first, writtenOctets event.1 = none) →
      ⟨.write octets, reply⟩ ∉ first := by
    intro first hnone hmem
    cases hnone _ hmem
  obtain ⟨messageId, rest, rfl, hrest⟩ := (run_perform_bind_iff _ _ _ _).mp hrun
  rw [List.mem_cons] at hwrite
  rcases hwrite with hsame | hwrite
  · cases (Sigma.mk.inj hsame).1
  simp only at hrest
  split at hrest
  · rw [((run_panic_iff _ _).mp hrest).1] at hwrite
    cases hwrite
  · rw [((run_pure_iff _ _ _).mp hrest).1] at hwrite
    cases hwrite
  · rename_i replaced hreplaced
    have hcalls := @calls_submitToDestinations server _ permitsDelivery_silent commandId
      sequenceNumber messageId.text (getMessageMode server.config message)
      (setServiceType server.config replaced)
      (extractDestionationAddresses (setServiceType server.config replaced)
        server.distributionList)
    rcases (run_bind_iff _ _ _ _).mp hrest with
      ⟨hpanic, -⟩ | ⟨failedAddresses, first, second, rfl, hfirst, hsecond⟩
    · exact absurd hwrite (hsilent (hcalls.run hpanic))
    rcases (run_bind_iff _ _ _ _).mp hsecond with
      ⟨hpanic, -⟩ | ⟨written, nothing, last, rfl, hencode, hlast⟩
    · rw [(run_encodeOrEmpty hpanic).1, List.append_nil] at hwrite
      exact absurd hwrite (hsilent (hcalls.run hfirst))
    obtain ⟨rfl, hencoded⟩ := run_encodeOrEmpty hencode
    obtain ⟨written', rest, rfl, hend⟩ := (run_perform_bind_iff _ _ _ _).mp hlast
    obtain rfl : rest = [] := by
      rcases written' with e | ⟨⟩
      · exact ((run_panic_iff _ _).mp hend).1
      · exact ((run_pure_iff _ _ _).mp hend).1
    rw [List.nil_append, List.mem_append, List.mem_singleton] at hwrite
    have hsame := hwrite.resolve_left (hsilent (hcalls.run hfirst))
    obtain ⟨rfl, hreply⟩ : octets = written ∧ reply ≍ written' := by simpa using hsame
    obtain rfl := eq_of_heq hreply
    exact ⟨messageId, replaced, failedAddresses, first, hreplaced, rfl, hfirst, hencoded _ rfl⟩

variable (server commandId sequenceNumber) in
/-- A run of `handle_submit_multi` that comes to its response: the destinations, the calls that were
made for each, and what was written. -/
structure SubmitMultiRun (message : Value) where
  messageId : MessageId
  replaced : Value
  attempts : List (Address × Log)
  octets : Bytes
  reply : Except IoError Unit
  result : Option (Except IoError Unit)
  prepared : replaceSmDefaultMsgIdWithPredefinedMessage server.config message = .ok replaced
  addresses : attempts.map Prod.fst =
    (requested message server.distributionList).filterMap Destination.address?
  attempted : ∀ attempt ∈ attempts, Attempted server commandId sequenceNumber messageId.text
    (getMessageMode server.config message) (setServiceType server.config replaced) attempt
  run : Run (handleSubmitMulti server commandId sequenceNumber message)
    (⟨.generateId, messageId⟩ ::
      ((attempts.map Prod.snd).flatten ++ [⟨.write octets, reply⟩])) result

variable {message : Value}

/-- Every run in which something is written is one of these. -/
theorem exists_submitMultiRun (hcommand : extractCommandId message = some .submitMulti)
    {log : Log} {result : Option (Except IoError Unit)}
    (hrun : Run (handleSubmitMulti server commandId sequenceNumber message) log result)
    {octets : Bytes} {reply : Except IoError Unit} (hwrite : ⟨.write octets, reply⟩ ∈ log) :
    ∃ run : SubmitMultiRun server commandId sequenceNumber message, run.octets = octets ∧
      log = ⟨.generateId, run.messageId⟩ ::
        ((run.attempts.map Prod.snd).flatten ++ [⟨.write octets, reply⟩]) := by
  obtain ⟨messageId, replaced, failedAddresses, first, hreplaced, rfl, hfirst, -⟩ :=
    run_handleSubmitMulti hrun hwrite
  rw [extractDestionationAddresses_eq ((extractCommandId_prepared hreplaced).trans hcommand),
    requested_prepared hreplaced] at hfirst
  obtain ⟨attempts, rfl, haddresses, hattempted, -⟩ := run_submitToDestinations hfirst
  exact ⟨⟨messageId, replaced, attempts, octets, reply, result, hreplaced, haddresses, hattempted,
    hrun⟩, rfl, rfl⟩

/-- The calls of a run belong to its destinations in one way only. -/
theorem attempts_unique {messageId : String} {messageMode : MessageMode} {decodedMessage : Value}
    {attempts attempts' : List (Address × Log)} {rest rest' : Log}
    (hsame : attempts.map Prod.fst = attempts'.map Prod.fst)
    (h : ∀ attempt ∈ attempts,
      Attempted server commandId sequenceNumber messageId messageMode decodedMessage attempt)
    (h' : ∀ attempt ∈ attempts',
      Attempted server commandId sequenceNumber messageId messageMode decodedMessage attempt)
    (hlog : (attempts.map Prod.snd).flatten ++ rest = (attempts'.map Prod.snd).flatten ++ rest') :
    attempts = attempts' := by
  induction attempts generalizing attempts' with
  | nil => exact (List.map_eq_nil_iff.mp hsame.symm).symm
  | cons attempt attempts ih =>
      cases attempts' with
      | nil => cases hsame
      | cons attempt' attempts' =>
          obtain ⟨addr, log⟩ := attempt
          obtain ⟨addr', log'⟩ := attempt'
          rw [List.forall_mem_cons] at h h'
          rw [List.map_cons, List.map_cons, List.cons.injEq] at hsame
          obtain ⟨rfl, hothers⟩ := hsame
          obtain ⟨⟨result, hrun⟩, hattempted⟩ := h
          obtain ⟨⟨result', hrun'⟩, hattempted'⟩ := h'
          simp only [List.map_cons, List.flatten_cons, List.append_assoc] at hlog
          obtain ⟨rfl, hrest⟩ := hrun.append_inj hrun' hlog
          rw [ih hothers hattempted hattempted' hrest]

namespace SubmitMultiRun

variable (run : SubmitMultiRun server commandId sequenceNumber message)

/-- The destinations that failed. -/
def failing : List Address :=
  (run.attempts.filter fun attempt => failed (server.isMyRequestAddress attempt.1.address)
    (getMessageMode server.config message) attempt.2).map Prod.fst

/-- The lists that the server does not have. -/
def unknownLists (_ : SubmitMultiRun server commandId sequenceNumber message) : List String :=
  (requested message server.distributionList).filterMap Destination.unknownList?

/-- The response lists the destinations that failed, an entry for each list that the server does not
have, and nothing else. -/
def Accounted : Prop :=
  ∃ listed, Lists run.octets listed ∧ ∃ others : List (Option Address),
    others.length = run.unknownLists.length ∧
      (listed.map addressOf).Perm (run.failing.map some ++ others)

/-- Those that the code takes for failed. -/
def collected : List Address :=
  (run.attempts.filter fun attempt => !server.isMyRequestAddress attempt.1.address &&
    failed false (getMessageMode server.config message) attempt.2).map Prod.fst

theorem encoded (hcommand : extractCommandId message = some .submitMulti) :
    Encoded server (submitMultiResponse sequenceNumber run.messageId.text run.collected)
      run.octets := by
  obtain ⟨messageId, replaced, failedAddresses, first, hreplaced, hlog, hfirst, hencoded⟩ :=
    run_handleSubmitMulti run.run (List.mem_cons_of_mem _ (List.mem_append_right _
      List.mem_cons_self))
  rw [List.cons.injEq] at hlog
  obtain ⟨hid, hrest⟩ := hlog
  obtain rfl : run.messageId = messageId := by simpa using hid
  obtain rfl := Outcome.ok.inj (run.prepared.symm.trans hreplaced)
  rw [extractDestionationAddresses_eq ((extractCommandId_prepared hreplaced).trans hcommand),
    requested_prepared hreplaced] at hfirst
  obtain ⟨attempts, rfl, haddresses, hattempted, rfl⟩ := run_submitToDestinations hfirst
  have hsame := attempts_unique (run.addresses.trans haddresses.symm) run.attempted hattempted hrest
  rw [collected, hsame]
  exact hencoded

theorem collected_iff (attempt : Address × Log) :
    (!server.isMyRequestAddress attempt.1.address &&
        failed false (getMessageMode server.config message) attempt.2) = true ↔
      failed (server.isMyRequestAddress attempt.1.address) (getMessageMode server.config message)
        attempt.2 = true ∧ server.isMyRequestAddress attempt.1.address = false := by
  cases server.isMyRequestAddress attempt.1.address <;> simp

end SubmitMultiRun

namespace SubmitMultiRun

variable (run : SubmitMultiRun server commandId sequenceNumber message)

theorem filter_sublist : (run.attempts.filter fun attempt =>
        !server.isMyRequestAddress attempt.1.address &&
          failed false (getMessageMode server.config message) attempt.2).Sublist
      (run.attempts.filter fun attempt => failed (server.isMyRequestAddress attempt.1.address)
        (getMessageMode server.config message) attempt.2) := by
  apply List.monotone_filter_right
  intro attempt hattempt
  exact ((collected_iff attempt).mp hattempt).1

theorem collected_sublist : run.collected.Sublist run.failing :=
  run.filter_sublist.map Prod.fst

theorem collected_eq_iff : run.collected = run.failing ↔
    ∀ attempt ∈ run.attempts, server.isMyRequestAddress attempt.1.address = true →
      failed true (getMessageMode server.config message) attempt.2 = false := by
  constructor
  · intro hsame attempt hattempt hlocal
    have hlength := congrArg List.length hsame
    rw [collected, failing, List.length_map, List.length_map] at hlength
    have hfilter := run.filter_sublist.eq_of_length hlength
    by_contra hfailed
    rw [Bool.not_eq_false] at hfailed
    have hmem : attempt ∈ run.attempts.filter fun attempt =>
        failed (server.isMyRequestAddress attempt.1.address) (getMessageMode server.config message)
          attempt.2 := by
      apply List.mem_filter.mpr
      exact ⟨hattempt, by rw [hlocal, hfailed]⟩
    rw [← hfilter] at hmem
    have hother := ((collected_iff attempt).mp (List.mem_filter.mp hmem).2).2
    rw [hlocal] at hother
    cases hother
  · intro hlocal
    rw [collected, failing]
    congr 1
    apply List.filter_congr
    intro attempt hattempt
    rw [Bool.eq_iff_iff, collected_iff attempt]
    constructor
    · rintro ⟨hfailed, -⟩
      exact hfailed
    · intro hfailed
      refine ⟨hfailed, ?_⟩
      by_contra hown
      rw [Bool.not_eq_false] at hown
      rw [hown, hlocal attempt hattempt hown] at hfailed
      cases hfailed

theorem not_accounted_of_empty (h : run.octets = []) : ¬ run.Accounted := by
  rintro ⟨listed, ⟨response, hresponse, -⟩, -⟩
  have hlong := length_of_toJson hresponse
  rw [h] at hlong
  simp at hlong

theorem collected_of_accounted (hcommand : extractCommandId message = some .submitMulti)
    (haccounted : run.Accounted) : run.unknownLists = [] ∧ run.collected = run.failing := by
  rcases run.encoded hcommand with hpdu | ⟨-, hempty⟩
  · obtain ⟨listed, hlists, others, hothers, hperm⟩ := haccounted
    have hlisted := length_listed hpdu hlists
    have hlength := hperm.length_eq
    rw [List.length_map, List.length_append, List.length_map, hothers] at hlength
    have hsublist := run.collected_sublist
    have hle := hsublist.length_le
    constructor
    · apply List.eq_nil_of_length_eq_zero
      omega
    · apply hsublist.eq_of_length
      omega
  · exact absurd haccounted (run.not_accounted_of_empty hempty)

end SubmitMultiRun

/-- The response accounts for the requested destinations exactly when every distribution list is
known, no destination failed on the server's own path, and those that failed can all be listed. -/
theorem accounted_iff (hcommand : extractCommandId message = some .submitMulti)
    (run : SubmitMultiRun server commandId sequenceNumber message) :
    run.Accounted ↔ run.unknownLists = [] ∧
      (∀ attempt ∈ run.attempts, server.isMyRequestAddress attempt.1.address = true →
        failed true (getMessageMode server.config message) attempt.2 = false) ∧
      run.failing.length ≤ 255 ∧ ∀ addr ∈ run.failing, Listable addr := by
  have hencoded := run.encoded hcommand
  constructor
  · intro haccounted
    obtain ⟨hknown, hsame⟩ := run.collected_of_accounted hcommand haccounted
    rw [hsame] at hencoded
    rcases hencoded with hpdu | ⟨-, hempty⟩
    · obtain ⟨-, -, -, hfew, -, -⟩ := exists_response hpdu
      refine ⟨hknown, run.collected_eq_iff.mp hsame, hfew, ?_⟩
      obtain ⟨listed, hlists, others, -, hperm⟩ := haccounted
      apply listable_of_lists hpdu hlists
      intro addr haddr
      exact hperm.mem_iff.mpr (List.mem_append_left _ (List.mem_map_of_mem haddr))
    · exact absurd haccounted (run.not_accounted_of_empty hempty)
  · rintro ⟨hknown, hlocal, hfew, hlistable⟩
    rw [run.collected_eq_iff.mpr hlocal] at hencoded
    have hencodes : ∃ octets, fromJson server.namedTlvFields
        (submitMultiResponse sequenceNumber run.messageId.text run.failing) = .ok octets :=
      (encodes_submitMulti_iff _ (truncatable_messageId run.messageId) _).mpr
        ⟨hfew, fun addr haddr => .inl (hlistable addr haddr).2⟩
    rcases hencoded with hpdu | ⟨⟨e, herror⟩, -⟩
    · obtain ⟨listed, hlists, hmap⟩ := lists_of_listable hpdu hlistable
      refine ⟨listed, hlists, [], by rw [hknown]; rfl, ?_⟩
      rw [hmap, List.append_nil]
    · obtain ⟨octets, hoctets⟩ := hencodes
      cases hoctets.symm.trans herror

/-- A submit_multi to the address 49 with the text `hi`. -/
def submitMultiPdu : SMPPMessage :=
  header 39 0x21 0 1 ++ [0, 0, 0, 0, 1, 1, 1, 1, 0x34, 0x39, 0, 0, 0, 0, 0, 0, 0, 0, 0, 0, 2,
    0x68, 0x69]

/-- A server that every destination address belongs to. -/
def ownServer : ServerContext := { plainServer with isMyRequestAddress := fun _ => true }

/-- The message handler fails when `fails` is set, and everything else succeeds. -/
def replying (fails : Bool) : (c : ServerCall) → Reply c
  | .authenticate _ _ => true
  | .generateId => .counter 1
  | .nextSequenceNumber => 1
  | .handleRequest _ => if fails = true then .error (otherError "") else .ok (.object [])
  | .save _ _ => .ok ()
  | .cancelMessage _ => .ok true
  | .replaceMessage _ => .ok true
  | .sendMessage _ _ => .ok ()
  | .spawnForward _ => ()
  | .waitResponse _ => none
  | .responseReceived _ _ => ()
  | .addClient _ => ()
  | .startEnquireLinkTask => ()
  | .write _ => .ok ()
  | .shutdown => .ok ()
  | .now => default

theorem exists_replyingRun (fails : Bool) :
    ∃ run : SubmitMultiRun ownServer 0x21 1 (decodedValue submitMultiPdu),
      ∃ log, run.attempts = [(⟨1, 1, "49"⟩, log)] ∧ log.any rejectsRequest = fails := by
  have hcommand : extractCommandId (decodedValue submitMultiPdu) = some .submitMulti := by
    decide +kernel
  have hrequested : (requested (decodedValue submitMultiPdu)
      ownServer.distributionList).filterMap Destination.address? = [⟨1, 1, "49"⟩] := by
    decide +kernel
  have hruns : ∀ fails, ((fun log : List (Event Reply) => (log.any rejectsRequest,
      log.any fun event => (writtenOctets event.1).isSome)) (execute (replying fails)
        (handleSubmitMulti ownServer 0x21 1 (decodedValue submitMultiPdu))).1) = (fails, true) := by
    decide +kernel
  obtain ⟨hreject, hwrites⟩ := Prod.mk.inj (hruns fails)
  obtain ⟨⟨c, reply⟩, hmem, hwritten⟩ := List.any_eq_true.mp hwrites
  have hrun := run_execute (replying fails) (handleSubmitMulti ownServer 0x21 1
    (decodedValue submitMultiPdu))
  cases c with
  | write octets =>
      obtain ⟨run, -, hlog⟩ := exists_submitMultiRun hcommand hrun hmem
      have haddresses := run.addresses
      rw [hrequested] at haddresses
      obtain ⟨⟨addr, log⟩, hattempts, haddr⟩ := List.map_eq_singleton_iff.mp haddresses
      obtain rfl : addr = ⟨1, 1, "49"⟩ := haddr
      refine ⟨run, log, hattempts, ?_⟩
      rw [hlog, hattempts] at hreject
      simpa [rejectsRequest] using hreject
  | _ => cases hwritten

theorem accounted_ownDestination :
    ∃ run : SubmitMultiRun ownServer 0x21 1 (decodedValue submitMultiPdu), run.Accounted := by
  obtain ⟨run, log, hattempts, hrejects⟩ := exists_replyingRun false
  have hfailed : ∀ attempt ∈ run.attempts,
      failed true (getMessageMode ownServer.config (decodedValue submitMultiPdu)) attempt.2 =
        false := by
    rw [hattempts, List.forall_mem_singleton]
    exact hrejects
  have hfailing : run.failing = [] := by
    rw [SubmitMultiRun.failing, List.map_eq_nil_iff, List.filter_eq_nil_iff]
    intro attempt hattempt
    rw [Bool.not_eq_true]
    exact hfailed attempt hattempt
  refine ⟨run, (accounted_iff (by decide +kernel) run).mpr ⟨?_, fun attempt hattempt _ =>
    hfailed attempt hattempt, ?_, ?_⟩⟩
  · rw [SubmitMultiRun.unknownLists]
    decide +kernel
  · rw [hfailing]
    exact Nat.zero_le 255
  · rw [hfailing]
    simp

/-- The message handler failed for the only destination, and the response lists nothing. -/
theorem not_accounted_ownDestination :
    ¬ ∀ (server : ServerContext) (sequenceNumber : UInt32) (pdu : SMPPMessage) (message : Value)
      (run : SubmitMultiRun server 0x21 sequenceNumber message), toJson pdu = .ok message →
        extractCommandId message = some .submitMulti → run.Accounted := by
  intro h
  have hcommand : extractCommandId (decodedValue submitMultiPdu) = some .submitMulti := by
    decide +kernel
  obtain ⟨run, log, hattempts, hrejects⟩ := exists_replyingRun true
  have haccounted := h ownServer 1 submitMultiPdu (decodedValue submitMultiPdu) run
    (toJson_of_isOk (by decide +kernel)) hcommand
  obtain ⟨-, hsame⟩ := run.collected_of_accounted hcommand haccounted
  have hfailed : log.any rejectsRequest = false :=
    run.collected_eq_iff.mp hsame (⟨1, 1, "49"⟩, log)
      (by rw [hattempts]; exact List.mem_singleton_self _) rfl
  rw [hrejects] at hfailed
  cases hfailed

end Runs

end SmppHerald.Accounting
