import SmppHerald.Io
import SmppHerald.LoadBalancing
import SmppHerald.ServerMessage

namespace SmppHerald.MessageHandlers

open SmppHerald.Failover
open SmppHerald.Interaction
open SmppHerald.Io
open SmppHerald.Json
open SmppHerald.LoadBalancing
open SmppHerald.ServerMessage

section Handlers

structure RequestHandlerConfig where
  destAddresses : Option (List String)
  destAddressPatterns : Option (List String)
  urls : List String
  algorithm : Option String

structure Post where
  url : String
  decodedMessage : Value

/-- `json` is the body if it is JSON; it is read of a success only. -/
inductive PostReply
  | failed
  | response (success : Bool) (json : Option Value)

def PostReply.result : PostReply → Option Value
  | .failed => none
  | .response success json => if success = true then json else none

abbrev Posting := Prog Post fun _ => PostReply

/-- A pattern that is compiled is kept as the addresses that it matches. -/
structure HttpMessageHandler where
  destAddresses : List String
  destAddressPatterns : List (String → Bool)
  urls : List String
  nextIndex : UInt64
  algorithm : LoadBalancingAlgorithm

namespace HttpMessageHandler

/-- `compile` is `Regex::new`, which some patterns fail. -/
def new (compile : String → Option (String → Bool)) (destAddresses destAddressPatterns : List String)
    (urls : List String) (algorithm : LoadBalancingAlgorithm) : HttpMessageHandler where
  destAddresses := destAddresses
  destAddressPatterns := destAddressPatterns.filterMap compile
  urls := urls
  nextIndex := 0
  algorithm := algorithm

def createFrom (compile : String → Option (String → Bool)) (config : RequestHandlerConfig) :
    HttpMessageHandler :=
  new compile (config.destAddresses.getD []) (config.destAddressPatterns.getD []) config.urls
    ((config.algorithm.map LoadBalancingAlgorithm.fromString).getD .roundRobin)

variable (self : HttpMessageHandler)

def matchAnyPattern (destAddress : String) : Bool :=
  self.destAddressPatterns.any fun pattern => pattern destAddress

def matchAnyAddress (destAddress : String) : Bool := self.destAddresses.contains destAddress

def isMyRequestAddress (address : String) : Bool :=
  if self.destAddresses.isEmpty ∧ self.destAddressPatterns.isEmpty then true
  else self.matchAnyAddress address || self.matchAnyPattern address

def start : Nat × HttpMessageHandler :=
  match self.algorithm with
  | .roundRobin =>
      (self.nextIndex.toNat % self.urls.length, { self with nextIndex := self.nextIndex + 1 })
  | .failOver => (0, self)

def resultOf (json : Option Value) : Except IoError Value :=
  match json with
  | some json => .ok json
  | none => .error (otherError "All handler URLs failed")

def postTo (urls : Option (List String)) (decodedMessage : Value) : Posting (Except IoError Value) :=
  match urls with
  | none => .panic
  | some urls => do
      let json ← tryEach (Post.mk · decodedMessage) PostReply.result urls
      return resultOf json

def handleMessage (decodedMessage : Value) :
    Posting (Except IoError Value) × HttpMessageHandler :=
  if self.urls.isEmpty then (return .error (otherError "No handler URLs configured"), self)
  else (postTo (goRound self.urls self.start.1) decodedMessage, self.start.2)

end HttpMessageHandler

structure CompositeMessageHandler where
  handlers : List HttpMessageHandler

def handleFirst (destinationAddress : String) (decodedMessage : Value) :
    List HttpMessageHandler → Posting (Except IoError Value) × List HttpMessageHandler
  | [] => (return .error (otherError "No suitable handler found"), [])
  | handler :: handlers =>
      if handler.isMyRequestAddress destinationAddress = true then
        ((handler.handleMessage decodedMessage).1,
          (handler.handleMessage decodedMessage).2 :: handlers)
      else
        ((handleFirst destinationAddress decodedMessage handlers).1,
          handler :: (handleFirst destinationAddress decodedMessage handlers).2)

namespace CompositeMessageHandler

variable (self : CompositeMessageHandler)

def isMyRequestAddress (address : String) : Bool :=
  self.handlers.any fun handler => handler.isMyRequestAddress address

def handleMessage (decodedMessage : Value) :
    Posting (Except IoError Value) × CompositeMessageHandler :=
  ((handleFirst (decodedMessage.strField "destination_addr") decodedMessage self.handlers).1,
    ⟨(handleFirst (decodedMessage.strField "destination_addr") decodedMessage self.handlers).2⟩)

end CompositeMessageHandler

def createRequestHandler (compile : String → Option (String → Bool))
    (configs : List RequestHandlerConfig) : CompositeMessageHandler :=
  ⟨configs.map (HttpMessageHandler.createFrom compile)⟩

end Handlers

section Filters

variable (compile : String → Option (String → Bool)) (config : RequestHandlerConfig)

namespace RequestHandlerConfig

def addresses : List String := config.destAddresses.getD []

def patterns : List String := config.destAddressPatterns.getD []

/-- It lists an address or a pattern, be this valid or not. -/
def Filters : Prop := config.addresses ≠ [] ∨ config.patterns ≠ []

/-- The address is listed, or a valid pattern matches it. -/
def Admits (address : String) : Prop :=
  address ∈ config.addresses ∨
    ∃ pattern ∈ config.patterns, ∃ regex, compile pattern = some regex ∧ regex address = true

/-- What the handler of a configuration should claim. -/
def Claims (address : String) : Prop := config.Filters → config.Admits compile address

/-- Its only filters are patterns of which none is valid. -/
def AllInvalid : Prop :=
  config.addresses = [] ∧ config.patterns ≠ [] ∧ ∀ pattern ∈ config.patterns, compile pattern = none

end RequestHandlerConfig

/-- The handler of a configuration after any number of messages. -/
def MadeFrom (handler : HttpMessageHandler) : Prop :=
  ∃ nextIndex, handler = { HttpMessageHandler.createFrom compile config with nextIndex := nextIndex }

/-- The program is that of the handler of the first configuration that should claim the address. -/
def RoutesFirst (configs : List RequestHandlerConfig) (handlers : List HttpMessageHandler)
    (address : String) (message : Value) (program : Posting (Except IoError Value)) : Prop :=
  (∃ (i : Nat) (config : RequestHandlerConfig) (handler : HttpMessageHandler),
      configs[i]? = some config ∧ handlers[i]? = some handler ∧ config.Claims compile address ∧
        (∀ j < i, ∀ other : RequestHandlerConfig, configs[j]? = some other →
          ¬ other.Claims compile address) ∧
          program = (handler.handleMessage message).1) ∨
    (∀ config ∈ configs, ¬ config.Claims compile address) ∧
      program = .ret (.error (otherError "No suitable handler found"))

/-- The handlers of configurations claim an address rightly and get the messages to it. -/
structure Filtered (configs : List RequestHandlerConfig) (address : String) : Prop where
  claims : ∀ config ∈ configs, config.Filters →
    (HttpMessageHandler.createFrom compile config).isMyRequestAddress address = true →
      config.Admits compile address
  narrow : ∀ config ∈ configs, ∀ pattern ∈ config.patterns, compile pattern = none →
    (HttpMessageHandler.createFrom compile config).isMyRequestAddress address = true →
      address ∈ config.addresses ∨ ∃ other ∈ config.patterns, other ≠ pattern ∧
        ∃ regex, compile other = some regex ∧ regex address = true
  routes : ∀ self : CompositeMessageHandler,
    List.Forall₂ (MadeFrom compile) configs self.handlers →
      ∀ message : Value, message.strField "destination_addr" = address →
        RoutesFirst compile configs self.handlers address message (self.handleMessage message).1

end Filters

section Claiming

variable {compile : String → Option (String → Bool)} {config : RequestHandlerConfig}
  {configs : List RequestHandlerConfig} {handler : HttpMessageHandler} {address : String}

theorem filterMap_eq_nil_iff : config.patterns.filterMap compile = [] ↔
    ∀ pattern ∈ config.patterns, compile pattern = none :=
  List.filterMap_eq_nil_iff

theorem matchAnyPattern_iff (h : MadeFrom compile config handler) :
    handler.matchAnyPattern address = true ↔
      ∃ pattern ∈ config.patterns, ∃ regex, compile pattern = some regex ∧ regex address = true := by
  obtain ⟨nextIndex, rfl⟩ := h
  show (config.patterns.filterMap compile).any (fun pattern => pattern address) = true ↔ _
  rw [List.any_eq_true]
  constructor
  · rintro ⟨regex, hregex, hmatch⟩
    obtain ⟨pattern, hpattern, hcompile⟩ := List.mem_filterMap.mp hregex
    exact ⟨pattern, hpattern, regex, hcompile, hmatch⟩
  · rintro ⟨pattern, hpattern, regex, hcompile, hmatch⟩
    exact ⟨regex, List.mem_filterMap.mpr ⟨pattern, hpattern, hcompile⟩, hmatch⟩

/-- Patterns that are all invalid leave no filter, as if there were none. -/
theorem isMyRequestAddress_iff (h : MadeFrom compile config handler) :
    handler.isMyRequestAddress address = true ↔
      config.Claims compile address ∨ config.AllInvalid compile := by
  have hpattern := @matchAnyPattern_iff _ _ _ address h
  obtain ⟨nextIndex, rfl⟩ := h
  have haddress : ({ HttpMessageHandler.createFrom compile config with
      nextIndex := nextIndex } : HttpMessageHandler).matchAnyAddress address = true ↔
        address ∈ config.addresses := List.contains_iff_mem
  rw [HttpMessageHandler.isMyRequestAddress]
  split
  · rename_i hempty
    have haddresses : config.addresses = [] := List.isEmpty_iff.mp hempty.1
    have hinvalid : config.patterns.filterMap compile = [] := List.isEmpty_iff.mp hempty.2
    refine iff_of_true rfl ?_
    by_cases hnone : config.patterns = []
    · exact .inl fun hfilters => absurd hfilters (not_or_intro (not_not_intro haddresses)
        (not_not_intro hnone))
    · exact .inr ⟨haddresses, hnone, filterMap_eq_nil_iff.mp hinvalid⟩
  · rename_i hfilters
    rw [Bool.or_eq_true, haddress, hpattern]
    constructor
    · exact fun hadmits => .inl fun _ => hadmits
    · rintro (hclaims | ⟨haddresses, -, hinvalid⟩)
      · refine hclaims ?_
        by_contra hnone
        rw [RequestHandlerConfig.Filters, not_or, not_not, not_not] at hnone
        refine hfilters ⟨List.isEmpty_iff.mpr hnone.1, List.isEmpty_iff.mpr ?_⟩
        show config.patterns.filterMap compile = []
        rw [hnone.2]
        rfl
      · exact absurd ⟨List.isEmpty_iff.mpr haddresses,
          List.isEmpty_iff.mpr (filterMap_eq_nil_iff.mpr hinvalid)⟩ hfilters

theorem not_claims_of_allInvalid (h : config.AllInvalid compile) :
    config.Filters ∧ ¬ config.Admits compile address := by
  obtain ⟨haddresses, hpatterns, hinvalid⟩ := h
  refine ⟨.inr hpatterns, ?_⟩
  rintro (hlisted | ⟨pattern, hpattern, regex, hcompile, -⟩)
  · rw [haddresses] at hlisted
    cases hlisted
  · rw [hinvalid pattern hpattern] at hcompile
    cases hcompile

theorem madeFrom_createFrom (compile : String → Option (String → Bool))
    (config : RequestHandlerConfig) :
    MadeFrom compile config (HttpMessageHandler.createFrom compile config) := ⟨0, rfl⟩

theorem routesFirst_handleFirst {handlers : List HttpMessageHandler} (message : Value)
    (hmade : List.Forall₂ (MadeFrom compile) configs handlers)
    (hvalid : ∀ config ∈ configs, ¬ config.AllInvalid compile) :
    RoutesFirst compile configs handlers address message (handleFirst address message handlers).1 := by
  induction hmade with
  | nil => exact .inr ⟨by simp, rfl⟩
  | cons hhead htail ih =>
      rename_i config handler configs handlers
      rw [List.forall_mem_cons] at hvalid
      have hclaims := @isMyRequestAddress_iff _ _ _ address hhead
      rw [or_iff_left hvalid.1] at hclaims
      rw [handleFirst]
      split
      · rename_i hmine
        exact .inl ⟨0, config, handler, rfl, rfl, hclaims.mp hmine, by simp, rfl⟩
      · rename_i hother
        rw [hclaims] at hother
        rcases ih hvalid.2 with ⟨i, found, handler', hconfig, hhandler, hfound, hbefore, hprogram⟩ |
          ⟨hnone, hprogram⟩
        · refine .inl ⟨i + 1, found, handler', hconfig, hhandler, hfound, ?_, hprogram⟩
          intro j hj other hget
          cases j with
          | zero =>
              obtain rfl := Option.some.inj hget
              exact hother
          | succ j => exact hbefore j (Nat.lt_of_succ_lt_succ hj) other hget
        · exact .inr ⟨List.forall_mem_cons.mpr ⟨hother, hnone⟩, hprogram⟩

theorem claims_createFrom (hvalid : ¬ config.AllInvalid compile) (hfilters : config.Filters)
    (hmine : (HttpMessageHandler.createFrom compile config).isMyRequestAddress address = true) :
    config.Admits compile address :=
  ((isMyRequestAddress_iff (madeFrom_createFrom compile config)).mp hmine).resolve_right hvalid
    hfilters

/-- The handlers claim an address rightly and get the messages to it, exactly when none of the
configurations has patterns for its only filters and all of them invalid. -/
theorem filtered_iff (compile : String → Option (String → Bool)) (configs : List RequestHandlerConfig)
    (address : String) :
    Filtered compile configs address ↔ ∀ config ∈ configs, ¬ config.AllInvalid compile := by
  constructor
  · intro h config hconfig hinvalid
    obtain ⟨hfilters, hnot⟩ := @not_claims_of_allInvalid _ _ address hinvalid
    refine hnot (h.claims config hconfig hfilters ?_)
    exact (isMyRequestAddress_iff (madeFrom_createFrom compile config)).mpr (.inr hinvalid)
  · intro hvalid
    refine ⟨fun config hconfig => claims_createFrom (hvalid config hconfig), ?_, ?_⟩
    · intro config hconfig pattern hpattern hnone hmine
      have hfilters : config.Filters := .inr (List.ne_nil_of_mem hpattern)
      rcases claims_createFrom (hvalid config hconfig) hfilters hmine with
        hlisted | ⟨other, hother, regex, hcompile, hmatch⟩
      · exact .inl hlisted
      · refine .inr ⟨other, hother, ?_, regex, hcompile, hmatch⟩
        rintro rfl
        rw [hnone] at hcompile
        cases hcompile
    · rintro self hmade message rfl
      exact routesFirst_handleFirst message hmade hvalid

/-- The one pattern does not compile, and the handler claims every address. -/
theorem not_filtered : ¬ ∀ (compile : String → Option (String → Bool))
    (configs : List RequestHandlerConfig) (address : String), Filtered compile configs address := by
  intro h
  let invalid : RequestHandlerConfig := ⟨none, some ["[invalid"], ["http://localhost:8080"], none⟩
  have hfiltered := h (fun _ => none) [invalid] "27811234567"
  rw [filtered_iff] at hfiltered
  exact hfiltered invalid (List.mem_singleton_self _) ⟨rfl, by decide, fun _ _ => rfl⟩

end Claiming

section Messages

variable {compile : String → Option (String → Bool)} {config : RequestHandlerConfig}
  {configs : List RequestHandlerConfig} {handler : HttpMessageHandler}

theorem madeFrom_start (h : MadeFrom compile config handler) :
    MadeFrom compile config handler.start.2 := by
  obtain ⟨nextIndex, rfl⟩ := h
  rw [HttpMessageHandler.start]
  split
  · exact ⟨nextIndex + 1, rfl⟩
  · exact ⟨nextIndex, rfl⟩

theorem madeFrom_handleMessage (h : MadeFrom compile config handler) (message : Value) :
    MadeFrom compile config (handler.handleMessage message).2 := by
  rw [HttpMessageHandler.handleMessage]
  split
  · exact h
  · exact madeFrom_start h

theorem madeFrom_handleFirst {handlers : List HttpMessageHandler} (address : String)
    (message : Value) (hmade : List.Forall₂ (MadeFrom compile) configs handlers) :
    List.Forall₂ (MadeFrom compile) configs (handleFirst address message handlers).2 := by
  induction hmade with
  | nil => exact .nil
  | cons hhead htail ih =>
      rw [handleFirst]
      split
      · exact .cons (madeFrom_handleMessage hhead message) htail
      · exact .cons hhead ih

theorem madeFrom_foldl (compile : String → Option (String → Bool))
    (configs : List RequestHandlerConfig) (messages : List Value) :
    List.Forall₂ (MadeFrom compile) configs
      (messages.foldl (fun self message => (self.handleMessage message).2)
        (createRequestHandler compile configs)).handlers := by
  induction messages using List.reverseRecOn with
  | nil =>
      rw [List.foldl_nil, createRequestHandler, List.forall₂_map_right_iff, List.forall₂_same]
      exact fun config _ => madeFrom_createFrom compile config
  | append_singleton messages message ih =>
      rw [List.foldl_append]
      exact madeFrom_handleFirst _ message ih

theorem handleMessage_tries {message : Value} (hurls : handler.urls ≠ [])
    {log : List (Event fun _ : Post => PostReply)} {result : Option (Except IoError Value)}
    (h : Run (handler.handleMessage message).1 log result) :
    ∃ json, result = some (HttpMessageHandler.resultOf json) ∧
      Tried (Post.mk · message) PostReply.result
        (candidateOrder handler.algorithm handler.nextIndex.toNat handler.urls) log json := by
  have hstart : goRound handler.urls handler.start.1 =
      some (candidateOrder handler.algorithm handler.nextIndex.toNat handler.urls) := by
    rw [goRound_eq, HttpMessageHandler.start]
    cases handler.algorithm with
    | roundRobin => exact congrArg some (List.rotate_mod _ _)
    | failOver => exact congrArg some (List.rotate_zero _)
  rw [HttpMessageHandler.handleMessage, if_neg (by simpa using hurls), hstart] at h
  exact tried_of_run_bind (fun _ => rfl) h

end Messages

end SmppHerald.MessageHandlers
