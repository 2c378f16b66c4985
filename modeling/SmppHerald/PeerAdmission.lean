import SmppHerald.Io
import SmppHerald.Json
import SmppHerald.Library.Interaction
import SmppHerald.Library.TransitionSystem
import SmppHerald.Library.Utf8

namespace SmppHerald.PeerAdmission

open SmppHerald.Interaction
open SmppHerald.Io
open SmppHerald.Json
open SmppHerald.TransitionSystem

section Backends

/-- The queries of a whitelist, to its table and to its service. -/
inductive Query
  | count
  | select (ip : String)
  | get (url : String)

/-- `json` is the body, if it is JSON. -/
inductive GetReply
  | failed (message : String)
  | response (status : Nat) (json : Option Value)

abbrev QueryReply : Query → Type
  | .count => Except String Int
  | .select _ => Except String Bool
  | .get _ => GetReply

abbrev Querying := Prog Query QueryReply

/-- The whitelists are those of the implementations of the trait `IpWhitelist`. -/
inductive IpWhitelist
  | empty
  | memory (ips : List String)
  | database
  | http (baseUrl : String)

/-- `HttpIpWhitelist::new` -/
def IpWhitelist.httpNew (baseUrl : String) : IpWhitelist :=
  .http (String.ofList (baseUrl.toList.reverse.dropWhile (· = '/')).reverse)

example : IpWhitelist.httpNew "http://auth//" = .http "http://auth" :=
  congrArg IpWhitelist.http (by decide)

def isUnreserved (b : UInt8) : Bool :=
  (48 ≤ b && b ≤ 57) || (65 ≤ b && b ≤ 90) || (97 ≤ b && b ≤ 122) || b == 45 || b == 46 || b == 95 ||
    b == 126

def encodeByte (b : UInt8) : List Char :=
  if isUnreserved b = true then [Char.ofNat b.toNat]
  else ['%', (b.toNat / 16).digitChar.toUpper, (b.toNat % 16).digitChar.toUpper]

/-- `urlencoding::encode` -/
def urlEncode (text : String) : String := String.ofList ((Utf8.bytes text).flatMap encodeByte)

def verifyUrl (baseUrl ip : String) : String := baseUrl ++ "/verify?ip=" ++ urlEncode ip

def isSuccess (status : Nat) : Bool := 200 ≤ status && status < 300

/-- Errors of the database are known by their texts. -/
def rowOf {α : Type} (row : Except String α) : Except IoError α := row.mapError otherError

def countIps : Querying (Except IoError Int) := do return rowOf (← Prog.perform .count)

def isEmpty : IpWhitelist → Querying (Except IoError Bool)
  | .empty => return .ok true
  | .memory ips => return .ok ips.isEmpty
  | .database => do return (← countIps).map (· == 0)
  | .http _ => return .ok false

def allowedIn (json : Value) : Bool := ((json.get "allowed").bind Value.asBool).getD false

/-- A status that is no success is logged unless it is 403 or 404. -/
def verified : GetReply → Except IoError Bool
  | .response status json =>
      if isSuccess status = true then .ok ((json.map allowedIn).getD false) else .ok false
  | .failed message => .error ⟨.connectionRefused, message⟩

def isAllowedByTable (ip : String) : Except IoError Int → Querying (Except IoError Bool)
  | .error e => return .error e
  | .ok count =>
      if count = 0 then return .ok true
      else do return rowOf (← Prog.perform (.select ip))

def isAllowed (ip : String) : IpWhitelist → Querying (Except IoError Bool)
  | .empty => return .ok true
  | .memory ips => return .ok (if ips.isEmpty = true then true else ips.any (· == ip))
  | .database => do isAllowedByTable ip (← countIps)
  | .http baseUrl => do return verified (← Prog.perform (.get (verifyUrl baseUrl ip)))

example : verifyUrl "http://auth" "::1" = "http://auth/verify?ip=%3A%3A1" := by decide +kernel

end Backends

section Loop

/-- Whether `accept_loop` keeps the connection of a peer. -/
def admits (whitelist : IpWhitelist) (peerIp : String) : Querying Bool := do
  let empty ← isEmpty whitelist
  if empty.toOption.getD true = true then return true
  else
    let allowed ← isAllowed peerIp whitelist
    -- the socket is dropped for an error as for `Ok(false)`
    return allowed.toOption.getD false

/-- A connection whose check is over; it is handed to a `SmscServerConnection` or dropped. -/
structure Decision where
  peerIp : String
  log : List (Event QueryReply)
  handed : Bool

inductive AcceptMode
  | accepting
  | checking (peerIp : String) (log : List (Event QueryReply)) (rest : Querying Bool)
  | failed (error : IoError)

structure AcceptState where
  mode : AcceptMode
  decisions : List Decision

inductive AcceptEvent
  | accepted (peerIp : String)
  | acceptFailed (error : IoError)
  | replied (oracle : (c : Query) → QueryReply c)
  | decided

def AcceptState.step (whitelist : IpWhitelist) (s : AcceptState) : AcceptEvent → Option AcceptState
  | .accepted peerIp =>
      match s.mode with
      | .accepting => some { s with mode := .checking peerIp [] (admits whitelist peerIp) }
      | _ => none
  | .acceptFailed error =>
      match s.mode with
      | .accepting => some { s with mode := .failed error }
      | _ => none
  | .replied oracle =>
      match s.mode with
      | .checking peerIp log (.act c next) =>
          some { s with mode := .checking peerIp (log ++ [⟨c, oracle c⟩]) (next (oracle c)) }
      | _ => none
  | .decided =>
      match s.mode with
      | .checking peerIp log (.ret handed) =>
          some ⟨.accepting, s.decisions ++ [⟨peerIp, log, handed⟩]⟩
      | _ => none

def acceptLoop (whitelist : IpWhitelist) : System AcceptState AcceptEvent where
  initial := ⟨.accepting, []⟩
  step := AcceptState.step whitelist

end Loop

section Purpose

/-- The whitelist was read as empty, or the IP was confirmed as allowed. -/
def Confirmed (ip : String) (log : List (Event QueryReply)) : IpWhitelist → Prop
  | .empty => True
  | .memory ips => ips = [] ∨ ip ∈ ips
  | .database => ⟨.count, .ok 0⟩ ∈ log ∨ ⟨.select ip, .ok true⟩ ∈ log
  | .http baseUrl => ∃ status json, ⟨.get (verifyUrl baseUrl ip), .response status (some json)⟩ ∈ log ∧
      isSuccess status = true ∧ json.get "allowed" = some (.bool true)

def OnlyConfirmed (whitelist : IpWhitelist) (s : AcceptState) : Prop :=
  ∀ decision ∈ s.decisions, decision.handed = true →
    Confirmed decision.peerIp decision.log whitelist

/-- The first query fails, by which the table would be known to be empty or not. -/
def Decision.uncounted (decision : Decision) : Prop :=
  ∃ error rest, decision.log = ⟨.count, .error error⟩ :: rest

end Purpose

section Admission

variable {whitelist : IpWhitelist} {ip : String} {log : List (Event QueryReply)} {handed : Bool}

theorem allowedIn_iff (json : Value) :
    allowedIn json = true ↔ json.get "allowed" = some (.bool true) := by
  rw [allowedIn]
  cases json.get "allowed" with
  | none => simp
  | some value => cases value <;> simp [Value.asBool]

theorem verified_iff (reply : GetReply) : (verified reply).toOption.getD false = true ↔
    ∃ status json, reply = .response status (some json) ∧ isSuccess status = true ∧
      json.get "allowed" = some (.bool true) := by
  cases reply with
  | failed message => simp [verified, Except.toOption]
  | response status json =>
      rw [verified]
      split
      · rename_i hsuccess
        cases json with
        | none => simp [Except.toOption]
        | some json => simp [Except.toOption, hsuccess, allowedIn_iff]
      · rename_i hother
        simp [Except.toOption, hother]

theorem confirmed_of_isAllowedByTable {row : Except String Int}
    (h : Run (do return (← isAllowedByTable ip (rowOf row)).toOption.getD false) log (some true)) :
    row = .ok 0 ∨ ⟨.select ip, .ok true⟩ ∈ log := by
  cases row with
  | error error => cases ((run_ret_iff _ _ _).mp h).2
  | ok count =>
      change Run (Prog.bind (ite (count = 0) _ _) _) log _ at h
      split at h
      · rename_i hzero
        exact .inl (congrArg _ hzero)
      · obtain ⟨found, rest, rfl, hrest⟩ := (run_act_iff _ _ _ _).mp h
        obtain ⟨-, hvalue⟩ := (run_ret_iff _ _ _).mp hrest
        cases found with
        | error error => cases hvalue
        | ok found =>
            obtain rfl : true = found := Option.some.inj hvalue
            exact .inr List.mem_cons_self

theorem confirmed_of_counted {count : Int} {rest : List (Event QueryReply)}
    (h : Run (admits .database ip) (⟨.count, .ok count⟩ :: rest) (some true)) :
    Confirmed ip (⟨.count, .ok count⟩ :: rest) .database := by
  obtain ⟨row, rest', hlog, hrest⟩ := (run_act_iff _ _ _ _).mp h
  obtain ⟨rfl, rfl⟩ : Except.ok count = row ∧ rest = rest' := by simpa using hlog
  change Run (ite ((count == 0) = true) _ _) rest _ at hrest
  split at hrest
  · rename_i hzero
    obtain rfl := eq_of_beq hzero
    exact .inl List.mem_cons_self
  · obtain ⟨row, more, rfl, hmore⟩ := (run_act_iff _ _ _ _).mp hrest
    rcases confirmed_of_isAllowedByTable hmore with rfl | hselected
    · exact .inl (by simp)
    · exact .inr (by simp [hselected])

theorem not_confirmed_of_uncounted {error : String} {rest : List (Event QueryReply)}
    (h : Run (admits .database ip) (⟨.count, .error error⟩ :: rest) (some handed)) :
    handed = true ∧ ¬ Confirmed ip (⟨.count, .error error⟩ :: rest) .database := by
  obtain ⟨row, rest', hlog, hrest⟩ := (run_act_iff _ _ _ _).mp h
  obtain ⟨rfl, rfl⟩ : Except.error error = row ∧ rest = rest' := by simpa using hlog
  obtain ⟨rfl, hvalue⟩ := (run_ret_iff _ _ _).mp hrest
  refine ⟨Option.some.inj hvalue, ?_⟩
  simp [Confirmed]

theorem confirmed_iff (h : Run (admits whitelist ip) log (some handed)) :
    (handed = true → Confirmed ip log whitelist) ↔
      ¬ ∃ error rest, log = ⟨.count, .error error⟩ :: rest := by
  cases whitelist with
  | empty =>
      obtain ⟨rfl, -⟩ := (run_ret_iff _ _ _).mp h
      exact iff_of_true (fun _ => trivial) (by simp)
  | memory ips =>
      change Run (ite (ips.isEmpty = true) _ _) log _ at h
      split at h
      · rename_i hempty
        obtain ⟨rfl, -⟩ := (run_ret_iff _ _ _).mp h
        exact iff_of_true (fun _ => .inl (List.isEmpty_iff.mp hempty)) (by simp)
      · rename_i hfilled
        obtain ⟨rfl, hvalue⟩ := (run_ret_iff _ _ _).mp h
        refine iff_of_true (fun hhanded => .inr ?_) (by simp)
        simpa [hhanded, hfilled, Except.toOption] using hvalue
  | database =>
      obtain ⟨row, rest, rfl, -⟩ := (run_act_iff _ _ _ _).mp h
      cases row with
      | error error =>
          obtain ⟨hhanded, hnot⟩ := not_confirmed_of_uncounted h
          exact iff_of_false (fun hall => hnot (hall hhanded)) (not_not_intro ⟨error, rest, rfl⟩)
      | ok count =>
          refine iff_of_true ?_ (by simp)
          rintro rfl
          exact confirmed_of_counted h
  | http baseUrl =>
      obtain ⟨reply, rest, rfl, hrest⟩ := (run_act_iff _ _ _ _).mp h
      obtain ⟨rfl, hvalue⟩ := (run_ret_iff _ _ _).mp hrest
      refine iff_of_true ?_ (by simp)
      rintro rfl
      obtain ⟨status, json, rfl, hsuccess, hallowed⟩ :=
        (verified_iff reply).mp (Option.some.inj hvalue).symm
      exact ⟨status, json, List.mem_cons_self, hsuccess, hallowed⟩

/-- What is decided came from a whole check, and what is being checked from a part of one. -/
structure Sound (whitelist : IpWhitelist) (s : AcceptState) : Prop where
  decided : ∀ decision ∈ s.decisions,
    Run (admits whitelist decision.peerIp) decision.log (some decision.handed)
  checking : ∀ peerIp log rest, s.mode = .checking peerIp log rest →
    Resumes (admits whitelist peerIp) log rest

theorem Sound.step {s s' : AcceptState} {e : AcceptEvent} (h : Sound whitelist s)
    (hstep : s.step whitelist e = some s') : Sound whitelist s' := by
  obtain ⟨mode, decisions⟩ := s
  obtain ⟨hdecided, hchecking⟩ := h
  cases e with
  | accepted peerIp =>
      cases mode <;> try cases hstep
      refine ⟨hdecided, ?_⟩
      rintro _ _ _ ⟨⟩
      exact .refl _
  | acceptFailed error =>
      cases mode <;> try cases hstep
      exact ⟨hdecided, by simp⟩
  | replied oracle =>
      cases mode <;> try cases hstep
      rename_i peerIp log rest
      cases rest <;> try cases hstep
      rename_i c next
      refine ⟨hdecided, ?_⟩
      rintro _ _ _ ⟨⟩
      exact (hchecking _ _ _ rfl).act (oracle c)
  | decided =>
      cases mode <;> try cases hstep
      rename_i peerIp log rest
      cases rest <;> try cases hstep
      rename_i handed
      refine ⟨fun decision hmem => ?_, by simp⟩
      rcases List.mem_append.mp hmem with hold | hnew
      · exact hdecided decision hold
      · obtain rfl := List.mem_singleton.mp hnew
        exact (hchecking _ _ _ rfl).run

theorem sound_of_reachable {s : AcceptState} (h : (acceptLoop whitelist).Reachable s) :
    Sound whitelist s := by
  apply h.invariant
  · exact ⟨by simp [acceptLoop], by simp [acceptLoop]⟩
  · exact fun _ _ _ hsound _ hstep => hsound.step hstep

/-- Only connections of confirmed peers are handed over, exactly when the first query of no
connection was a count that failed. -/
theorem onlyConfirmed_iff {s : AcceptState} (h : (acceptLoop whitelist).Reachable s) :
    OnlyConfirmed whitelist s ↔ ∀ decision ∈ s.decisions, ¬ decision.uncounted :=
  forall₂_congr fun decision hmem => confirmed_iff ((sound_of_reachable h).decided decision hmem)

def listed : (c : Query) → QueryReply c
  | .count => .ok 1
  | .select _ => .ok true
  | .get _ => .failed "error sending request"

def refused : (c : Query) → QueryReply c
  | .count => .error "pool timed out"
  | .select _ => .error "pool timed out"
  | .get _ => .failed "error sending request"

/-- The first peer is in the table, and for the second one it cannot be counted again. -/
def listedState : AcceptState :=
  ⟨.accepting,
    [⟨"10.0.0.1", [⟨.count, .ok 1⟩, ⟨.count, .ok 1⟩, ⟨.select "10.0.0.1", .ok true⟩], true⟩,
      ⟨"10.0.0.2", [⟨.count, .ok 1⟩, ⟨.count, .error "pool timed out"⟩], false⟩]⟩

theorem onlyConfirmed_listed : OnlyConfirmed .database listedState := by
  have hrun : (acceptLoop .database).run [.accepted "10.0.0.1", .replied listed, .replied listed,
      .replied listed, .decided, .accepted "10.0.0.2", .replied listed, .replied refused,
      .decided] = some listedState := rfl
  rw [onlyConfirmed_iff (System.reachable_of_run hrun)]
  simp [listedState, Decision.uncounted]

/-- The table cannot be counted, and the peer comes in. -/
theorem not_onlyConfirmed : ¬ ∀ whitelist s, (acceptLoop whitelist).Reachable s →
    OnlyConfirmed whitelist s := by
  intro h
  have hrun : (acceptLoop .database).run [.accepted "10.0.0.1", .replied refused, .decided] =
      some ⟨.accepting, [⟨"10.0.0.1", [⟨.count, .error "pool timed out"⟩], true⟩]⟩ := rfl
  have hconfirmed := h _ _ (System.reachable_of_run hrun) _ List.mem_cons_self rfl
  simp [Confirmed] at hconfirmed

end Admission

end SmppHerald.PeerAdmission
