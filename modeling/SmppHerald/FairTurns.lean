import SmppHerald.ConnectionManager
import SmppHerald.Library.Turns

namespace SmppHerald.FairTurns

open SmppHerald.ByteParser
open SmppHerald.ConnectionManager
open SmppHerald.ConnectionManager.SmscConnectionManager
open SmppHerald.Interaction
open SmppHerald.Io
open SmppHerald.Json
open SmppHerald.LoadBalancing
open SmppHerald.Turns

section Turns

/-- Calls of `send_message` in the order in which they take the counter, with the connection that
each one tries first. -/
inductive FirstTried : SmscConnectionManager → List SmscConnection → Prop
  | nil (manager : SmscConnectionManager) : FirstTried manager []
  | cons {manager : SmscConnectionManager} {message : Bytes}
      {event : Event fun _ : SendMessage => Except IoError (Option Value)}
      {log : List (Event fun _ : SendMessage => Except IoError (Option Value))}
      {result : Option (Except IoError Value)} {firsts : List SmscConnection} :
      Run (manager.sendMessage message).1 (event :: log) result →
        FirstTried (manager.sendMessage message).2 firsts →
          FirstTried manager (event.1.connection :: firsts)

variable {manager : SmscConnectionManager} {connections : List SmscConnection}

theorem sendMessage_next (connections : List SmscConnection) (index : UInt32) (message : Bytes) :
    (SmscConnectionManager.sendMessage ⟨connections, .roundRobin, index⟩ message).2 =
      ⟨connections, .roundRobin, index + 1⟩ := rfl

theorem first_of_run {index : UInt32} {message : Bytes}
    {event : Event fun _ : SendMessage => Except IoError (Option Value)}
    {log : List (Event fun _ : SendMessage => Except IoError (Option Value))}
    {result : Option (Except IoError Value)} (hpool : connections ≠ [])
    (hrun : Run (SmscConnectionManager.sendMessage ⟨connections, .roundRobin, index⟩ message).1
      (event :: log) result) :
    connections[index.toNat % connections.length]? = some event.1.connection := by
  obtain ⟨rest, horder⟩ := (delivers_of_run (.inl hpool) hrun).inOrder
  have hlength : 0 < connections.length := List.length_pos_of_ne_nil hpool
  have hhead := congrArg List.head? horder
  rw [List.map_cons, List.cons_append, List.head?_cons, List.head?_map, candidateOrder,
    List.head?_eq_getElem?, List.getElem?_rotate hlength, Nat.zero_add] at hhead
  obtain ⟨connection, hget, hcall⟩ := Option.map_eq_some_iff.mp hhead.symm
  rw [hget, ← hcall]

theorem count_firsts {firsts : List SmscConnection} (hpool : connections ≠ [])
    (hdistinct : connections.Nodup) {v : Nat} {connection : SmscConnection}
    (hget : connections[v]? = some connection) (h : FirstTried manager firsts) : ∀ index : UInt32,
    manager = ⟨connections, .roundRobin, index⟩ →
      firsts.count connection = taken (2 ^ 32) connections.length index.toNat firsts.length v := by
  induction h with
  | nil => exact fun index _ => rfl
  | @cons manager message event log result firsts hrun _ ih =>
      rintro index rfl
      have hfirst := first_of_run hpool hrun
      have hrest := ih (index + 1) (sendMessage_next connections index message)
      have hnext : (index + 1).toNat = (index.toNat + 1) % 2 ^ 32 := UInt32.toNat_add index 1
      have hturn : event.1.connection = connection ↔ index.toNat % connections.length = v := by
        constructor
        · intro h
          apply (List.getElem?_inj (Nat.mod_lt _ (List.length_pos_of_ne_nil hpool)) hdistinct).mp
          rw [hfirst, hget, h]
        · rintro rfl
          exact Option.some.inj (hfirst.symm.trans hget)
      rw [List.count_cons, hrest, hnext, taken_mod, List.length_cons, taken_succ,
        Nat.mod_eq_of_lt index.toNat_lt]
      simp only [beq_iff_eq, hturn]

theorem exists_first (hpool : connections ≠ []) (index : UInt32) : ∃ event log result,
    Run (SmscConnectionManager.sendMessage ⟨connections, .roundRobin, index⟩ []).1 (event :: log)
      result := by
  rw [SmscConnectionManager.sendMessage, getConnections_eq (.inl hpool)]
  cases horder : candidateOrder .roundRobin index.toNat connections with
  | nil => exact absurd (List.rotate_eq_nil_iff.mp horder) hpool
  | cons connection rest =>
      have hrun : Run (sendOn (connection :: rest) []) [⟨⟨connection, []⟩, .ok (some .null)⟩]
          (some (.ok .null)) := .act _ (.ret _)
      exact ⟨_, _, _, hrun⟩

theorem exists_calls (hpool : connections ≠ []) (k : Nat) : ∀ index : UInt32,
    ∃ firsts, firsts.length = k ∧ FirstTried ⟨connections, .roundRobin, index⟩ firsts := by
  induction k with
  | zero => exact fun index => ⟨[], rfl, .nil _⟩
  | succ k ih =>
      intro index
      obtain ⟨event, log, result, hrun⟩ := exists_first hpool index
      obtain ⟨firsts, hlength, hcalls⟩ := ih (index + 1)
      exact ⟨event.1.connection :: firsts, congrArg Nat.succ hlength, .cons hrun hcalls⟩

/-- No connection is tried first two times more than another, unless the counter wraps in the middle
of a round. -/
theorem turns_fair_iff (hpool : connections ≠ []) (hdistinct : connections.Nodup) :
    (∀ index firsts, FirstTried ⟨connections, .roundRobin, index⟩ firsts →
      ∀ connection ∈ connections, ∀ other ∈ connections,
        firsts.count connection ≤ firsts.count other + 1) ↔ connections.length ∣ 2 ^ 32 := by
  rw [← fair_iff (List.length_pos_of_ne_nil hpool)]
  constructor
  · intro h start k v hv w hw
    obtain ⟨firsts, hlength, hcalls⟩ := exists_calls hpool k (UInt32.ofNat start)
    have hcount := h _ firsts hcalls _ (List.getElem_mem hv) _ (List.getElem_mem hw)
    have hstart : (UInt32.ofNat start).toNat = start % 2 ^ 32 := UInt32.toNat_ofNat
    rw [count_firsts hpool hdistinct (List.getElem?_eq_getElem hv) hcalls _ rfl,
      count_firsts hpool hdistinct (List.getElem?_eq_getElem hw) hcalls _ rfl, hstart, hlength,
      taken_mod, taken_mod] at hcount
    exact hcount
  · intro hfair index firsts hcalls connection hconnection other hother
    obtain ⟨v, hv⟩ := List.getElem?_of_mem hconnection
    obtain ⟨w, hw⟩ := List.getElem?_of_mem hother
    rw [count_firsts hpool hdistinct hv hcalls index rfl,
      count_firsts hpool hdistinct hw hcalls index rfl]
    exact hfair index.toNat firsts.length v (List.getElem?_eq_some_iff.mp hv).1 w
      (List.getElem?_eq_some_iff.mp hw).1

def smscAt (address : String) (shared : Nat) : SmscConnection :=
  ⟨"transceiver", 10, 30, 300, 10, ⟨address, "esme", "secret", "", 0, 0, "", 0x34⟩, shared⟩

def threeSmscs : List SmscConnection :=
  [smscAt "smsc1:2775" 0, smscAt "smsc2:2775" 1, smscAt "smsc3:2775" 2]

theorem turns_fair_iff_threeSmscs :
    ¬ ∀ index firsts, FirstTried ⟨threeSmscs, .roundRobin, index⟩ firsts →
      ∀ connection ∈ threeSmscs, ∀ other ∈ threeSmscs,
        firsts.count connection ≤ firsts.count other + 1 := by
  intro h
  have hdivides := (turns_fair_iff (by simp [threeSmscs]) (by decide)).mp h
  exact absurd hdivides (by decide)

end Turns

end SmppHerald.FairTurns
