import SmppHerald.Library.Failover
import SmppHerald.Library.Utf8

namespace SmppHerald.LoadBalancing

open SmppHerald.Failover

inductive LoadBalancingAlgorithm
  | roundRobin
  | failOver
deriving DecidableEq, Repr

namespace LoadBalancingAlgorithm

def fromString (s : String) : LoadBalancingAlgorithm :=
  let lower := String.ofList (s.toList.map Utf8.toLowercase)
  if lower ∈ ["roundrobin", "round_robin", "ro", "round-robin"] then .roundRobin
  else if lower ∈ ["failover", "fail_over", "fo", "fail-over"] then .failOver
  else .roundRobin

end LoadBalancingAlgorithm

variable {α : Type}

/-- The order that an algorithm stands for. -/
def candidateOrder (algorithm : LoadBalancingAlgorithm) (counter : Nat) (candidates : List α) :
    List α :=
  match algorithm with
  | .roundRobin => candidates.rotate counter
  | .failOver => candidates

end SmppHerald.LoadBalancing
