import LeaderElection.Basic
import LeaderElection.Member

namespace LeaderElection

structure VoteRequest where
  term : Term
  candidate : NodeId
  deriving DecidableEq

structure Heartbeat where
  term : Term
  leader : NodeId
  deriving DecidableEq

inductive Request where
  | vote (request : VoteRequest)
  | heartbeat (heartbeat : Heartbeat)
  deriving DecidableEq

def Request.term : Request → Term
  | .vote r => r.term
  | .heartbeat h => h.term

def Request.sender : Request → NodeId
  | .vote r => r.candidate
  | .heartbeat h => h.leader

structure VoteReply where
  granted : Bool
  term : Term
  deriving DecidableEq

structure HeartbeatReply where
  acked : Bool
  term : Term
  deriving DecidableEq

inductive Reply where
  | vote (reply : VoteReply)
  | heartbeat (reply : HeartbeatReply)
  | error (message : String)
  deriving DecidableEq

-- The written form of a reply, as it is quoted when a peer answers with the wrong kind.
def Reply.text : Reply → String
  | .vote r => "Vote(VoteReply \x7b vote_granted: " ++ toString r.granted ++ ", term: " ++ toString r.term ++ " \x7d)"
  | .heartbeat r => "Heartbeat(HeartbeatReply \x7b ack: " ++ toString r.acked ++ ", term: " ++ toString r.term ++ " \x7d)"
  | .error message => "Error(ErrorReply \x7b message: " ++ Text.quoted message ++ " \x7d)"

inductive TransportError where
  | timeout
  | unreachable (why : String)
  | rejected (why : String)
  | malformedReply (why : String)
  | bind (why : String)
  deriving DecidableEq

namespace TransportError

def message : TransportError → String
  | .timeout => "timed out waiting for reply"
  | .unreachable why => "peer unreachable: " ++ why
  | .rejected why => "peer rejected request: " ++ why
  | .malformedReply why => "malformed reply: " ++ why
  | .bind why => "failed to accept requests: " ++ why

-- Worth another attempt in a later round.
def transient : TransportError → Bool
  | .timeout => true
  | .unreachable _ => true
  | _ => false

end TransportError

abbrev Delivery := Except TransportError Reply

-- Each names the term of the node that refuses.
inductive VoteRefusal where
  | stale (current : Term)
  | stranger (current : Term)
  deriving DecidableEq

namespace VoteRefusal

def current : VoteRefusal → Term
  | .stale t => t
  | .stranger t => t

def message : VoteRefusal → String
  | .stale t => "candidate term is stale, current term is " ++ toString t
  | .stranger _ => "candidate is not a member of this cluster"

end VoteRefusal

inductive HeartbeatRefusal where
  | stale (current : Term)
  | stranger (current : Term)
  | rival (current : Term)
  deriving DecidableEq

namespace HeartbeatRefusal

def current : HeartbeatRefusal → Term
  | .stale t => t
  | .stranger t => t
  | .rival t => t

def message : HeartbeatRefusal → String
  | .stale t => "leader term is stale, current term is " ++ toString t
  | .stranger _ => "leader is not a member of this cluster"
  | .rival t => "I am leader of term " ++ toString t ++ " myself"

end HeartbeatRefusal

-- A refusal still answers, so that its sender learns the later term.
def Reply.ofVote : Except VoteRefusal VoteReply → Reply
  | .ok r => .vote r
  | .error e => .vote ⟨false,e.current⟩

def Reply.ofHeartbeat : Except HeartbeatRefusal HeartbeatReply → Reply
  | .ok r => .heartbeat r
  | .error e => .heartbeat ⟨false,e.current⟩

def unexpected : Reply → TransportError
  | .error message => .rejected message
  | other => .malformedReply ("unexpected reply kind: " ++ other.text)

namespace Delivery

def asVote : Delivery → Except TransportError VoteReply
  | .ok (.vote r) => .ok r
  | .ok other => .error (unexpected other)
  | .error e => .error e

def asHeartbeat : Delivery → Except TransportError HeartbeatReply
  | .ok (.heartbeat r) => .ok r
  | .ok other => .error (unexpected other)
  | .error e => .error e

-- The one outcome of a wait: what has arrived, even in the very instant of the deadline, or
-- else a timeout.
def await (now deadline : Nat) (arrived : Option Delivery) : Option Delivery :=
  match arrived with
  | some delivery => some delivery
  | none => if Time.passed deadline now then some (.error .timeout) else none

theorem await_or (now deadline : Nat) (arrived : Option Delivery) : await now deadline arrived =
    arrived.or (if Time.wake deadline ≤ now then some (.error .timeout) else none) := by
  cases arrived with
  | none =>
      rw [await,Option.none_or,Time.passed]
      simp only [decide_eq_true_eq]
  | some delivery => rfl

-- Nobody waits beyond the deadline, nor for what has arrived.
theorem await_over {now deadline : Nat} {arrived : Option Delivery}
    (settled : arrived ≠ none ∨ Time.wake deadline ≤ now) : ∃ delivery, await now deadline arrived = some delivery := by
  rw [await_or]
  cases arrived with
  | none =>
      rw [Option.none_or,if_pos (settled.resolve_left fun absent => absent rfl)]
      exact ⟨_,rfl⟩
  | some delivery => exact ⟨delivery,rfl⟩

end Delivery

-- A request on its way. It is given up at its deadline.
structure Exchange where
  request : Request
  sentAt : Nat
  deadline : Nat
  deriving DecidableEq

def Exchange.start (now timeout : Nat) (request : Request) : Exchange := ⟨request,now,now+timeout⟩

end LeaderElection
