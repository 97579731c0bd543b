import LeaderElection.Basic
import LeaderElection.Member
import LeaderElection.Timer

namespace LeaderElection

-- The term a node is in and the one vote it has in it.
structure Ballot where
  term : Term
  vote : Option NodeId
  deriving DecidableEq

namespace Ballot

def initial : Ballot := ⟨.zero,none⟩

-- A later term comes with a vote not yet cast. Earlier terms change nothing.
def raise (t : Term) (b : Ballot) : Ballot := if b.term < t then ⟨t,none⟩ else b

-- A vote stays where it was cast first. Casting it there again is no second vote.
def cast (t : Term) (candidate : NodeId) (b : Ballot) : Option Ballot :=
  if t ≠ b.term then none
  else match b.vote with
    | none => some {b with vote := some candidate}
    | some chosen => if chosen = candidate then some b else none

-- A candidate begins a term with its own vote. Nobody stands behind the last term.
def stand (me : NodeId) (b : Ballot) : Option Ballot := b.term.next.map fun t => ⟨t,some me⟩

end Ballot

inductive Role where
  | follower
  | candidate
  | leader
  deriving DecidableEq, Repr

def Role.text : Role → String
  | .follower => "follower"
  | .candidate => "candidate"
  | .leader => "leader"

-- A role with what belongs to it. Its timer goes when the office does.
inductive Office where
  | leader (beat : HeartbeatTimer)
  | candidate (votes : List NodeId) (timer : ElectionTimer)
  | follower (leader : Option NodeId) (timer : ElectionTimer)
  deriving DecidableEq

structure Standing where
  term : Term
  office : Office
  deriving DecidableEq

inductive Snapshot where
  | leader (term : Term)
  | candidate (term : Term)
  | follower (term : Term) (leader : NodeId)
  | leaderless (term : Term)
  deriving DecidableEq

def Snapshot.term : Snapshot → Term
  | .leader t => t
  | .candidate t => t
  | .follower t _ => t
  | .leaderless t => t

namespace Standing

def role (s : Standing) : Role := match s.office with
  | .leader _ => .leader
  | .candidate .. => .candidate
  | .follower .. => .follower

def leader (me : NodeId) (s : Standing) : Option NodeId := match s.office with
  | .leader _ => some me
  | .candidate .. => none
  | .follower l _ => l

def snapshot (s : Standing) : Snapshot := match s.office with
  | .leader _ => .leader s.term
  | .candidate .. => .candidate s.term
  | .follower (some l) _ => .follower s.term l
  | .follower none _ => .leaderless s.term

def text (s : Standing) : String :=
  let term := "Term=" ++ toString s.term
  match s.office with
  | .leader _ => "Leader(" ++ term ++ ")"
  | .candidate votes _ => "Candidate(" ++ term ++ ", Votes=" ++ toString votes.length ++ ")"
  | .follower (some l) _ => "Follower(" ++ term ++ ", Leader=" ++ l.quoted ++ ")"
  | .follower none _ => "Follower(" ++ term ++ ", Leader=None)"

-- Leaders do not wait for an election.
def timeoutDue (now : Nat) (s : Standing) : Bool := match s.office with
  | .leader _ => false
  | .candidate _ timer => timer.expired now
  | .follower _ timer => timer.expired now

-- Only a follower puts its own candidacy off.
def defer (now : Nat) (draw : Nat) (s : Standing) : Standing := match s.office with
  | .follower l timer => {s with office := .follower l (timer.reset now draw)}
  | _ => s

end Standing
end LeaderElection
