import LeaderElection.Node.Basic

namespace LeaderElection

namespace Node

variable (now draw : Nat)

-- A vote given puts the voter's own candidacy off.
def onVoteRequest (r : VoteRequest) (n : Node) : Step (Except VoteRefusal VoteReply) :=
  if !n.roster.contains r.candidate then
    .only (.error (.stranger n.term)) n [.unknownCandidate r.candidate]
  else if r.term < n.term then
    .only (.error (.stale n.term)) n [.staleCandidate r.candidate r.term]
  else
    let (met,notices) := n.meet now draw r.term
    match met.ballot.cast r.term r.candidate with
    | some ballot => .only (.ok ⟨true,ballot.term⟩) (defer now draw {met with ballot})
        (notices ++ [.voted r.candidate r.term])
    | none => .only (.ok ⟨false,met.term⟩) met
        (notices ++ [.voteTaken r.candidate met.ballot.vote r.term])

-- The leader a node takes up in its own term. A leader knows no other beside itself.
def accept (leader : NodeId) (n : Node) : Option Node := match n.standing.office with
  | .leader _ => none
  | .candidate .. => some (n.follow now draw n.standing.term (some leader))
  | .follower current timer =>
    if current = some leader then some n
    else some (n.enter {n.standing with office := .follower (some leader) timer})

def onHeartbeat (h : Heartbeat) (n : Node) : Step (Except HeartbeatRefusal HeartbeatReply) :=
  if !n.roster.contains h.leader then
    .only (.error (.stranger n.term)) n [.unknownLeader h.leader]
  else if h.term < n.term then
    .only (.error (.stale n.term)) n [.staleLeader h.leader h.term]
  else
    let (met,notices) := n.meet now draw h.term
    match met.accept now draw h.leader with
    | none => .only (.error (.rival h.term)) met (notices ++ [.rivalLeader h.leader h.term])
    | some node => ⟨.ok ⟨true,node.term⟩,node.defer now draw,[],some h.leader,notices⟩

def lead (term : Term) (n : Node) : Node := n.enter ⟨term,.leader (.start now n.timings.heartbeat term)⟩

-- A new term with the own vote cast, and a request for every other. A cluster of one is its own
-- majority.
def stand (n : Node) : Step Unit :=
  match n.ballot.stand n.me with
  | none => .only () n [.termsExhausted n.term]
  | some ballot =>
    let standing := ⟨ballot.term,.candidate [n.me] (.start now draw)⟩
    let candidate := enter standing {n with ballot}
    if quorum n.roster.size ≤ 1 then
      .only () (candidate.lead now ballot.term) [.candidacy standing,.elected ballot.term]
    else
      ⟨(),candidate,candidate.broadcast (.vote ⟨ballot.term,n.me⟩),none,[.candidacy standing]⟩

-- Timeouts wait in a queue, so one may have been overtaken by a reset.
def onTimeout (n : Node) : Step Unit :=
  if n.standing.timeoutDue now then n.stand now draw
  else .only () n [.staleTimeout n.standing]

-- What became of the request for a vote that was sent to `peer` for term `t`.
def onVoteReply (peer : NodeId) (t : Term) (result : Except TransportError VoteReply) (n : Node) : Step Unit :=
  match result with
  | .error e => .only () n [.noVote peer t e]
  | .ok reply =>
    let (met,notices) := n.meet now draw reply.term
    if n.term < reply.term then .only () met notices
    else if met.term ≠ t then .only () met [.outdatedVote peer t met.term]
    else if !reply.granted then .only () met [.voteDenied peer t]
    else match met.standing.office with
      | .candidate votes timer =>
        let votes := if votes.contains peer then votes else peer :: votes
        let counted := {met with standing := {met.standing with office := .candidate votes timer}}
        let notice := .votes peer votes.length n.roster.size t
        if quorum n.roster.size ≤ votes.length then .only () (counted.lead now t) [notice,.elected t]
        else .only () counted [notice]
      | _ => .only () met [.lateVote peer t met.standing]

-- A tick of an earlier leadership sends nothing.
def onTick (t : Term) (n : Node) : Step Unit :=
  if n.term ≠ t ∨ n.role ≠ .leader then .only () n [.staleTick t n.standing]
  else ⟨(),n,n.broadcast (.heartbeat ⟨t,n.me⟩),none,[]⟩

-- An acknowledgement is a sign of life as long as it belongs to the present leadership.
def onHeartbeatReply (now draw : Nat) (peer : NodeId) (t : Term)
    (result : Except TransportError HeartbeatReply) (n : Node) : Step Unit :=
  match result with
  | .error e => .only () n [.noAcknowledgement peer e]
  | .ok reply =>
    let (met,notices) := n.meet now draw reply.term
    if n.term < reply.term then .only () met notices
    else if reply.acked ∧ t = met.term ∧ met.role = .leader then ⟨(),met,[],some peer,[]⟩
    else .only () met []

end Node

inductive Call where
  | term (term : Term)
  | voteRequest (request : VoteRequest)
  | heartbeat (heartbeat : Heartbeat)
  | candidacy
  | timeout
  | voteReply (peer : NodeId) (term : Term) (result : Except TransportError VoteReply)
  | tick (term : Term)
  | heartbeatReply (peer : NodeId) (term : Term) (result : Except TransportError HeartbeatReply)

inductive Answer where
  | done
  | later (rose : Bool)
  | vote (result : Except VoteRefusal VoteReply)
  | heartbeat (result : Except HeartbeatRefusal HeartbeatReply)

def Node.apply (now draw : Nat) (n : Node) : Call → Step Answer
  | .term t => (n.onTerm now draw t).map .later
  | .voteRequest r => (n.onVoteRequest now draw r).map .vote
  | .heartbeat h => (n.onHeartbeat now draw h).map .heartbeat
  | .candidacy => (n.stand now draw).map fun _ => .done
  | .timeout => (n.onTimeout now draw).map fun _ => .done
  | .voteReply peer t result => (n.onVoteReply now draw peer t result).map fun _ => .done
  | .tick t => (n.onTick t).map fun _ => .done
  | .heartbeatReply peer t result => (n.onHeartbeatReply now draw peer t result).map fun _ => .done

inductive Alarm where
  | electionTimeout
  | heartbeatTick (term : Term)
  deriving DecidableEq

namespace Node

-- One round of the timer's task, once its sleep is over.
def wake (now draw : Nat) (n : Node) : Option (Node × Option Alarm) := match n.standing.office with
  | .leader beat => (beat.wake now).map fun after =>
      ({n with standing := {n.standing with office := .leader after}},some (.heartbeatTick beat.term))
  | .candidate votes timer => (timer.wake now draw).map fun (after,fires) =>
      ({n with standing := {n.standing with office := .candidate votes after}},
        if fires then some .electionTimeout else none)
  | .follower leader timer => (timer.wake now draw).map fun (after,fires) =>
      ({n with standing := {n.standing with office := .follower leader after}},
        if fires then some .electionTimeout else none)

def due (n : Node) : Nat := match n.standing.office with
  | .leader beat => beat.next
  | .candidate _ timer => timer.slumber.deadline
  | .follower _ timer => timer.slumber.deadline

end Node
end LeaderElection
