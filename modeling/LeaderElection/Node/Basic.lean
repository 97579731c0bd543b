import LeaderElection.Feed
import LeaderElection.Member
import LeaderElection.Message
import LeaderElection.Node.Standing

namespace LeaderElection

inductive Notice where
  | steppedDown (term : Term) (role : Role)
  | unknownCandidate (candidate : NodeId)
  | staleCandidate (candidate : NodeId) (term : Term)
  | voted (candidate : NodeId) (term : Term)
  | voteTaken (candidate : NodeId) (chosen : Option NodeId) (term : Term)
  | unknownLeader (leader : NodeId)
  | staleLeader (leader : NodeId) (term : Term)
  | rivalLeader (leader : NodeId) (term : Term)
  | staleTimeout (standing : Standing)
  | termsExhausted (term : Term)
  | candidacy (standing : Standing)
  | elected (term : Term)
  | noVote (peer : NodeId) (term : Term) (error : TransportError)
  | outdatedVote (peer : NodeId) (term current : Term)
  | voteDenied (peer : NodeId) (term : Term)
  | lateVote (peer : NodeId) (term : Term) (standing : Standing)
  | votes (peer : NodeId) (count size : Nat) (term : Term)
  | staleTick (term : Term) (standing : Standing)
  | noAcknowledgement (peer : NodeId) (error : TransportError)
  deriving DecidableEq

def optionalId : Option NodeId → String
  | none => "None"
  | some id => "Some(" ++ id.quoted ++ ")"

def TransportError.described (e : TransportError) : String :=
  e.message ++ " (transient: " ++ toString e.transient ++ ")"

def Notice.record : Notice → Record
  | .steppedDown t role => ⟨.info,
      "Observed term " ++ toString t ++ ". Stepping down from " ++ role.text ++ " to follower.",none⟩
  | .unknownCandidate c => ⟨.warning,"Not granting vote. " ++ c.quoted ++ " is not in the cluster.",none⟩
  | .staleCandidate c t => ⟨.info,
      "Not granting vote to " ++ c.quoted ++ ". Candidate term " ++ toString t ++ " is out of date.",none⟩
  | .voted c t => ⟨.info,"Voting for " ++ c.quoted ++ " in term " ++ toString t ++ ".",none⟩
  | .voteTaken c chosen t => ⟨.info,"Not granting vote to " ++ c.quoted ++ ". Already voted for " ++
      optionalId chosen ++ " in term " ++ toString t ++ ".",none⟩
  | .unknownLeader l => ⟨.warning,"Rejecting heartbeat. " ++ l.quoted ++ " is not in the cluster.",none⟩
  | .staleLeader l t => ⟨.info,
      "Rejecting heartbeat from " ++ l.quoted ++ ". Leader term " ++ toString t ++ " is out of date.",none⟩
  | .rivalLeader l t => ⟨.error,"Received heartbeat from " ++ l.quoted ++ " for term " ++ toString t ++
      ", but I am leader of that term.",none⟩
  | .staleTimeout s => ⟨.debug,"Ignoring stale election timeout. Election state: " ++ s.text,none⟩
  | .termsExhausted t => ⟨.error,
      "Term space exhausted at " ++ toString t ++ ". Not starting an election.",none⟩
  | .candidacy s => ⟨.info,"Election timeout. Changed to candidate. Election state: " ++ s.text,none⟩
  | .elected t => ⟨.info,"Became leader for term " ++ toString t,none⟩
  | .noVote p t e => ⟨.info,"No vote for term " ++ toString t ++ ": " ++ e.described,some p⟩
  | .outdatedVote p t current => ⟨.info,"Received vote for outdated term " ++ toString t ++
      ", current term: " ++ toString current ++ ".",some p⟩
  | .voteDenied p t => ⟨.info,"Vote not granted for term " ++ toString t,some p⟩
  | .lateVote p t s => ⟨.info,"Received vote for term " ++ toString t ++
      " after transitioning to election state: " ++ s.text,some p⟩
  | .votes p count size t => ⟨.info,"Received " ++ toString count ++ "/" ++ toString size ++
      " votes for term " ++ toString t,some p⟩
  | .staleTick t s => ⟨.debug,"Received heartbeat tick for term " ++ toString t ++
      " but no longer leader. Election state: " ++ s.text,none⟩
  | .noAcknowledgement p e => ⟨.debug,"Heartbeat to " ++ p.quoted ++ " unacknowledged: " ++ e.described,none⟩

structure Timings where
  heartbeat : Nat
  election : Range
  rpc : Nat
  deriving DecidableEq

-- One member of a cluster, between two calls. The ballot is what must outlive the moment, the
-- standing is what the node makes of it, the feed is what it has told others.
structure Node where
  roster : Roster
  timings : Timings
  ballot : Ballot
  standing : Standing
  feed : Feed Snapshot

structure Status where
  id : NodeId
  term : Term
  role : Role
  vote : Option NodeId
  leader : Option NodeId
  deriving DecidableEq

structure Dispatch where
  peer : Member
  request : Request
  deriving DecidableEq

-- What a call comes to: its answer, the node after it, the requests to send, the peer it has
-- proved alive, and the log.
structure Step (α : Type) where
  answer : α
  node : Node
  sends : List Dispatch
  heard : Option NodeId
  notices : List Notice

namespace Step
variable {α β : Type}

def only (answer : α) (node : Node) (notices : List Notice) : Step α := ⟨answer,node,[],none,notices⟩

def map (f : α → β) (s : Step α) : Step β := {s with answer := f s.answer}

end Step

namespace Node

-- `now` is the time of a call, `draw` the timeout it takes should it arm or reset a timer.
variable (now draw : Nat)

def create (roster : Roster) (timings : Timings) : Node :=
  let standing := ⟨.zero,.follower none (.start now draw)⟩
  ⟨roster,timings,.initial,standing,.opened standing.snapshot⟩

def me (n : Node) : NodeId := n.roster.me
def term (n : Node) : Term := n.ballot.term
def role (n : Node) : Role := n.standing.role

def status (n : Node) : Status := ⟨n.me,n.term,n.role,n.ballot.vote,n.standing.leader n.me⟩

def enter (standing : Standing) (n : Node) : Node :=
  {n with standing, feed := n.feed.publish standing.snapshot}

def follow (term : Term) (leader : Option NodeId) (n : Node) : Node :=
  n.enter ⟨term,.follower leader (.start now draw)⟩

def defer (n : Node) : Node := {n with standing := n.standing.defer now draw}

def broadcast (request : Request) (n : Node) : List Dispatch :=
  n.roster.peers.map fun peer => ⟨peer,request⟩

-- Any message may carry a later term. Whoever meets one follows nobody in it for the time being.
def meet (t : Term) (n : Node) : Node × List Notice :=
  if n.term < t then
    (follow now draw t none {n with ballot := n.ballot.raise t},[.steppedDown t n.role])
  else (n,[])

def onTerm (t : Term) (n : Node) : Step Bool :=
  let (node,notices) := n.meet now draw t
  .only (decide (n.term < t)) node notices

end Node
end LeaderElection
