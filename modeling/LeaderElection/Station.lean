import LeaderElection.Basic
import LeaderElection.Detector
import LeaderElection.Message
import LeaderElection.Node.Call

namespace LeaderElection

-- What waits for a node. Those who ask wait in turn, for a receipt.
inductive Event (τ : Type) where
  | voteRequest (asker : τ) (request : VoteRequest)
  | heartbeat (asker : τ) (heartbeat : Heartbeat)
  | voteReply (peer : NodeId) (term : Term) (result : Except TransportError VoteReply)
  | heartbeatReply (peer : NodeId) (term : Term) (result : Except TransportError HeartbeatReply)
  | alarm (alarm : Alarm)
  | status (asker : τ)
  | shutdown (asker : τ)

inductive Receipt where
  | vote (result : Except VoteRefusal VoteReply)
  | heartbeat (result : Except HeartbeatRefusal HeartbeatReply)
  | status (status : Status)
  | down
  | stopped

def stoppedMessage : String := "node event loop has exited"

-- A request of a peer is always answered.
def Receipt.reply : Receipt → Reply
  | .vote result => .ofVote result
  | .heartbeat result => .ofHeartbeat result
  | _ => .error stoppedMessage

def Request.event {τ : Type} (asker : τ) : Request → Event τ
  | .vote r => .voteRequest asker r
  | .heartbeat h => .heartbeat asker h

namespace Event
variable {τ : Type}

def asker? : Event τ → Option τ
  | .voteRequest asker _ => some asker
  | .heartbeat asker _ => some asker
  | .status asker => some asker
  | .shutdown asker => some asker
  | _ => none

-- What becomes of whoever asked when the event is never handled.
def refused (e : Event τ) : List (τ × Receipt) := e.asker?.toList.map fun asker => (asker,.stopped)

end Event

inductive Loop where
  | running (node : Node)
  | exited (feed : Feed Snapshot)

-- A node and the events it takes one by one, in the order they came. It is `held` as long as somebody who
-- may stop it has not let go.
structure Mailbox (τ : Type) where
  loop : Loop
  events : List (Event τ)
  held : Bool

structure Turn (τ : Type) where
  mailbox : Mailbox τ
  receipts : List (τ × Receipt)
  sends : List Dispatch
  heard : Option NodeId
  notices : List Notice

namespace Mailbox
variable {τ : Type}

def start (node : Node) : Mailbox τ := ⟨.running node,[],true⟩

def node? (m : Mailbox τ) : Option Node := match m.loop with
  | .running node => some node
  | .exited _ => none

def feed (m : Mailbox τ) : Feed Snapshot := match m.loop with
  | .running node => node.feed
  | .exited feed => feed

-- Nothing is taken in after the end of the loop, or where nobody is left to hold the node.
def post (e : Event τ) (m : Mailbox τ) : Option (Mailbox τ) :=
  if m.held && m.node?.isSome then some {m with events := m.events ++ [e]} else none

def release (m : Mailbox τ) : Mailbox τ := {m with held := false}

-- There is room for so many events in the queue. Those that come then stand in line for it, in turn.
def capacity : Nat := 64

def queued (m : Mailbox τ) : List (Event τ) := m.events.take capacity

-- The node goes, its timers with it, and whoever still waits is turned away.
def exit (node : Node) (waiting : List (Event τ)) (receipts : List (τ × Receipt)) (held : Bool) : Turn τ :=
  ⟨⟨.exited node.feed.close,[],held⟩,receipts ++ waiting.flatMap Event.refused,[],none,[]⟩

def turn {α : Type} (rest : List (Event τ)) (held : Bool) (receipts : α → List (τ × Receipt)) (s : Step α) :
    Turn τ :=
  ⟨⟨.running s.node,rest,held⟩,receipts s.answer,s.sends,s.heard,s.notices⟩

def handle (now draw : Nat) (node : Node) (e : Event τ) (rest : List (Event τ)) (held : Bool) : Turn τ :=
  match e with
  | .voteRequest asker r => turn rest held (fun a => [(asker,.vote a)]) (node.onVoteRequest now draw r)
  | .heartbeat asker h => turn rest held (fun a => [(asker,.heartbeat a)]) (node.onHeartbeat now draw h)
  | .voteReply peer t result => turn rest held (fun _ => []) (node.onVoteReply now draw peer t result)
  | .heartbeatReply peer t result => turn rest held (fun _ => []) (node.onHeartbeatReply now draw peer t result)
  | .alarm .electionTimeout => turn rest held (fun _ => []) (node.onTimeout now draw)
  | .alarm (.heartbeatTick t) => turn rest held (fun _ => []) (node.onTick t)
  | .status asker => turn rest held (fun s => [(asker,.status s)]) (.only node.status node [])
  | .shutdown asker => exit node rest [(asker,.down)] held

-- The first event, or the end of the loop if none can come any more.
def take (now draw : Nat) (m : Mailbox τ) : Option (Turn τ) :=
  match m.loop with
  | .exited _ => none
  | .running node => match m.events with
    | [] => if m.held then none else some (exit node [] [] m.held)
    | e :: rest => some (handle now draw node e rest m.held)

-- The node's timer, where its sleep is over. What it says is posted.
def wake (now draw : Nat) (m : Mailbox τ) : Option (Mailbox τ × Option Alarm) :=
  match m.loop with
  | .exited _ => none
  | .running node => (node.wake now draw).map fun (after,alarm) =>
      let woken := {m with loop := .running after}
      (((alarm.bind fun a => woken.post (.alarm a)).getD woken),alarm)

def due (m : Mailbox τ) : Option Nat := m.node?.map Node.due

end Mailbox

-- Reported for the peer and the term of the request, whatever came back.
def Exchange.report {τ : Type} (peer : NodeId) (delivery : Delivery) (x : Exchange) : Event τ :=
  match x.request with
  | .vote r => .voteReply peer r.term delivery.asVote
  | .heartbeat h => .heartbeatReply peer h.term delivery.asHeartbeat

-- A member at work: its node behind the mailbox, and the detector that node and owner share.
structure Station where
  mailbox : Mailbox Nat
  detector : Detector

namespace Station

def create (now draw : Nat) (roster : Roster) (timings : Timings) (patience : Nat) : Station :=
  ⟨.start (.create now draw roster timings),.create patience⟩

def hear (now : Nat) (heard : Option NodeId) (s : Station) : Station :=
  {s with detector := heard.elim s.detector fun peer => s.detector.mark now peer}

def take (now draw : Nat) (s : Station) : Option (Turn Nat × Station) :=
  (s.mailbox.take now draw).map fun t => (t,hear now t.heard {s with mailbox := t.mailbox})

def call (now draw : Nat) (c : Call) (s : Station) : Option (Step Answer × Station) :=
  s.mailbox.node?.map fun node =>
    let step := node.apply now draw c
    (step,hear now step.heard {s with mailbox := {s.mailbox with loop := .running step.node}})

def timings? (s : Station) : Option Timings := s.mailbox.node?.map Node.timings

def draw (draws : Draws) (s : Station) : Nat := (s.timings?.map fun t => draws.within t.election).getD 0

end Station
end LeaderElection
