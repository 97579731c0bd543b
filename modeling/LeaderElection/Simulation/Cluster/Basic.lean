import LeaderElection.Creation
import LeaderElection.Simulation.Schedule

namespace LeaderElection

-- A member and those who watch it. `owned` until its owner lets go of it.
structure Resident where
  id : NodeId
  guard : Guard
  station : Station
  owned : Bool
  listener : Reader
  reader : Reader
  ended : Bool

def Resident.due (r : Resident) : List Nat := r.station.mailbox.due.toList ++ r.station.detector.due.toList

inductive Sender where
  | resident (serial : Nat) (peer : NodeId)
  | outsider
  deriving DecidableEq

structure Passage where
  ticket : Nat
  sender : Sender
  origin : Address
  target : Address
  exchange : Exchange
  answer : Option Reply

structure Passed where
  sender : Sender
  origin : Address
  target : Address
  exchange : Exchange
  delivery : Delivery

structure Change where
  time : Nat
  id : NodeId
  reading : Reading Snapshot

-- Members on one network, under one clock. Residents are known by serial numbers: an id may be
-- started again.
structure Cluster where
  now : Nat
  network : Network Nat
  residents : Directory Nat Resident
  serials : Directory NodeId Nat
  counter : Nat
  passages : List Passage
  draws : Draws
  passed : List Passed
  changes : List Change
  calls : List (Nat × Invocation)

namespace Cluster

def create (draws : Draws) : Cluster := ⟨0,.empty,.empty,.empty,0,[],draws,[],[],[]⟩

def serial? (c : Cluster) (id : NodeId) : Option Nat := c.serials.find? id
def owned? (c : Cluster) (id : NodeId) : Option (Nat × Resident) := do
  let serial ← c.serial? id
  let r ← c.residents.find? serial
  if r.owned then some (serial,r) else none

def change (serial : Nat) (f : Resident → Resident) (c : Cluster) : Cluster :=
  match c.residents.find? serial with
  | none => c
  | some r => {c with residents := c.residents.put serial (f r)}

def setStation (serial : Nat) (s : Station) (c : Cluster) : Cluster :=
  c.change serial fun r => {r with station := s}

def answer (receipts : List (Nat × Receipt)) (c : Cluster) : Cluster :=
  {c with passages := c.passages.map fun p => match receipts.lookup p.ticket with
    | some receipt => {p with answer := some receipt.reply}
    | none => p}

def accepted? (serial : Nat) (e : Event Nat) (c : Cluster) : Option Cluster := do
  let r ← c.residents.find? serial
  let mailbox ← r.station.mailbox.post e
  return c.setStation serial {r.station with mailbox}

def post (serial : Nat) (e : Event Nat) (c : Cluster) : Cluster :=
  (c.accepted? serial e).getD (c.answer e.refused)

def conclude (p : Passage) (delivery : Delivery) (c : Cluster) : Cluster :=
  let told := {c with passed := c.passed ++ [⟨p.sender,p.origin,p.target,p.exchange,delivery⟩]}
  match p.sender with
  | .outsider => told
  | .resident serial peer => told.post serial (p.exchange.report peer delivery)

def dispatch (sender : Sender) (origin target : Address) (request : Request) (timeout : Nat) (c : Cluster) :
    Cluster :=
  let passage : Passage := ⟨c.counter,sender,origin,target,.start c.now timeout request,none⟩
  let counted := {c with counter := c.counter+1}
  match c.network.route origin target with
  | .error e => counted.conclude passage (.error e)
  | .ok serial =>
    {counted with passages := counted.passages ++ [passage]}.post serial (request.event passage.ticket)

def outcome (c : Cluster) (p : Passage) : Option Delivery :=
  Delivery.await c.now p.exchange.deadline (p.answer.map fun r => c.network.carry p.origin p.target r)

inductive Move where
  | finish (passage : Nat)
  | poll (serial : Nat)
  | wake (serial : Nat)
  | take (serial : Nat)
  | listen (serial : Nat)

def finish (i : Nat) (c : Cluster) : Option Cluster := do
  let p ← c.passages[i]?
  let delivery ← c.outcome p
  return {c with passages := c.passages.eraseIdx i}.conclude p delivery

def poll (serial : Nat) (c : Cluster) : Option Cluster := do
  let r ← c.residents.find? serial
  let s ← r.station.detector.wake c.now
  return {c.setStation serial {r.station with detector := s.detector} with
    calls := c.calls ++ s.calls.map fun call => (c.now,call)}

def wake (serial : Nat) (c : Cluster) : Option Cluster := do
  let r ← c.residents.find? serial
  let (mailbox,_) ← r.station.mailbox.wake c.now (r.station.draw c.draws)
  return {c.setStation serial {r.station with mailbox} with draws := c.draws.next}

def take (serial : Nat) (c : Cluster) : Option Cluster := do
  let r ← c.residents.find? serial
  let timings ← r.station.timings?
  let (turn,station) ← r.station.take c.now (r.station.draw c.draws)
  let taken := {c.setStation serial station with draws := c.draws.next}
  return turn.sends.foldl
    (fun c d => c.dispatch (.resident serial d.peer.id) r.guard.address d.peer.address d.request timings.rpc)
    (taken.answer turn.receipts)

def noted (change : Change) (changes : List Change) : List Change :=
  changes.filter (fun c => c.time ≠ change.time ∨ c.id ≠ change.id) ++ [change]

-- The listener hears of the newest state, and of the end once. Of an instant it keeps the last
-- it has heard.
def listen (serial : Nat) (c : Cluster) : Option Cluster := do
  let r ← c.residents.find? serial
  let (reading,listener) := r.listener.read r.station.mailbox.feed
  if r.ended ∨ reading = .nothing then none
  else return {c.change serial fun r => {r with listener, ended := reading = .ended} with
    changes := noted ⟨c.now,r.id,reading⟩ c.changes}

def perform : Move → Cluster → Option Cluster
  | .finish i,c => c.finish i
  | .poll serial,c => c.poll serial
  | .wake serial,c => c.wake serial
  | .take serial,c => c.take serial
  | .listen serial,c => c.listen serial

-- Nobody listens before everything else has come to rest.
def moves (c : Cluster) : List Move :=
  let serials := c.residents.keys
  (List.range c.passages.length).map .finish ++ serials.map .poll ++ serials.map .take ++
    serials.map .wake ++ serials.map .listen

instance : Lively Cluster Move where
  now := Cluster.now
  moveTo t c := {c with now := t}
  moves := moves
  perform := perform
  due c := (c.residents.entries.flatMap (fun e => e.2.due) ++
    c.passages.map fun p => p.exchange.deadline).min?

end Cluster
end LeaderElection
