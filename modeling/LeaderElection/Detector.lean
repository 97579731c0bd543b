import LeaderElection.Basic
import LeaderElection.Member
import LeaderElection.Text.Basic

namespace LeaderElection

structure Sighting where
  last : Option Nat
  patience : Option Nat
  deriving DecidableEq

inductive Verdict where
  | done
  | failed (reason : String)
  | panicked
  deriving DecidableEq

-- A callback may mark peers as alive before it ends, well or badly.
structure Response where
  marks : List NodeId
  verdict : Verdict

structure Callback where
  name : String
  respond : NodeId → Response

structure Invocation where
  callback : String
  peer : NodeId
  verdict : Verdict
  deriving DecidableEq

-- The polling loop: how often it looks, and when it is woken to look next.
structure Monitor where
  interval : Nat
  next : Nat
  deriving DecidableEq

-- Tells who is alive by how long ago each peer was last heard of.
structure Detector where
  patience : Nat
  sightings : Directory NodeId Sighting
  callback : Option Callback
  monitor : Option Monitor

-- What a poll comes to: the suspects it has reported, and how many of the callbacks failed, with what
-- was written of them.
structure Survey where
  detector : Detector
  calls : List Invocation
  failures : Nat
  log : List Record

def callbackFailure (reason : String) : String := "suspect callback failed: " ++ reason

def Invocation.record? (i : Invocation) : Option Record := match i.verdict with
  | .done => none
  | .failed reason => some ⟨.warning,
      "Suspect callback for " ++ i.peer.quoted ++ " failed: " ++ callbackFailure reason,some i.peer⟩
  | .panicked => some ⟨.error,"Suspect callback for " ++ i.peer.quoted ++ " panicked",some i.peer⟩

namespace Detector

def create (patience : Nat) : Detector := ⟨patience,.empty,none,none⟩

def sighting (d : Detector) (peer : NodeId) : Sighting := (d.sightings.find? peer).getD ⟨none,none⟩

def mark (now : Nat) (peer : NodeId) (d : Detector) : Detector :=
  {d with sightings := d.sightings.put peer {d.sighting peer with last := some now}}

def markAll (now : Nat) (peers : List NodeId) (d : Detector) : Detector := peers.foldl (fun d p => d.mark now p) d

def setPatience (peer : NodeId) (patience : Nat) (d : Detector) : Detector :=
  {d with sightings := d.sightings.put peer {d.sighting peer with patience := some patience}}

-- Whoever was never heard of is suspected, known or not.
def suspects (d : Detector) (now : Nat) (peer : NodeId) : Bool :=
  match (d.sighting peer).last with
  | none => true
  | some last => (d.sighting peer).patience.getD d.patience < now-last

def known (d : Detector) : List NodeId := NodeId.sort d.sightings.keys

def suspected (d : Detector) (now : Nat) : List NodeId := d.known.filter (d.suspects now)

def clear (d : Detector) : Detector := {d with sightings := .empty}

def register (c : Callback) (d : Detector) : Detector := {d with callback := some c}

-- A second start is ignored, its interval too.
def start (now : Nat) (interval : Nat) (d : Detector) : Detector × List Record :=
  match d.monitor with
  | some _ => (d,[])
  | none => ({d with monitor := some ⟨interval,now⟩},
      [⟨.info,"Starting failure detector monitor every " ++ Text.elapsed interval,none⟩])

def stopped : Record := ⟨.info,"Stopped failure detector monitor",none⟩

-- The place of the loop is emptied and the loop is told. Where it has nothing left to do it is gone at once, and that
-- is written.
def stop (d : Detector) : Detector × List Record :=
  match d.monitor with
  | none => (d,[])
  | some _ => ({d with monitor := none},[stopped])

-- Nobody holds the detector any more. A callback does, and keeps it at its work.
def release (d : Detector) : Detector := if d.callback.isSome then d else d.stop.1

def watching (d : Detector) : Bool := d.monitor.isSome

-- However the callback ends, the poll goes on.
def report (now : Nat) (c : Callback) (s : Survey) (peer : NodeId) : Survey :=
  let response := c.respond peer
  let call : Invocation := ⟨c.name,peer,response.verdict⟩
  let marked := s.detector.markAll now response.marks
  match call.record? with
  | none => {s with detector := marked, calls := s.calls ++ [call]}
  | some record => ⟨marked,s.calls ++ [call],s.failures+1,s.log ++ [record]⟩

-- The suspects are listed before the first of them is reported.
def poll (now : Nat) (d : Detector) : Survey :=
  match d.callback with
  | none => ⟨d,[],0,[]⟩
  | some c => (d.suspected now).foldl (report now c) ⟨d,[],0,[]⟩

-- One poll where one is due, the first at once. The next is counted from this one, so a late one
-- is not caught up.
def wake (now : Nat) (d : Detector) : Option Survey :=
  match d.monitor with
  | none => none
  | some m =>
    if m.next ≤ now then
      some (poll now {d with monitor := some {m with next := Time.wake (now+m.interval)}})
    else none

def hasten (t : Nat) (d : Detector) : Detector :=
  {d with monitor := d.monitor.map fun m => {m with next := min m.next t}}

def due (d : Detector) : Option Nat := d.monitor.map Monitor.next

end Detector
end LeaderElection
