import LeaderElection.Simulation.Schedule
import LeaderElection.Station
import LeaderElection.Wire.Codec

namespace LeaderElection

-- How a scripted peer answers: after a delay, with a reply or a failure.
structure Reaction where
  delay : Nat
  delivery : Delivery

def Reaction.unscripted (delay : Nat) : Reaction := ⟨delay,.error (.unreachable "no script")⟩

structure Manner where
  vote : Reaction
  heartbeat : Reaction

namespace Manner

def silent : Manner := ⟨.unscripted 0,.unscripted 0⟩

def reaction (m : Manner) : Request → Reaction
  | .vote _ => m.vote
  | .heartbeat _ => m.heartbeat

end Manner

structure Errand where
  peer : NodeId
  exchange : Exchange
  readyAt : Nat
  delivery : Delivery

namespace Errand

def outcome (now : Nat) (e : Errand) : Option Delivery :=
  Delivery.await now e.exchange.deadline (if Time.passed e.readyAt now then some e.delivery else none)

def due (e : Errand) : Nat := min e.readyAt e.exchange.deadline

end Errand

structure Sent where
  time : Nat
  receiver : Address
  request : Request
  timeout : Nat

-- One member among peers that follow a script. Unattended, its mailbox only fills.
structure Bench where
  now : Nat
  attended : Bool
  station : Station
  reader : Reader
  script : Directory String Manner
  errands : List Errand
  draws : Draws
  sent : List Sent
  posted : List (Nat × Event Nat)
  receipts : List Receipt

namespace Bench

def create (attended : Bool) (roster : Roster) (timings : Timings) (patience : Nat)
    (script : Directory String Manner) (draws : Draws) : Bench :=
  let station := .create 0 (draws.within timings.election) roster timings patience
  ⟨0,attended,station,.join station.mailbox.feed,script,[],draws.next,[],[],[]⟩

def draw (b : Bench) : Nat := b.station.draw b.draws

def post (e : Event Nat) (b : Bench) : Option Bench :=
  (b.station.mailbox.post e).map fun mailbox =>
    {b with station := {b.station with mailbox}, posted := b.posted ++ [(b.now,e)]}

def send (timeout : Nat) (b : Bench) (d : Dispatch) : Bench :=
  let reaction := ((b.script.find? d.peer.address.text).getD .silent).reaction d.request
  {b with
    errands := b.errands ++ [⟨d.peer.id,.start b.now timeout d.request,b.now+Time.wait reaction.delay,reaction.delivery⟩]
    sent := b.sent ++ [⟨b.now,d.peer.address,d.request,timeout⟩]}

inductive Move where
  | finish (errand : Nat)
  | wake
  | take

def finish (i : Nat) (b : Bench) : Option Bench := do
  let e ← b.errands[i]?
  let delivery ← e.outcome b.now
  let finished := {b with errands := b.errands.eraseIdx i}
  return (finished.post (e.exchange.report e.peer delivery)).getD finished

def wake (b : Bench) : Option Bench :=
  (b.station.mailbox.wake b.now b.draw).map fun (mailbox,alarm) =>
    {b with
      station := {b.station with mailbox}
      draws := b.draws.next
      posted := b.posted ++ alarm.toList.map fun a => (b.now,.alarm a)}

def take (b : Bench) : Option Bench :=
  if !b.attended then none
  else do
    let timings ← b.station.timings?
    let (turn,station) ← b.station.take b.now b.draw
    let taken := {b with
      station
      draws := b.draws.next
      receipts := b.receipts ++ turn.receipts.map Prod.snd}
    return turn.sends.foldl (send timings.rpc) taken

def perform : Move → Bench → Option Bench
  | .finish i,b => b.finish i
  | .wake,b => b.wake
  | .take,b => b.take

instance : Lively Bench Move where
  now := Bench.now
  moveTo t b := {b with now := t}
  moves b := (List.range b.errands.length).map .finish ++ [.take,.wake]
  perform := perform
  due b := (b.station.mailbox.due.toList ++ b.errands.map Errand.due).min?

def call (c : Call) (b : Bench) : Option (Answer × List Notice × Bench) := do
  let timings ← b.station.timings?
  let (step,station) ← b.station.call b.now b.draw c
  let called := {b with station, draws := b.draws.next}
  return (step.answer,step.notices,Schedule.settle (step.sends.foldl (send timings.rpc) called))

def ask (e : Event Nat) (b : Bench) : Option Receipt × Bench :=
  match b.post e with
  | none => (some .stopped,b)
  | some posted =>
    let after := Schedule.settle posted
    (after.receipts.head?,{after with receipts := []})

def handle (r : Request) : StateM Bench Reply := fun b =>
  let (receipt,after) := b.ask (r.event 0)
  ((receipt.getD .stopped).reply,after)

def serve (frame : Wire.RequestFrame) : StateM Bench Wire.ReplyFrame := frame.serve handle

def tend (f : Detector → Detector) (b : Bench) : Bench :=
  Schedule.settle {b with station := {b.station with detector := f b.station.detector}}

def teach (receiver : String) (manner : Manner) (b : Bench) : Bench :=
  {b with script := b.script.put receiver manner}

def release (b : Bench) : Bench :=
  Schedule.settle {b with station := {b.station with mailbox := b.station.mailbox.release}}

def read (b : Bench) : Reading Snapshot × Bench :=
  let (reading,reader) := b.reader.read b.station.mailbox.feed
  (reading,{b with reader})

def status? (b : Bench) : Option Status := b.station.mailbox.node?.map Node.status

def told (b : Bench) : Bench := {b with sent := [], posted := [], receipts := []}

def firstTimeout (stop : Nat) (b : Bench) : Option Nat :=
  Schedule.await (fun b => (b.posted.find? fun e => e.2 matches .alarm .electionTimeout).map Prod.fst) stop b

end Bench
end LeaderElection
