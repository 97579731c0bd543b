import LeaderElection.Message
import LeaderElection.Network
import LeaderElection.Simulation.Schedule

namespace LeaderElection

def agree : Request → Reply
  | .vote r => .vote ⟨true,r.term⟩
  | .heartbeat h => .heartbeat ⟨true,h.term⟩

-- A handler with one reply to everything, or else one that agrees.
structure Responder where
  name : String
  reply : Option Reply
  delay : Nat

def Responder.answer (r : Responder) (request : Request) : Reply := r.reply.getD (agree request)

-- A request some responder is busy with. Its sender waits for it, or has left a tag.
structure Shipment where
  tag : Option String
  origin : Address
  target : Address
  deadline : Nat
  readyAt : Nat
  reply : Reply

def Shipment.due (s : Shipment) : Nat := min s.readyAt s.deadline

structure Arrival where
  tag : Option String
  time : Nat
  delivery : Delivery

structure Traffic where
  now : Nat
  network : Network Responder
  guards : Directory String Guard
  begun : Directory String Nat
  shipments : List Shipment
  arrivals : List Arrival

namespace Traffic

def create : Traffic := ⟨0,.empty,.empty,.empty,[],[]⟩

def outcome (t : Traffic) (s : Shipment) : Option Delivery :=
  Delivery.await t.now s.deadline
    (if Time.passed s.readyAt t.now then some (t.network.carry s.origin s.target s.reply) else none)

def finish (i : Nat) (t : Traffic) : Option Traffic := do
  let s ← t.shipments[i]?
  let delivery ← t.outcome s
  return {t with shipments := t.shipments.eraseIdx i, arrivals := t.arrivals ++ [⟨s.tag,t.now,delivery⟩]}

instance : Lively Traffic Nat where
  now := Traffic.now
  moveTo now t := {t with now}
  moves t := List.range t.shipments.length
  perform := finish
  due t := (t.shipments.map Shipment.due).min?

def dispatch (tag : Option String) (origin target : Address) (request : Request) (timeout : Nat)
    (t : Traffic) : Traffic :=
  match t.network.route origin target with
  | .error e => {t with arrivals := t.arrivals ++ [⟨tag,t.now,.error e⟩]}
  | .ok r => {t with
      begun := t.begun.put r.name ((t.begun.find? r.name).getD 0+1)
      shipments := t.shipments ++ [⟨tag,origin,target,t.now+timeout,t.now+Time.wait r.delay,r.answer request⟩]}

def sendTagged (tag : String) (origin target : Address) (request : Request) (timeout : Nat) (t : Traffic) :
    Traffic :=
  Schedule.settle (t.dispatch (some tag) origin target request timeout)

def send (origin target : Address) (request : Request) (timeout : Nat) (t : Traffic) :
    Option Delivery × Traffic :=
  let sent := Schedule.settle (t.dispatch none origin target request timeout)
  let after := match sent.shipments.find? fun s => s.tag = none with
    | none => sent
    | some s => Schedule.runUntil (Time.wake s.due) sent
  ((after.arrivals.find? fun a => a.tag = none).map Arrival.delivery,
    {after with arrivals := after.arrivals.filter fun a => a.tag ≠ none})

def release (name : String) (t : Traffic) : Traffic :=
  match t.guards.find? name with
  | none => t
  | some g =>
    let (spent,network) := g.finish t.network
    {t with network, guards := t.guards.put name spent}

-- A name that is taken over lets go of what it held.
def register (r : Responder) (address : Address) (t : Traffic) : Option TransportError × Traffic :=
  match t.network.register address r with
  | .error e => (some e,t)
  | .ok (g,network) =>
    let freed := {t with network}.release r.name
    (none,{freed with guards := freed.guards.put r.name g, begun := freed.begun.put r.name 0})

def reshape (f : Network Responder → Network Responder) (t : Traffic) : Traffic :=
  Schedule.settle {t with network := f t.network}

def run (ms : Nat) (t : Traffic) : Traffic := Schedule.run ms t

def told (t : Traffic) : Traffic := {t with arrivals := []}

end Traffic
end LeaderElection
