import LeaderElection.Simulation.Cluster.Basic

namespace LeaderElection.Cluster

-- Lets go of a member: it stops serving, and its loop ends.
def abandon (c : Cluster) (serial : Nat) : Cluster :=
  match c.residents.find? serial with
  | none => c
  | some r =>
    let (g,network) := r.guard.finish c.network
    {c.change serial fun r => {r with
        guard := g
        station := ⟨r.station.mailbox.release,r.station.detector.release⟩
        owned := false} with network}

-- A member started again replaces its predecessor, which is let go once the new one is there.
def start (config : Config) (c : Cluster) : Except CreationError (Roster × Station) × Cluster :=
  let serial := c.counter
  let draw := c.draws.within config.options.filled.timings.election
  match config.launch (fun a => c.network.register a serial) c.now draw with
  | .error e => (.error e,c)
  | .ok (roster,station,g,network) =>
    let feed := station.mailbox.feed
    let placed := {c with network}
    let cleared := (c.serial? config.me).elim placed placed.abandon
    (.ok (roster,station),Schedule.settle {cleared with
      residents := cleared.residents.put serial ⟨config.me,g,station,true,.join feed,.join feed,false⟩
      serials := cleared.serials.put config.me serial
      counter := serial+1
      draws := c.draws.next})

def shutdown (id : NodeId) (c : Cluster) : Option Cluster :=
  (c.owned? id).map fun (serial,r) =>
    let (g,network) := r.guard.finish c.network
    let closing := {c.change serial fun r => {r with guard := g} with network, counter := c.counter+1}
    let stopped := Schedule.settle (closing.post serial (.shutdown c.counter))
    Schedule.settle (stopped.change serial fun r => {r with station := r.station.rest})

def drop (id : NodeId) (c : Cluster) : Cluster :=
  match c.owned? id with
  | none => c
  | some (serial,_) => Schedule.settle (c.abandon serial)

def reshape (f : Network Nat → Network Nat) (c : Cluster) : Cluster :=
  Schedule.settle {c with network := f c.network}

def run (ms : Nat) (c : Cluster) : Cluster := Schedule.run ms c

def send (origin target : Address) (request : Request) (timeout : Nat) (c : Cluster) :
    Option Delivery × Cluster :=
  let sent := Schedule.settle (c.dispatch .outsider origin target request timeout)
  let after :=
    if sent.passages.any fun p => p.sender = .outsider then
      Schedule.runUntil (Time.wake (c.now+timeout)) sent
    else sent
  ((after.passed.find? fun p => p.sender = .outsider).map Passed.delivery,
    {after with passed := after.passed.filter fun p => p.sender ≠ .outsider})

def nextChange (id : NodeId) (c : Cluster) : Option (Reading Snapshot × Snapshot × Cluster) := do
  let serial ← c.serial? id
  let r ← c.residents.find? serial
  let feed := r.station.mailbox.feed
  let (reading,reader) := r.reader.read feed
  return (reading,feed.latest,c.change serial fun r => {r with reader})

def detector? (id : NodeId) (c : Cluster) : Option Detector :=
  (c.owned? id).map fun e => e.2.station.detector

def tend (id : NodeId) (f : Detector → Detector) (c : Cluster) : Cluster :=
  match c.owned? id with
  | none => c
  | some (serial,r) =>
    Schedule.settle (c.setStation serial {r.station with detector := f r.station.detector})

-- Of every member that has an owner; none for one whose loop has ended.
def statuses (c : Cluster) : List (NodeId × Option Status) :=
  c.residents.entries.filterMap fun e =>
    if e.2.owned then some (e.2.id,e.2.station.mailbox.node?.map Node.status) else none

def told (c : Cluster) : Cluster := {c with passed := [], changes := [], calls := []}

end LeaderElection.Cluster
