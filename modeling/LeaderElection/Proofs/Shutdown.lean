import LeaderElection.Proofs.Desk.Basic
import LeaderElection.Proofs.Feed
import LeaderElection.Proofs.Roster
import LeaderElection.Station

namespace LeaderElection

-- A request under way to a peer.
structure Task where
  peer : NodeId
  exchange : Exchange

def Task.report (delivery : Delivery) (t : Task) : Event Nat := t.exchange.report t.peer delivery

-- A member on duty, the requests it has under way, and somebody who listens to its changes.
structure Duty where
  now : Nat
  station : Station
  tasks : List Task
  reader : Reader

-- Anything may come from outside, and a request under way may end anyhow, both at any time. The detector
-- is its owner's as well, who does with it what he likes.
inductive Incident where
  | pass (instant : Nat)
  | post (e : Event Nat)
  | finish (task : Nat) (delivery : Delivery)
  | take (draw : Nat)
  | wake (draw : Nat)
  | tend (f : Detector → Detector)
  | release
  | read

def Deed.call? : Deed → Option Call
  | .call _ _ c => some c
  | .wake _ _ => none

-- What one who reads finds before the end.
def Reader.unseen {α : Type} (f : Feed α) (r : Reader) : List (Reading α) :=
  if r.seen < f.count then [.fresh f.latest] else []

-- A stretch of a node's life: what waited and what was let in since has been handled from the front, each
-- event by its own call, and is left otherwise.
structure Stretch (n : Node) (waiting queued handled : List (Event Nat)) (deeds : List Deed) (m : Node)
    (left : List (Event Nat)) : Prop where
  node : m = n.run deeds
  events : waiting ++ queued = handled ++ left
  calls : deeds.filterMap Deed.call? = handled.filterMap Event.call?

theorem Stretch.trans {n : Node} (one : Stretch n waiting queued handled deeds m left)
    (two : Stretch m left queued' handled' deeds' last left') :
    Stretch n waiting (queued ++ queued') (handled ++ handled') (deeds ++ deeds') last left' := by
  refine ⟨?_,?_,?_⟩
  · rw [two.node,one.node,Node.run_append]
  · rw [← List.append_assoc,one.events,List.append_assoc,two.events,List.append_assoc]
  · rw [List.filterMap_append,List.filterMap_append,one.calls,two.calls]

theorem Stretch.still (n : Node) (waiting : List (Event Nat)) : Stretch n waiting [] [] [] n waiting :=
  ⟨rfl,List.append_nil _,rfl⟩

namespace Duty

def opened (start first : Nat) (roster : Roster) (timings : Timings) (patience : Nat) (reader : Reader) : Duty :=
  ⟨start,.create start first roster timings patience,[],reader⟩

def mailbox (d : Duty) : Mailbox Nat := d.station.mailbox

def start (d : Duty) (s : Dispatch) : Task :=
  ⟨s.peer.id,.start d.now ((d.station.timings?.map Timings.rpc).getD 0) s.request⟩

-- What comes for the node, whether it is let in or not.
def comes : Incident → Duty → Option (Event Nat)
  | .post e,_ => some e
  | .finish i delivery,d => d.tasks[i]?.map (Task.report delivery)
  | .wake draw,d => (d.mailbox.wake d.now draw).bind fun woken => woken.2.map .alarm
  | _,_ => none

def welcomes (e : Event Nat) (d : Duty) : Bool := (d.mailbox.post e).isSome

def queued (x : Incident) (d : Duty) : List (Event Nat) := (d.comes x).toList.filter fun e => d.welcomes e

def handled : Incident → Duty → List (Event Nat)
  | .take _,d => (d.mailbox.node?.bind fun _ => d.mailbox.events.head?).toList
  | _,_ => []

def receipts : Incident → Duty → List (Nat × Receipt)
  | .take draw,d => ((d.mailbox.take d.now draw).map Turn.receipts).getD []
  | x,d => ((d.comes x).toList.filter fun e => !d.welcomes e).flatMap Event.refused

def started : Incident → Duty → List Task
  | .take draw,d => ((d.mailbox.take d.now draw).map fun t => t.sends.map d.start).getD []
  | _,_ => []

def ended : Incident → Duty → List Task
  | .finish i _,d => d.tasks[i]?.toList
  | _,_ => []

def tends : Incident → Duty → List (Detector → Detector)
  | .tend f,_ => [f]
  | _,_ => []

def readings : Incident → Duty → List (Reading Snapshot)
  | .read,d => [(d.reader.read d.mailbox.feed).1]
  | _,_ => []

-- What happens to the node itself.
def deeds : Incident → Duty → List Deed
  | .take draw,d => (d.mailbox.events.head?.bind Event.call?).toList.map (.call d.now draw)
  | .wake draw,d => [.wake d.now draw]
  | _,_ => []

def welcome (come : Option (Event Nat)) (d : Duty) : Duty :=
  {d with station := {d.station with mailbox := (come.bind fun e => d.mailbox.post e).getD d.mailbox}}

def does : Incident → Duty → Duty
  | .pass instant,d => {d with now := instant}
  | .post e,d => d.welcome (d.comes (.post e))
  | .finish i delivery,d => {d.welcome (d.comes (.finish i delivery)) with tasks := d.tasks.eraseIdx i}
  | .take draw,d => {d with
      station := ((d.station.take d.now draw).map Prod.snd).getD d.station
      tasks := d.tasks ++ d.started (.take draw)}
  | .wake draw,d => {d with
      station := {d.station with mailbox := ((d.mailbox.wake d.now draw).map Prod.fst).getD d.mailbox}}
  | .tend f,d => {d with station := {d.station with detector := f d.station.detector}}
  | .release,d => {d with station := {d.station with mailbox := d.mailbox.release}}
  | .read,d => {d with reader := (d.reader.read d.mailbox.feed).2}

def run : List Incident → Duty → Duty
  | [],d => d
  | x :: rest,d => run rest (d.does x)

-- What is told of each incident, for all of a run.
def along {α : Type} (tells : Incident → Duty → List α) : List Incident → Duty → List α
  | [],_ => []
  | x :: rest,d => tells x d ++ along tells rest (d.does x)

variable {α β : Type} {d : Duty} {n : Node}

theorem run_append (before after : List Incident) (d : Duty) : d.run (before ++ after) = (d.run before).run after := by
  induction before generalizing d with
  | nil => rfl
  | cons x rest ih => exact ih (d.does x)

theorem along_append (tells : Incident → Duty → List α) (before after : List Incident) (d : Duty) :
    d.along tells (before ++ after) = d.along tells before ++ (d.run before).along tells after := by
  induction before generalizing d with
  | nil => rfl
  | cons x rest ih => simp only [List.cons_append,along,run,ih,List.append_assoc]

theorem node_parts (running : d.mailbox.node? = some n) :
    ∃ now events held detector tasks reader, d = ⟨now,⟨⟨.running n,events,held⟩,detector⟩,tasks,reader⟩ := by
  obtain ⟨now,⟨mailbox,detector⟩,tasks,reader⟩ := d
  have same : mailbox = ⟨.running n,mailbox.events,mailbox.held⟩ := Mailbox.node_exact.mp running
  exact ⟨now,mailbox.events,mailbox.held,detector,tasks,reader,by rw [same]⟩

theorem does_take {turn : Turn Nat} {station : Station} (taken : d.station.take d.now draw = some (turn,station)) :
    d.does (.take draw) = {d with station, tasks := d.tasks ++ turn.sends.map d.start} := by
  obtain ⟨handled,took,same⟩ := Option.map_eq_some_iff.mp taken
  have begun : d.started (.take draw) = turn.sends.map d.start := by
    cases same
    rw [started,mailbox,took]
    rfl
  rw [does,begun,taken]
  rfl

-- What comes to a running node is let in as long as somebody holds it.
theorem welcome_stretch (running : d.mailbox.node? = some n) (come : Option (Event Nat)) :
    (d.welcome come).mailbox.node? = some n ∧
      Stretch n d.mailbox.events (come.toList.filter fun e => d.welcomes e) [] [] n
        (d.welcome come).mailbox.events := by
  obtain ⟨now,events,held,detector,tasks,reader,rfl⟩ := node_parts running
  cases come with
  | none => exact ⟨rfl,.still n events⟩
  | some e =>
      cases held with
      | true => exact ⟨rfl,rfl,rfl,rfl⟩
      | false => exact ⟨rfl,rfl,List.append_nil events,rfl⟩

theorem take_stretch (running : d.mailbox.node? = some n) (after : (d.does (.take draw)).mailbox.node? = some m) :
    Stretch n d.mailbox.events [] (d.handled (.take draw)) (d.deeds (.take draw)) m
      (d.does (.take draw)).mailbox.events := by
  obtain ⟨now,events,held,detector,tasks,reader,rfl⟩ := node_parts running
  cases events with
  | nil =>
      cases held with
      | true =>
          cases after
          exact .still n []
      | false => cases after
  | cons e rest =>
      have took : (does (.take draw) ⟨now,⟨⟨.running n,e :: rest,held⟩,detector⟩,tasks,reader⟩).mailbox =
        (Mailbox.handle now draw n e rest held).mailbox := rfl
      have deed : deeds (.take draw) ⟨now,⟨⟨.running n,e :: rest,held⟩,detector⟩,tasks,reader⟩ =
        e.call?.toList.map (.call now draw) := rfl
      rw [took] at after ⊢
      rw [deed]
      cases calls : e.call? with
      | some c =>
          have called : [Deed.call now draw c].filterMap Deed.call? = [e].filterMap Event.call? := by
            simp [Deed.call?,calls]
          rw [(Mailbox.handle_call calls now draw n rest held).1] at after ⊢
          cases after
          exact ⟨rfl,List.append_nil _,called⟩
      | none =>
          have uncalled : [] = [e].filterMap Event.call? := by simp [calls]
          rcases (Mailbox.handle_other calls now draw n rest held).1 with same | gone
          · rw [same] at after ⊢
            cases after
            exact ⟨rfl,List.append_nil _,uncalled⟩
          · rw [gone] at after
            cases after

theorem wake_stretch (running : d.mailbox.node? = some n) (after : (d.does (.wake draw)).mailbox.node? = some m) :
    Stretch n d.mailbox.events (d.queued (.wake draw)) [] (d.deeds (.wake draw)) m
      (d.does (.wake draw)).mailbox.events := by
  obtain ⟨now,events,held,detector,tasks,reader,rfl⟩ := node_parts running
  have woke : (does (.wake draw) ⟨now,⟨⟨.running n,events,held⟩,detector⟩,tasks,reader⟩).mailbox =
    ((Mailbox.wake now draw ⟨.running n,events,held⟩).map Prod.fst).getD ⟨.running n,events,held⟩ := rfl
  have came : queued (.wake draw) ⟨now,⟨⟨.running n,events,held⟩,detector⟩,tasks,reader⟩ =
    ((Mailbox.wake now draw ⟨.running n,events,held⟩).bind fun woken => woken.2.map .alarm).toList.filter
      fun e => welcomes e ⟨now,⟨⟨.running n,events,held⟩,detector⟩,tasks,reader⟩ := rfl
  rw [woke,Mailbox.wake_running] at after ⊢
  rw [came,Mailbox.wake_running]
  cases rung : n.wake now draw with
  | none =>
      rw [rung] at after
      cases after
      refine ⟨?_,List.append_nil _,rfl⟩
      simp [deeds,Node.run,Node.does,rung]
  | some result =>
      obtain ⟨next,alarm⟩ := result
      rw [rung] at after
      cases after
      refine ⟨?_,?_,rfl⟩
      · simp [deeds,Node.run,Node.does,rung]
      · cases held with
        | true => cases alarm <;> rfl
        | false => cases alarm <;> exact List.append_nil events

theorem post_exited (exited : d.mailbox.loop = .exited f) (e : Event Nat) : d.mailbox.post e = none := by
  simp [Mailbox.post,Mailbox.node?,exited]

theorem welcome_exited (exited : d.mailbox.loop = .exited f) (come : Option (Event Nat)) : d.welcome come = d := by
  cases come with
  | none => rfl
  | some e =>
      rw [welcome,Option.bind_some,post_exited exited]
      rfl

theorem take_exited (exited : d.mailbox.loop = .exited f) (draw : Nat) : d.mailbox.take d.now draw = none := by
  unfold Mailbox.take
  rw [exited]

theorem wake_exited (exited : d.mailbox.loop = .exited f) (draw : Nat) : d.mailbox.wake d.now draw = none := by
  unfold Mailbox.wake
  rw [exited]

-- The detector is used by its owner only once the node is gone.
theorem does_exited (exited : d.mailbox.loop = .exited f) (x : Incident) :
    (d.does x).mailbox.loop = .exited f ∧
      (d.does x).station.detector = (d.tends x).foldl (fun kept f => f kept) d.station.detector := by
  cases x with
  | post e =>
      rw [does,welcome_exited exited]
      exact ⟨exited,rfl⟩
  | finish i delivery =>
      rw [does,welcome_exited exited]
      exact ⟨exited,rfl⟩
  | take draw =>
      have still : d.station.take d.now draw = none := Option.map_eq_none_iff.mpr (take_exited exited draw)
      rw [does,still]
      exact ⟨exited,rfl⟩
  | wake draw =>
      rw [does,wake_exited exited]
      exact ⟨exited,rfl⟩
  | _ => exact ⟨exited,rfl⟩

-- While a node runs, what has come to it has been handled in turn so far, and nothing else.
theorem does_stretch (after : (d.does x).mailbox.node? = some m) : ∃ n, d.mailbox.node? = some n ∧
    Stretch n d.mailbox.events (d.queued x) (d.handled x) (d.deeds x) m (d.does x).mailbox.events := by
  cases present : d.mailbox.node? with
  | none =>
      have exited := (does_exited (Mailbox.stopped_loop.mp present) x).1
      simp [Mailbox.node?,exited] at after
  | some n =>
      refine ⟨n,rfl,?_⟩
      cases x with
      | post e =>
          obtain ⟨still,stretch⟩ := welcome_stretch present (some e)
          cases still.symm.trans after
          exact stretch
      | finish i delivery =>
          obtain ⟨still,stretch⟩ := welcome_stretch present (d.comes (.finish i delivery))
          cases still.symm.trans after
          exact stretch
      | take draw => exact take_stretch present after
      | wake draw => exact wake_stretch present after
      | _ =>
          cases present.symm.trans after
          exact .still _ _

-- A node is what its deeds have made of it, and each call among them is an event it has handled.
structure Lived (fresh : Node) (begun : Duty) (before : List Incident) (n : Node) : Prop where
  node : n = fresh.run (begun.along deeds before)
  calls : (begun.along deeds before).filterMap Deed.call? = (begun.along handled before).filterMap Event.call?

-- Those that wait behind a shutdown, or come after it.
def late (behind : List (Event Nat)) (later : List Incident) (gone : Duty) : List (Event Nat) :=
  behind ++ gone.along (fun x d => (d.comes x).toList) later

-- Whoever asked for the shutdown is told, and all of those that are late are turned away.
structure Told (begun : Duty) (before later : List Incident) (asker draw : Nat) (refused : List (Nat × Receipt)) : Prop where
  receipts : begun.along receipts (before ++ .take draw :: later) =
    begun.along receipts before ++ (asker,.down) :: refused
  stopped : ∀ r ∈ refused, r.2 = .stopped ∧ r.2.reply = .error stoppedMessage

end Duty
end LeaderElection
