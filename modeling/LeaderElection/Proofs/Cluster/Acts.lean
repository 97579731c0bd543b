import LeaderElection.Proofs.Cluster.View
import LeaderElection.Proofs.Creation
import LeaderElection.Proofs.Mailbox
import LeaderElection.Simulation.Cluster.Owner
import Mathlib.Data.Option.Basic
import Mathlib.Logic.Relation

namespace LeaderElection

open Relation

theorem Guard.finish_exact {η : Type} (g : Guard) (net : Network η) : g.finish net = (⟨g.address,false⟩,
    if g.armed then {net with handlers := net.handlers.remove g.address} else net) := by
  obtain ⟨a,armed⟩ := g
  cases armed <;> rfl

-- A member that its owner has just come by.
def Resident.fresh (id : NodeId) (guard : Guard) (station : Station) : Resident :=
  ⟨id,guard,station,true,.join station.mailbox.feed,.join station.mailbox.feed,false⟩

-- What becomes of a member without its owner: it is posted to, its node and its detector do what is due, its loop
-- breaks down, and its listener hears of it.
inductive Resident.Goes : Resident → Resident → Prop where
  | posted (posted : r.station.mailbox.post e = some m) : Goes r {r with station := {r.station with mailbox := m}}
  | took (took : r.station.take now draw = some (turn,s)) : Goes r {r with station := s}
  | woken (woken : r.station.mailbox.wake now draw = some (m,alarm)) :
      Goes r {r with station := {r.station with mailbox := m}}
  | polled (polled : r.station.detector.wake now = some survey) :
      Goes r {r with station := {r.station with detector := survey.detector}}
  | fell {n : Node} (running : r.station.mailbox.node? = some n) : Goes r {r with station := {r.station with
      mailbox := (Mailbox.exit n r.station.mailbox.events [] r.station.mailbox.held).mailbox}}
  | heard (listener : Reader) (ended : Bool) : Goes r {r with listener, ended}

-- Only an owner ends a guard or lets go of a mailbox.
theorem Resident.Goes.kept {r r' : Resident} (goes : r.Goes r') :
    r'.guard = r.guard ∧ r'.station.mailbox.held = r.station.mailbox.held := by
  cases goes with
  | posted posted =>
      obtain ⟨_,_,rfl⟩ := Mailbox.post_parts posted
      exact ⟨rfl,rfl⟩
  | took took =>
      obtain ⟨taken,mailbox⟩ := Station.take_parts took
      exact ⟨rfl,(congrArg Mailbox.held mailbox).trans (Mailbox.take_held taken)⟩
  | woken woken =>
      obtain ⟨_,_,_,_,rfl⟩ := Mailbox.wake_parts woken
      exact ⟨rfl,rfl⟩
  | polled => exact ⟨rfl,rfl⟩
  | fell => exact ⟨rfl,rfl⟩
  | heard => exact ⟨rfl,rfl⟩

namespace Cluster

-- Whatever can happen to a cluster, one thing at a time. Others may use the network and post what they like,
-- owners use the detectors they share, and a loop may break down.
inductive Act where
  | move (m : Move)
  | pass (instant : Nat)
  | post (serial : Nat) (e : Event Nat)
  | send (origin target : Address) (request : Request) (timeout : Nat)
  | answer (receipts : List (Nat × Receipt))
  | sever (f : Partition → Partition)
  | occupy (a : Address)
  | vacate (a : Address)
  | adjust (serial : Nat) (f : Detector → Detector)
  | fall (serial : Nat)
  | found (config : Config)
  | close (serial : Nat)
  | abandon (serial : Nat)

def launch (config : Config) (c : Cluster) : Except CreationError (Roster × Station × Guard × Network Nat) :=
  config.launch (fun a => c.network.register a c.counter) c.now (c.draws.within config.options.filled.timings.election)

-- Somebody else's handler, which is no member of the cluster.
def occupy (a : Address) (c : Cluster) : Cluster :=
  match c.network.register a c.counter with
  | .error _ => c
  | .ok (_,network) => {c with network, counter := c.counter+1}

def vacate (a : Address) (c : Cluster) : Cluster :=
  match (c.network.handlers.find? a).bind c.residents.find? with
  | none => {c with network := {c.network with handlers := c.network.handlers.remove a}}
  | some _ => c

def adjust (serial : Nat) (f : Detector → Detector) (c : Cluster) : Cluster :=
  c.change serial fun r => {r with station := {r.station with detector := f r.station.detector}}

-- A loop that breaks down takes its node with it, as one that exits does.
def fall (serial : Nat) (c : Cluster) : Cluster :=
  match c.residents.find? serial with
  | none => c
  | some r => match r.station.mailbox.node? with
    | none => c
    | some n =>
      let turn := Mailbox.exit n r.station.mailbox.events [] r.station.mailbox.held
      (c.setStation serial {r.station with mailbox := turn.mailbox}).answer turn.receipts

-- A member comes to be where its launch succeeds.
def found (config : Config) (c : Cluster) : Cluster :=
  match c.launch config with
  | .error _ => c
  | .ok (_,station,guard,network) =>
    {c with
      network
      residents := c.residents.put c.counter (.fresh config.me guard station)
      serials := c.serials.put config.me c.counter
      counter := c.counter+1
      draws := c.draws.next}

-- The first part of a shutdown. What remains is for when the loop has stopped.
def close (serial : Nat) (c : Cluster) : Cluster :=
  match c.residents.find? serial with
  | none => c
  | some r =>
    let (guard,network) := r.guard.finish c.network
    {c.change serial fun r => {r with guard} with network, counter := c.counter+1}.post serial (.shutdown c.counter)

def rest (serial : Nat) (c : Cluster) : Cluster := c.change serial fun r => {r with station := r.station.rest}

def does : Act → Cluster → Cluster
  | .move m,c => (perform m c).getD c
  | .pass instant,c => if c.now ≤ instant then {c with now := instant} else c
  | .post serial e,c => c.post serial e
  | .send origin target request timeout,c => c.dispatch .outsider origin target request timeout
  | .answer receipts,c => c.answer receipts
  | .sever f,c => {c with network := {c.network with partition := f c.network.partition}}
  | .occupy a,c => c.occupy a
  | .vacate a,c => c.vacate a
  | .adjust serial f,c => c.adjust serial f
  | .fall serial,c => c.fall serial
  | .found config,c => c.found config
  | .close serial,c => c.close serial
  | .abandon serial,c => c.abandon serial

def live : List Act → Cluster → Cluster
  | [],c => c
  | x :: rest,c => live rest (c.does x)

-- As far as owners and the handlers of a network can tell.
structure Goes (c next : Cluster) : Prop where
  handlers : next.network.handlers = c.network.handlers
  residents : ∀ s, Option.Rel (ReflTransGen Resident.Goes) (c.residents.find? s) (next.residents.find? s)
  counter : c.counter ≤ next.counter
  tickets : (∀ p ∈ c.passages, p.ticket < c.counter) → ∀ p ∈ next.passages, p.ticket < next.counter

variable {c mid next : Cluster} {s : Nat} {r : Resident}

-- Where nothing happens to a member.
theorem Goes.beside (handlers : next.network.handlers = c.network.handlers) (residents : next.residents = c.residents)
    (counter : c.counter ≤ next.counter) (passages : next.passages ⊆ c.passages) : c.Goes next := by
  refine ⟨handlers,?_,counter,?_⟩
  · intro s
    rw [residents]
    generalize c.residents.find? s = lives
    cases lives with
    | none => exact .none
    | some r => exact .some .refl
  · exact fun earlier p present => Nat.lt_of_lt_of_le (earlier p (passages present)) counter

theorem Goes.refl (c : Cluster) : c.Goes c := .beside rfl rfl (Nat.le_refl _) (List.Subset.refl _)

theorem Goes.trans (first : c.Goes mid) (second : mid.Goes next) : c.Goes next := by
  refine ⟨second.handlers.trans first.handlers,?_,Nat.le_trans first.counter second.counter,second.tickets ∘ first.tickets⟩
  intro s
  have one := first.residents s
  have two := second.residents s
  generalize c.residents.find? s = early, mid.residents.find? s = between, next.residents.find? s = late at one two ⊢
  cases one with
  | none => exact two
  | some before =>
      cases two with
      | some after => exact .some (before.trans after)

theorem change_exact (lives : c.residents.find? s = some r) (f : Resident → Resident) :
    c.change s f = {c with residents := c.residents.put s (f r)} := by
  unfold change
  rw [lives]

theorem change_goes (lives : c.residents.find? s = some r) {f : Resident → Resident} (goes : r.Goes (f r)) :
    c.Goes (c.change s f) := by
  rw [change_exact lives]
  refine ⟨rfl,?_,Nat.le_refl _,id⟩
  intro other
  dsimp only
  rw [Directory.find?_put]
  by_cases same : other = s
  · rw [same,lives,Function.update_self]
    exact .some (.single goes)
  · rw [Function.update_of_ne same]
    exact (Goes.refl c).residents other

theorem answer_goes (receipts : List (Nat × Receipt)) (c : Cluster) : c.Goes (c.answer receipts) := by
  refine ⟨rfl,(Goes.refl c).residents,Nat.le_refl _,?_⟩
  intro earlier p present
  obtain ⟨q,listed,rfl⟩ := List.mem_map.mp present
  have ticket := earlier q listed
  split <;> exact ticket

theorem post_goes (s : Nat) (e : Event Nat) (c : Cluster) : c.Goes (c.post s e) := by
  unfold post
  cases posted : c.accepted? s e with
  | none => exact answer_goes e.refused c
  | some next =>
      simp only [accepted?,Option.bind_eq_bind,Option.bind_eq_some_iff] at posted
      obtain ⟨r,lives,m,posted,same⟩ := posted
      cases same
      exact change_goes lives (.posted posted)

theorem conclude_goes (p : Passage) (delivery : Delivery) (c : Cluster) : c.Goes (c.conclude p delivery) := by
  have told : c.Goes {c with passed := c.passed ++ [⟨p.sender,p.origin,p.target,p.exchange,delivery⟩]} :=
    .beside rfl rfl (Nat.le_refl _) (List.Subset.refl _)
  unfold conclude
  dsimp only
  split
  · exact told
  · exact told.trans (post_goes _ _ _)

theorem dispatch_goes (sender : Sender) (origin target : Address) (request : Request) (timeout : Nat) (c : Cluster) :
    c.Goes (c.dispatch sender origin target request timeout) := by
  have counted : c.Goes {c with counter := c.counter+1} := .beside rfl rfl (Nat.le_succ _) (List.Subset.refl _)
  unfold dispatch
  cases c.network.route origin target with
  | error e => exact counted.trans (conclude_goes _ (.error e) _)
  | ok receiver =>
      refine Goes.trans ?_ (post_goes receiver _ _)
      refine ⟨rfl,counted.residents,Nat.le_succ _,?_⟩
      intro earlier
      refine List.forall_mem_append.mpr ⟨counted.tickets earlier,List.forall_mem_singleton.mpr ?_⟩
      exact Nat.lt_succ_self c.counter

theorem dispatches_goes (sends : List Dispatch) (origin : Address) (timeout : Nat) (c : Cluster) :
    c.Goes (sends.foldl (fun c d => c.dispatch (.resident s d.peer.id) origin d.peer.address d.request timeout) c) := by
  induction sends generalizing c with
  | nil => exact .refl c
  | cons d rest ih => exact (dispatch_goes _ _ _ _ _ c).trans (ih _)

-- A turn is one member's, and whatever else it comes to is posted.
theorem take_goes (taken : c.take s = some next) : ∃ r turn station now draw, ∃ mid : Cluster,
    c.residents.find? s = some r ∧ r.station.take now draw = some (turn,station) ∧ c.Goes mid ∧
    mid.residents.find? s = some {r with station} ∧ mid.Goes next := by
  unfold take at taken
  simp only [Option.bind_eq_bind,Option.bind_eq_some_iff] at taken
  obtain ⟨r,lives,timings,_,⟨turn,station⟩,took,same⟩ := taken
  cases same
  have goes : c.Goes {c.setStation s station with draws := c.draws.next} :=
    (change_goes lives (.took took)).trans (.beside rfl rfl (Nat.le_refl _) (List.Subset.refl _))
  refine ⟨r,turn,station,c.now,_,_,lives,took,goes,?_,(answer_goes turn.receipts _).trans (dispatches_goes _ _ _ _)⟩
  rw [setStation,change_exact lives]
  simp [Directory.find?_put]

theorem perform_goes {m : Move} (performed : perform m c = some next) : c.Goes next := by
  cases m with
  | finish i =>
      obtain ⟨p,_,delivery,_,rfl⟩ := finish_view performed
      refine Goes.trans ?_ (conclude_goes p delivery _)
      exact .beside rfl rfl (Nat.le_refl _) (List.eraseIdx_subset ..)
  | poll s =>
      simp only [perform,poll,Option.bind_eq_bind,Option.bind_eq_some_iff] at performed
      obtain ⟨r,lives,survey,polled,same⟩ := performed
      cases same
      exact (change_goes lives (.polled polled)).trans (.beside rfl rfl (Nat.le_refl _) (List.Subset.refl _))
  | wake s =>
      simp only [perform,wake,Option.bind_eq_bind,Option.bind_eq_some_iff] at performed
      obtain ⟨r,lives,⟨m,alarm⟩,woken,same⟩ := performed
      cases same
      exact (change_goes lives (.woken woken)).trans (.beside rfl rfl (Nat.le_refl _) (List.Subset.refl _))
  | take s =>
      obtain ⟨_,_,_,_,_,_,_,_,before,_,after⟩ := take_goes performed
      exact before.trans after
  | listen s =>
      simp only [perform,listen,Option.bind_eq_bind,Option.bind_eq_some_iff] at performed
      obtain ⟨r,lives,heard⟩ := performed
      split at heard
      · cases heard
      · cases heard
        exact (change_goes lives (.heard _ _)).trans (.beside rfl rfl (Nat.le_refl _) (List.Subset.refl _))

theorem fall_goes (s : Nat) (c : Cluster) : c.Goes (c.fall s) := by
  unfold fall
  split
  · exact .refl c
  · next r lives =>
      split
      · exact .refl c
      · next n running => exact (change_goes lives (.fell running)).trans (answer_goes _ _)

theorem Goes.back (goes : c.Goes next) (lives : next.residents.find? s = some r) :
    ∃ before, c.residents.find? s = some before ∧ ReflTransGen Resident.Goes before r := by
  have meets := goes.residents s
  rw [lives] at meets
  generalize c.residents.find? s = early at meets
  cases meets with
  | some chain => exact ⟨_,rfl,chain⟩

theorem Goes.forth (goes : c.Goes next) (lives : c.residents.find? s = some r) :
    ∃ after, next.residents.find? s = some after ∧ ReflTransGen Resident.Goes r after := by
  have meets := goes.residents s
  rw [lives] at meets
  generalize next.residents.find? s = late at meets
  cases meets with
  | some chain => exact ⟨_,rfl,chain⟩

theorem chain_kept {r r' : Resident} (chain : ReflTransGen Resident.Goes r r') :
    r'.guard = r.guard ∧ r'.station.mailbox.held = r.station.mailbox.held := by
  induction chain with
  | refl => exact ⟨rfl,rfl⟩
  | tail _ goes ih => exact ⟨goes.kept.1.trans ih.1,goes.kept.2.trans ih.2⟩

theorem launch_launched (config : Config) (c : Cluster) : config.Launched c.network c.counter c.now
    (c.draws.within config.options.filled.timings.election) (c.launch config) :=
  Config.launch_launched config c.network c.counter c.now _

theorem close_exact (lives : c.residents.find? s = some r) : c.close s = Cluster.post s (.shutdown c.counter)
    {c with
      network := (r.guard.finish c.network).2
      residents := c.residents.put s {r with guard := ⟨r.guard.address,false⟩}
      counter := c.counter+1} := by
  unfold Cluster.close
  simp only [lives,change_exact lives,Guard.finish_exact]

theorem abandon_exact (lives : c.residents.find? s = some r) : c.abandon s = {c with
    network := (r.guard.finish c.network).2
    residents := c.residents.put s {r with
      guard := ⟨r.guard.address,false⟩
      station := ⟨r.station.mailbox.release,r.station.detector.release⟩
      owned := false}} := by
  unfold Cluster.abandon
  simp only [lives,change_exact lives,Guard.finish_exact]

-- All that an act can come to. One that finds nothing to do is as good as none.
inductive Effect (c : Cluster) : Act → Cluster → Prop where
  | goes {after : Cluster} (goes : c.Goes after) : Effect c x after
  | occupied (free : c.network.handlers.find? a = none) : Effect c (.occupy a)
      {c with network := {c.network with handlers := c.network.handlers.put a c.counter}, counter := c.counter+1}
  | vacated (foreign : (c.network.handlers.find? a).bind c.residents.find? = none) : Effect c (.vacate a)
      {c with network := {c.network with handlers := c.network.handlers.remove a}}
  | adjusted {member : Resident} (lives : c.residents.find? serial = some member) : Effect c (.adjust serial f) {c with
      residents := c.residents.put serial
        {member with station := {member.station with detector := f member.station.detector}}}
  | founded (accepted : Roster.ofMembers config.me config.members = .ok roster)
      (free : c.network.handlers.find? roster.address = none) (held : station.mailbox.held = true)
      (home : ∀ n, station.mailbox.node? = some n → n.roster = roster) :
      Effect c (.found config) {c with
        network := {c.network with handlers := c.network.handlers.put roster.address c.counter}
        residents := c.residents.put c.counter (.fresh config.me ⟨roster.address,true⟩ station)
        serials := c.serials.put config.me c.counter
        counter := c.counter+1
        draws := c.draws.next}
  | closed (lives : c.residents.find? serial = some member) : Effect c (.close serial) (c.close serial)
  | abandoned (lives : c.residents.find? serial = some member) : Effect c (.abandon serial) (c.abandon serial)

variable {x : Act}

theorem does_effect (x : Act) (c : Cluster) : c.Effect x (c.does x) := by
  have still {x : Act} : c.Effect x c := .goes (.refl c)
  cases x with
  | move m =>
      rw [does]
      cases performed : perform m c with
      | none => exact still
      | some next => exact .goes (perform_goes performed)
  | pass instant =>
      rw [does]
      split
      · exact .goes (.beside rfl rfl (Nat.le_refl _) (List.Subset.refl _))
      · exact still
  | post s e => exact .goes (post_goes s e c)
  | send origin target request timeout => exact .goes (dispatch_goes _ _ _ _ _ c)
  | answer receipts => exact .goes (answer_goes receipts c)
  | sever f => exact .goes (.beside rfl rfl (Nat.le_refl _) (List.Subset.refl _))
  | occupy a =>
      rw [does,occupy]
      cases registered : c.network.register a c.counter with
      | error e => exact still
      | ok placed =>
          obtain ⟨free,_,network⟩ := Network.register_parts registered
          dsimp only
          rw [network]
          exact .occupied free
  | vacate a =>
      rw [does,vacate]
      split
      · next foreign => exact .vacated foreign
      · exact still
  | adjust s f =>
      rw [does,adjust]
      cases lives : c.residents.find? s with
      | none =>
          rw [change,lives]
          exact still
      | some r =>
          rw [change_exact lives]
          exact .adjusted lives
  | fall s => exact .goes (fall_goes s c)
  | found config =>
      rw [does,found]
      have launched := launch_launched config c
      generalize c.launch config = made at launched
      cases launched with
      | made valid accepted free =>
          refine .founded accepted free rfl ?_
          intro n running
          cases running
          rfl
      | _ => exact still
  | close s =>
      rw [does]
      cases lives : c.residents.find? s with
      | none =>
          rw [close,lives]
          exact still
      | some r => exact .closed lives
  | abandon s =>
      rw [does]
      cases lives : c.residents.find? s with
      | none =>
          rw [abandon,lives]
          exact still
      | some r => exact .abandoned lives

end Cluster
end LeaderElection
