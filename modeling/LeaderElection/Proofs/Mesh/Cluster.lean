import LeaderElection.Proofs.Cluster.Homely
import LeaderElection.Proofs.Mesh.View
import LeaderElection.Proofs.Network

namespace LeaderElection

open Relation

namespace Mesh

variable {members : List Member} {c next : Cluster} {a b : Mesh} {s : Nat} {r : Resident} {n : Node} {config : Config}

-- How far the mesh gets while something happens to the cluster and no member comes to be.
def Follows (members : List Member) (a : Mesh) (next : Cluster) : Prop :=
  ∃ b, ReflTransGen (Quiet members) a b ∧ Shows next.counter b next.view

def Begins (members : List Member) (a : Mesh) (next : Cluster) : Prop := ∃ b, Step members a b ∧ Shows next.counter b next.view

theorem Shows.follows (shows : Shows next.counter a next.view) : Follows members a next := ⟨a,.refl,shows⟩

theorem Shows.elsewhen (shows : Shows c.counter a c.view) (instant : Nat) : Follows members a {c with now := instant} :=
  Shows.follows (shows.fewer rfl rfl (List.Subset.refl c.passages))

theorem Follows.after (steps : ReflTransGen (Quiet members) a b) (follows : Follows members b next) :
    Follows members a next := by
  obtain ⟨b',steps',shown⟩ := follows
  exact ⟨b',steps.trans steps',shown⟩

-- A request that has been asked for goes to whoever serves the address it is for, or its sender is told of the
-- failure.
theorem Shows.dispatch (members : List Member) (shows : Shows c.counter a c.view) (d : Dispatch) {origin : Address} (timeout : Nat)
    (asked : ((⟨⟨s,d.peer,d.request⟩,origin⟩,.asked) : Trip × Stage) ∈ a.letters) :
    ∃ b, ReflTransGen (Quiet members) a b ∧ a.letters ⊆ b.letters ∧
      let after := c.dispatch (.resident s d.peer.id) origin d.peer.address d.request timeout
      Shows after.counter b after.view := by
  let l : Trip := ⟨⟨s,d.peer,d.request⟩,origin⟩
  have sent : Quiet members a (a.note l (a.forward l)) := ⟨.send asked,rfl⟩
  have routed : a.network.route origin d.peer.address = c.network.route origin d.peer.address := by rw [shows.network]; rfl
  have posts := Cluster.dispatch_posts s d.peer.id origin d.peer.address d.request timeout c
  dsimp only
  rw [Cluster.dispatch_counter]
  cases found : c.network.route origin d.peer.address with
  | error e =>
      have forward : a.forward l = .ended (.error e) := by simp [Mesh.forward,l,routed,found]
      rw [forward] at sent
      simp only [found] at posts
      have shown := (shows.grows (note_grows a l (.ended (.error e)))).more (Nat.le_succ c.counter)
      obtain ⟨b,steps,grows,after⟩ := shown.posts members
        (.tells (l := l) (.start c.now timeout d.request) rfl List.mem_cons_self rfl)
        (fun k asks => by rw [Exchange.asker_report] at asks; cases asks) posts
      exact ⟨b,.head sent steps,List.Subset.trans (List.subset_cons_self _ _) grows.letters,after⟩
  | ok receiver =>
      have forward : a.forward l = .admitted receiver := by simp [Mesh.forward,l,routed,found]
      rw [forward] at sent
      simp only [found] at posts
      let passage : Passage := ⟨c.counter,.resident s d.peer.id,origin,d.peer.address,.start c.now timeout d.request,none⟩
      have own : ∀ p ∈ c.passages ++ [passage], p.ticket = c.counter → p.trip? = some l := by
        intro p present ticket
        rcases List.mem_append.mp present with before | last
        · exact absurd ticket (Nat.ne_of_lt (shows.tickets p before))
        · cases List.mem_singleton.mp last
          rfl
      have known : (l,.admitted receiver) ∈ (a.note l (.admitted receiver)).letters := List.mem_cons_self
      have shown := (shows.grows (note_grows a l (.admitted receiver))).add (p := passage) rfl rfl rfl known
      obtain ⟨b,steps,grows,after⟩ := shown.posts members (.asks known own)
        (fun k asks => by rw [Request.asker_event] at asks; cases asks; exact Nat.lt_succ_self _) posts
      exact ⟨b,.head sent steps,List.Subset.trans (List.subset_cons_self _ _) grows.letters,after⟩

theorem Shows.dispatches {origin : Address} {timeout : Nat} (sends : List Dispatch) (shows : Shows c.counter a c.view)
    (asked : ∀ d ∈ sends, ((⟨⟨s,d.peer,d.request⟩,origin⟩,.asked) : Trip × Stage) ∈ a.letters) :
    Follows members a (sends.foldl
      (fun c d => c.dispatch (.resident s d.peer.id) origin d.peer.address d.request timeout) c) := by
  induction sends generalizing a c with
  | nil => exact shows.follows
  | cons d rest ih =>
      obtain ⟨b,steps,letters,shown⟩ := shows.dispatch members d timeout (asked d List.mem_cons_self)
      exact .after steps (ih shown fun d' later => letters (asked d' (List.mem_cons_of_mem _ later)))

theorem Shows.taken (shows : Shows c.counter a c.view) (homed : c.Homed) (taken : c.take s = some next) :
    Follows members a next := by
  obtain ⟨r,n,turn,mid,lives,running,took,view,counter,rfl⟩ := Cluster.take_view taken
  obtain ⟨b,steps,shown,asked⟩ := shows.take members (Cluster.view_mailbox.mpr ⟨r,lives,rfl⟩) running took
  rw [← view,← counter] at shown
  rw [(homed s r lives n running).2] at asked
  exact .after steps (shown.dispatches turn.sends asked)

-- What becomes of a request at the end is what its answer comes to on its way back, or a timeout.
theorem Shows.ended (members : List Member) (shows : Shows c.counter a c.view) (present : p ∈ c.passages) (outcome : c.outcome p = some delivery) :
    ∃ l, p.trip? = some l ∧ Quiet members a (a.note l (.ended delivery)) := by
  obtain ⟨l,trip,⟨stage,known⟩,answered⟩ := shows.carried p present
  refine ⟨l,trip,?_⟩
  unfold Cluster.outcome at outcome
  cases given : p.answer with
  | none =>
      rw [given,Option.map_none,Delivery.await] at outcome
      split at outcome
      · cases outcome
        exact ⟨.lose known .timeout,rfl⟩
      · cases outcome
  | some reply =>
      rw [given,Option.map_some,Delivery.await] at outcome
      cases outcome
      obtain ⟨_,target,_,origin⟩ := Passage.trip_parts trip
      have same : c.network = a.network := shows.network.symm
      rw [same,← origin,← target]
      exact ⟨.bring (answered reply given),rfl⟩

theorem Shows.finished (shows : Shows c.counter a c.view) (finished : c.finish i = some next) : Follows members a next := by
  obtain ⟨p,present,delivery,outcome,rfl⟩ := Cluster.finish_view finished
  obtain ⟨l,trip,ends⟩ := shows.ended members present outcome
  obtain ⟨sender,_,request,_⟩ := Passage.trip_parts trip
  have fewer : Shows c.counter (a.note l (.ended delivery)) {c.view with passages := c.passages.eraseIdx i} :=
    (shows.grows (note_grows a l (.ended delivery))).fewer rfl rfl (List.eraseIdx_subset ..)
  obtain ⟨b,steps,_,shown⟩ := fewer.posts members (.tells (l := l) p.exchange request.symm List.mem_cons_self rfl)
    (fun k asks => by rw [Exchange.asker_report] at asks; cases asks)
    (Cluster.conclude_posts sender delivery {c with passages := c.passages.eraseIdx i})
  refine ⟨b,.head ends steps,?_⟩
  rw [Cluster.conclude_counter]
  exact shown

theorem Shows.moved (shows : Shows c.counter a c.view) (homed : c.Homed) {m : Cluster.Move}
    (performed : Cluster.perform m c = some next) : Follows members a next := by
  cases m with
  | finish i => exact shows.finished performed
  | take s => exact shows.taken homed performed
  | wake s =>
      obtain ⟨m,draw,m',alarm,lives,rung,view⟩ := Cluster.wake_view performed
      obtain ⟨b,steps,shown⟩ := shows.wake members lives rung
      rw [← view] at shown
      exact ⟨b,steps,shown.more (Cluster.perform_goes performed).counter⟩
  | poll s =>
      rw [← Cluster.poll_view performed] at shows
      exact (shows.more (Cluster.perform_goes performed).counter).follows
  | listen s =>
      rw [← Cluster.listen_view performed] at shows
      exact (shows.more (Cluster.perform_goes performed).counter).follows

-- Another network under the same members.
theorem Shows.reroute {v : View} {count : Nat} (shows : Shows count a v) (net : Network Nat) :
    Shows count {a with network := net} {v with network := net} :=
  ⟨rfl,shows.node,shows.below,shows.tickets,shows.carried,fun s m lives e present =>
    (shows.waits s m lives e present).imp_left fun brings => brings.grown (List.Subset.refl _)⟩

theorem Shows.rerouted (shows : Shows c.counter a c.view) (f : Network Nat → Network Nat)
    (step : Quiet members a {a with network := f a.network}) : Follows members a {c with network := f c.network} := by
  rw [show a.network = c.network from shows.network] at step
  exact ⟨_,.single step,shows.reroute (f c.network)⟩

theorem Quiet.obeyed (a : Mesh) (o : Partition.Order) : Quiet members a {a with network := a.network.obey o} := by
  cases o with
  | isolate address => exact ⟨.isolate address,rfl⟩
  | cut one other => exact ⟨.cut one other,rfl⟩
  | heal address => exact ⟨.heal address,rfl⟩

-- A member that comes to be, under the next number.
theorem Shows.founded (shows : Shows c.counter a c.view) {net : Network Nat} {roster : Roster} {station : Station} {guard : Guard}
    (made : c.launch config = .ok (roster,station,guard,net)) (same : config.members = members) :
    Begins members a (c.found config) := by
  obtain ⟨_,accepted,free,begun,_,network⟩ := (made ▸ Cluster.launch_launched config c).made_parts
  let n : Node := .create c.now (c.draws.within config.options.filled.timings.election) roster config.options.filled.timings
  have mailbox : station.mailbox = .start n := by rw [begun]; rfl
  have served : a.network.register roster.address c.counter = .ok (⟨roster.address,true⟩,net) := by
    rw [shows.network,network]
    exact Network.register_free free c.counter
  have starts : Step members a {a.put c.counter n with network := net, count := c.counter+1} :=
    .start c.now _ config.options.filled.timings (same ▸ accepted) shows.below served
  have rerouted := (shows.reroute net).more (Nat.le_succ c.counter)
  have shown : Shows (c.counter+1) {a.put c.counter n with network := net, count := c.counter+1}
      (View.put c.counter (.start n) {c.view with network := net}) :=
    rerouted.put rfl rfl (Nat.le_refl _) (List.Subset.refl _) fun _ present => absurd present List.not_mem_nil
  rw [Cluster.found_exact made]
  exact ⟨_,starts,shown.fewer rfl (Cluster.put_mailbox (c := c) rfl mailbox) (List.Subset.refl _)⟩

theorem Shows.closed (shows : Shows c.counter a c.view) (s : Nat) : Follows members a (c.close s) := by
  cases lives : c.residents.find? s with
  | none =>
      rw [Cluster.close,lives]
      exact shows.follows
  | some r =>
      let mid : Cluster := {c with
        network := (r.guard.finish c.network).2
        residents := c.residents.put s {r with guard := ⟨r.guard.address,false⟩}
        counter := c.counter+1}
      have present : c.view.mailbox? s = some r.station.mailbox := Cluster.view_mailbox.mpr ⟨r,lives,rfl⟩
      have mailbox : mid.view.mailbox? = c.view.mailbox? := by
        rw [Cluster.put_mailbox (c := c) (show mid.residents = c.residents.put s _ from rfl) rfl,← present,Function.update_eq_self]
      have withdraws : Quiet members a {a with network := (r.guard.finish a.network).2} := ⟨.withdraw r.guard,rfl⟩
      rw [show a.network = c.network from shows.network] at withdraws
      have shown : Shows mid.counter {a with network := (r.guard.finish c.network).2} mid.view :=
        ((shows.reroute _).more (Nat.le_succ c.counter)).fewer rfl mailbox (List.Subset.refl _)
      have foreign : ∀ p ∈ mid.view.passages, p.ticket ≠ c.counter := fun p known => Nat.ne_of_lt (shows.tickets p known)
      obtain ⟨b,steps,_,after⟩ := shown.posts members (.stops foreign)
        (fun k asks => by cases asks; exact Nat.lt_succ_self _) (Cluster.post_posts s (.shutdown c.counter) mid)
      rw [Cluster.close_exact lives]
      refine ⟨b,.head withdraws steps,?_⟩
      rw [Cluster.post_counter]
      exact after

theorem Shows.abandoned (shows : Shows c.counter a c.view) (s : Nat) : Follows members a (c.abandon s) := by
  cases lives : c.residents.find? s with
  | none =>
      rw [Cluster.abandon,lives]
      exact shows.follows
  | some r =>
      have present : c.view.mailbox? s = some r.station.mailbox := Cluster.view_mailbox.mpr ⟨r,lives,rfl⟩
      have withdraws : Quiet members a {a with network := (r.guard.finish a.network).2} := ⟨.withdraw r.guard,rfl⟩
      rw [show a.network = c.network from shows.network] at withdraws
      have shown : Shows c.counter {a with network := (r.guard.finish c.network).2}
          (View.put s r.station.mailbox.release {c.view with network := (r.guard.finish c.network).2}) :=
        (shows.reroute _).keep present rfl fun e waits =>
          (shows.waits s _ present e waits).imp_left fun brings => brings.grown (List.Subset.refl _)
      rw [Cluster.abandon_exact lives]
      exact ⟨_,.single withdraws,shown.fewer rfl (Cluster.put_mailbox (c := c) rfl rfl) (List.Subset.refl _)⟩

theorem Shows.fallen (shows : Shows c.counter a c.view) (s : Nat) : Follows members a (c.fall s) := by
  unfold Cluster.fall
  split
  · exact shows.follows
  · next r lives =>
      split
      · exact shows.follows
      · next n running =>
          have present : c.view.mailbox? s = some r.station.mailbox := Cluster.view_mailbox.mpr ⟨r,lives,rfl⟩
          obtain ⟨b,steps,shown⟩ := shows.ends members (s := s) n r.station.mailbox.held
            (fun e waits => (shows.waits s _ present e waits).1) (answered_nobody a c.passages)
          dsimp only
          rw [Cluster.setStation,Cluster.change_exact lives]
          exact ⟨b,steps,shown.fewer rfl (Cluster.put_mailbox (c := c) rfl rfl) (List.Subset.refl _)⟩

-- What is done to a detector is none of the mesh's business.
theorem Shows.adjusted (shows : Shows c.counter a c.view) (s : Nat) (f : Detector → Detector) :
    Follows members a (c.adjust s f) := by
  rw [Cluster.adjust]
  cases lives : c.residents.find? s with
  | none =>
      rw [Cluster.change,lives]
      exact shows.follows
  | some r =>
      have present : c.view.mailbox? s = some r.station.mailbox := Cluster.view_mailbox.mpr ⟨r,lives,rfl⟩
      have mailbox : (c.change s fun r => {r with station := {r.station with detector := f r.station.detector}}).view =
          c.view := (Cluster.change_view lives _).trans (View.put_self present)
      refine Shows.follows ?_
      rw [mailbox,Cluster.change_counter]
      exact shows

-- Only where a member comes to be a life begins.
theorem Shows.does (shows : Shows c.counter a c.view) (homed : c.Homed) {x : Cluster.Act} (allowed : x.Homely members) :
    Follows members a (c.does x) ∨ Begins members a (c.does x) := by
  cases x with
  | move m =>
      left
      cases performed : Cluster.perform m c with
      | none =>
          rw [Cluster.does,performed]
          exact shows.follows
      | some next =>
          rw [Cluster.does,performed]
          exact shows.moved homed performed
  | pass instant =>
      left
      rw [Cluster.does]
      split
      · exact shows.elsewhen instant
      · exact shows.follows
  | post s e => exact allowed.elim
  | send origin target request timeout => exact allowed.elim
  | answer receipts => exact allowed.elim
  | sever f =>
      obtain ⟨o,rfl⟩ := allowed
      have same : c.does (.sever fun p => p.obey o) = {c with network := c.network.obey o} := by cases o <;> rfl
      rw [same]
      exact .inl (shows.rerouted (·.obey o) (.obeyed a o))
  | occupy address => exact allowed.elim
  | vacate address =>
      left
      rw [Cluster.does,Cluster.vacate]
      split
      · exact shows.rerouted (fun net => ((⟨address,true⟩ : Guard).finish net).2) ⟨.withdraw ⟨address,true⟩,rfl⟩
      · exact shows.follows
  | adjust s f => exact .inl (shows.adjusted s f)
  | fall s => exact .inl (shows.fallen s)
  | found config =>
      cases made : c.launch config with
      | error e =>
          left
          rw [Cluster.does,Cluster.found,made]
          exact shows.follows
      | ok parts =>
          obtain ⟨roster,station,guard,net⟩ := parts
          exact .inr (shows.founded made allowed)
  | close s => exact .inl (shows.closed s)
  | abandon s => exact .inl (shows.abandoned s)

theorem Shows.goes (shows : Shows c.counter a c.view) (homed : c.Homed) (goes : Cluster.Homely members c next) :
    Follows members a next ∨ Begins members a next := by
  cases goes with
  | does x allowed => exact shows.does homed allowed
  | clock instant => exact .inl (shows.elsewhen instant)
  | aside network counter passages residents =>
      have mailbox : next.view.mailbox? = c.view.mailbox? := by
        funext s
        have same := congrArg (Option.map fun kept => kept.2.2.mailbox) (residents s)
        rw [Option.map_map,Option.map_map] at same
        exact same
      have passing : next.view.passages = c.view.passages := passages
      refine .inl (Shows.follows ?_)
      rw [counter]
      exact shows.fewer network mailbox (passing ▸ List.Subset.refl _)

-- A mesh as far as the nodes of a cluster and the network between them go.
structure Pictures (a : Mesh) (c : Cluster) : Prop where
  network : a.network = c.network
  node : ∀ s, a.node s = (c.residents.find? s).bind fun r => r.station.mailbox.node?

theorem Shows.pictures {count : Nat} (shows : Shows count a c.view) : Pictures a c := by
  refine ⟨shows.network,?_⟩
  intro s
  rw [shows.node]
  exact Option.bind_map ..

theorem Shows.begun (draws : Draws) : Shows 0 .empty (Cluster.create draws).view :=
  ⟨rfl,fun _ => rfl,Nat.le_refl _,fun _ present => absurd present List.not_mem_nil,
    fun _ present => absurd present List.not_mem_nil,fun _ _ lives => by cases lives⟩

-- Its lives are members of the cluster.
def Known (c : Cluster) (a : Mesh) : Prop := ∀ x n, a.node x = some n → ∃ r, c.residents.find? x = some r ∧ r.id = n.me

theorem Pictures.known (pictures : Pictures a c) (homed : c.Homed) : Known c a := by
  intro x n lives
  rw [pictures.node] at lives
  obtain ⟨r,present,running⟩ := Option.bind_eq_some_iff.mp lives
  exact ⟨r,present,(homed x r present n running).1.symm⟩

theorem Known.later (known : Known c a) (lasts : c.Lasts next) : Known next a := by
  intro x n lives
  obtain ⟨r,present,id⟩ := known x n lives
  obtain ⟨r',present',id'⟩ := lasts x r present
  exact ⟨r',present',id'.trans id⟩

theorem Known.quiet (known : Known c a) (quiet : Quiet members a b) : Known c b := by
  intro x n lives
  obtain ⟨step,count⟩ := quiet
  cases step.moves.lives x n lives with
  | kept lived => exact known x n lived
  | @does before d lived _ =>
      obtain ⟨r,present,id⟩ := known x before lived
      exact ⟨r,present,id.trans (congrArg Roster.me (before.does_roster d)).symm⟩
  | born fresh counted _ _ _ _ => exact absurd (count ▸ counted) (Nat.not_lt_of_le fresh)

-- A guard that has ended keeps nothing in place.
theorem Quiet.idle (a : Mesh) : Quiet members a a := ⟨.withdraw ⟨default,false⟩,rfl⟩

theorem Known.quiets (known : Known c a) (steps : ReflTransGen (Quiet members) a b) : Known c b := by
  induction steps with
  | refl => exact known
  | tail _ quiet ih => exact ih.quiet quiet

-- A run of the mesh that keeps step with the cluster.
structure Meshed (members : List Member) (c : Cluster) (past : List Cluster) (a : Mesh) (earlier : List Mesh) : Prop where
  course : (system members).Course a earlier
  pictures : Pictures a c
  before : ∃ shown, List.Forall₂ Pictures shown past ∧ shown.Sublist earlier
  known : ∀ b ∈ a :: earlier, Known c b

theorem pictured {shown : List Mesh} {past : List Cluster} (all : List.Forall₂ Pictures shown past) (moment : d ∈ past) :
    ∃ b ∈ shown, Pictures b d := by
  induction all with
  | nil => exact absurd moment List.not_mem_nil
  | cons pictures _ ih =>
      rcases List.mem_cons.mp moment with rfl | early
      · exact ⟨_,List.mem_cons_self,pictures⟩
      · obtain ⟨b,present,pictures⟩ := ih early
        exact ⟨b,List.mem_cons_of_mem _ present,pictures⟩

theorem Meshed.moment (meshed : Meshed members c past a earlier) (moment : d ∈ c :: past) : ∃ b ∈ a :: earlier, Pictures b d := by
  rcases List.mem_cons.mp moment with rfl | early
  · exact ⟨a,List.mem_cons_self,meshed.pictures⟩
  · obtain ⟨shown,all,kept⟩ := meshed.before
    obtain ⟨b,present,pictures⟩ := pictured all early
    exact ⟨b,List.mem_cons_of_mem _ (kept.subset present),pictures⟩

end Mesh

open Mesh

-- Whatever happens in a cluster that its members have to themselves happens in a mesh, moment by moment.
theorem System.Course.meshed {members : List Member} {c : Cluster} {past : List Cluster}
    (course : (Cluster.system members).Course c past) : ∃ a earlier, Meshed members c past a earlier := by
  have followed : ∃ a earlier, Meshed members c past a earlier ∧ Shows c.counter a c.view := by
    induction course with
    | begun first =>
        obtain ⟨draws,rfl⟩ := first
        have shows := Shows.begun draws
        refine ⟨.empty,[],⟨.begun rfl,shows.pictures,⟨[],.nil,.slnil⟩,?_⟩,shows⟩
        exact List.forall_mem_singleton.mpr fun _ _ lives => nomatch lives
    | @step c past next course step ih =>
        obtain ⟨a,earlier,meshed,shows⟩ := ih
        obtain ⟨shown,all,kept⟩ := meshed.before
        obtain ⟨orderly,homed⟩ := course.orderly
        have lasts := step.lasts orderly
        have known : ∀ b ∈ a :: earlier, Known next b := fun b present => (meshed.known b present).later lasts
        have all := List.Forall₂.cons meshed.pictures all
        have kept := kept.cons_cons a
        rcases shows.goes homed step with ⟨b,steps,after⟩ | ⟨b,begins,after⟩
        · obtain ⟨since,later,between⟩ := meshed.course.extend (fun _ _ (quiet : Quiet members _ _) => quiet.1) Quiet.idle steps
          have first := known a List.mem_cons_self
          refine ⟨b,_,⟨later,after.pictures,⟨_,all,kept.trans (List.sublist_append_right ..)⟩,?_⟩,after⟩
          refine List.forall_mem_cons.mpr ⟨first.quiets steps,List.forall_mem_append.mpr ⟨?_,known⟩⟩
          exact fun m present => first.quiets (between m present)
        · refine ⟨b,_,⟨meshed.course.step begins,after.pictures,⟨_,all,kept⟩,List.forall_mem_cons.mpr ⟨?_,known⟩⟩,after⟩
          exact after.pictures.known (step.homed homed)
  obtain ⟨a,earlier,meshed,_⟩ := followed
  exact ⟨a,earlier,meshed⟩

-- So it is with whatever is asked of a cluster.
theorem Cluster.orders_meshed {members : List Member} (draws : Draws) (os : List Order) (proper : ∀ o ∈ os, o.Proper members) :
    ∃ past a earlier, Meshed members (os.foldl obey (create draws)) past a earlier := by
  obtain ⟨past,course⟩ := orders_homely draws os proper
  exact ⟨past,course.meshed⟩

end LeaderElection
