import LeaderElection.Proofs.Basic
import LeaderElection.Simulation.Cluster.Basic

namespace LeaderElection

-- A cluster as far as its members' nodes are concerned.
structure View where
  now : Nat
  network : Network Nat
  mailbox? : Nat → Option (Mailbox Nat)
  passages : List Passage

namespace View

def status? (serial : Nat) (v : View) : Option Status := (v.mailbox? serial).bind fun m => m.node?.map Node.status

def put (serial : Nat) (m : Mailbox Nat) (v : View) : View :=
  {v with mailbox? := Function.update v.mailbox? serial (some m)}

def answer (receipts : List (Nat × Receipt)) (v : View) : View :=
  {v with passages := v.passages.map fun p => match receipts.lookup p.ticket with
    | some receipt => {p with answer := some receipt.reply}
    | none => p}

-- What is posted waits for the node, or is turned away.
inductive Posts (serial : Nat) (e : Event Nat) (v : View) : View → Prop where
  | taken (present : v.mailbox? serial = some m) (posted : m.post e = some m') : Posts serial e v (v.put serial m')
  | refused (closed : ∀ m, v.mailbox? serial = some m → m.post e = none) : Posts serial e v (v.answer e.refused)

theorem put_self {v : View} (present : v.mailbox? serial = some m) : v.put serial m = v := by
  unfold put
  rw [← present,Function.update_eq_self]

end View

namespace Cluster

def view (c : Cluster) : View :=
  ⟨c.now,c.network,fun serial => (c.residents.find? serial).map fun r => r.station.mailbox,c.passages⟩

variable {c next : Cluster} {serial : Nat}

theorem change_view {r : Resident} (lives : c.residents.find? serial = some r) (f : Resident → Resident) :
    (c.change serial f).view = c.view.put serial (f r).station.mailbox := by
  unfold change
  rw [lives]
  simp only [view,View.put,Directory.find?_put]
  congr 1
  funext other
  by_cases same : other = serial
  · subst same
    simp
  · simp [same]

theorem change_counter (serial : Nat) (f : Resident → Resident) (c : Cluster) : (c.change serial f).counter = c.counter := by
  unfold change
  split <;> rfl

theorem put_mailbox {r : Resident} (residents : next.residents = c.residents.put serial r) (mailbox : r.station.mailbox = m) :
    next.view.mailbox? = Function.update c.view.mailbox? serial (some m) := by
  subst mailbox
  funext other
  simp only [view,residents,Directory.find?_put]
  by_cases same : other = serial
  · subst same
    simp only [Function.update_self,Option.map_some]
  · simp only [Function.update_of_ne same]

theorem answer_view (receipts : List (Nat × Receipt)) (c : Cluster) : (c.answer receipts).view = c.view.answer receipts :=
  rfl

theorem view_mailbox : c.view.mailbox? serial = some m ↔ ∃ r, c.residents.find? serial = some r ∧ r.station.mailbox = m :=
  Option.map_eq_some_iff

theorem post_posts (serial : Nat) (e : Event Nat) (c : Cluster) : c.view.Posts serial e (c.post serial e).view := by
  cases lives : c.residents.find? serial with
  | none =>
      have turned : (c.post serial e).view = c.view.answer e.refused := by simp [post,accepted?,lives,answer_view]
      rw [turned]
      refine .refused ?_
      intro m present
      obtain ⟨r,found,_⟩ := view_mailbox.mp present
      cases lives.symm.trans found
  | some r =>
      have present : c.view.mailbox? serial = some r.station.mailbox := view_mailbox.mpr ⟨r,lives,rfl⟩
      cases posted : r.station.mailbox.post e with
      | none =>
          have turned : (c.post serial e).view = c.view.answer e.refused := by
            simp [post,accepted?,lives,posted,answer_view]
          rw [turned]
          refine .refused ?_
          intro m same
          cases present.symm.trans same
          exact posted
      | some m' =>
          have waits : (c.post serial e).view = c.view.put serial m' := by
            simp [post,accepted?,lives,posted,setStation,change_view lives]
          rw [waits]
          exact .taken present posted

theorem conclude_posts (sender : p.sender = .resident serial peer) (delivery : Delivery) (c : Cluster) :
    c.view.Posts serial (p.exchange.report peer delivery) (c.conclude p delivery).view := by
  unfold conclude
  rw [sender]
  exact post_posts serial _
    {c with passed := c.passed ++ [⟨.resident serial peer,p.origin,p.target,p.exchange,delivery⟩]}

-- A request reaches the handler at its target, or its sender is told of the failure.
theorem dispatch_posts (serial : Nat) (peer : NodeId) (origin target : Address) (request : Request) (timeout : Nat)
    (c : Cluster) : let passage : Passage :=
      ⟨c.counter,.resident serial peer,origin,target,.start c.now timeout request,none⟩
    let after := (c.dispatch (.resident serial peer) origin target request timeout).view
    match c.network.route origin target with
    | .error e => c.view.Posts serial (passage.exchange.report peer (.error e)) after
    | .ok receiver => View.Posts receiver (request.event c.counter)
        {c.view with passages := c.view.passages ++ [passage]} after := by
  unfold dispatch
  cases routed : c.network.route origin target with
  | error e => exact conclude_posts rfl (.error e) {c with counter := c.counter+1}
  | ok receiver => exact post_posts receiver _ {c with
      counter := c.counter+1
      passages := c.passages ++ [⟨c.counter,.resident serial peer,origin,target,.start c.now timeout request,none⟩]}

theorem post_counter (serial : Nat) (e : Event Nat) (c : Cluster) : (c.post serial e).counter = c.counter := by
  unfold post
  cases posted : c.accepted? serial e with
  | none => rfl
  | some next =>
      simp only [accepted?,Option.bind_eq_bind,Option.bind_eq_some_iff] at posted
      obtain ⟨r,_,m,_,same⟩ := posted
      cases same
      exact change_counter serial _ c

theorem conclude_counter (p : Passage) (delivery : Delivery) (c : Cluster) : (c.conclude p delivery).counter = c.counter := by
  unfold conclude
  dsimp only
  split
  · rfl
  · exact post_counter ..

theorem dispatch_counter (sender : Sender) (origin target : Address) (request : Request) (timeout : Nat) (c : Cluster) :
    (c.dispatch sender origin target request timeout).counter = c.counter+1 := by
  unfold dispatch
  cases c.network.route origin target with
  | error e => exact conclude_counter ..
  | ok receiver => exact post_counter ..

theorem poll_view (polled : c.poll serial = some next) : next.view = c.view := by
  unfold poll at polled
  simp only [Option.bind_eq_bind,Option.bind_eq_some_iff] at polled
  obtain ⟨r,lives,survey,_,same⟩ := polled
  cases same
  have still : (c.setStation serial {r.station with detector := survey.detector}).view = c.view := by
    rw [setStation,change_view lives]
    exact View.put_self (view_mailbox.mpr ⟨r,lives,rfl⟩)
  exact still

theorem listen_view (listened : c.listen serial = some next) : next.view = c.view := by
  unfold listen at listened
  simp only [Option.bind_eq_bind,Option.bind_eq_some_iff] at listened
  obtain ⟨r,lives,heard⟩ := listened
  split at heard
  · cases heard
  · cases heard
    refine Eq.trans ?_ (View.put_self (view_mailbox.mpr ⟨r,lives,rfl⟩))
    exact change_view lives _

theorem wake_view (woken : c.wake serial = some next) :
    ∃ m draw m' alarm, c.view.mailbox? serial = some m ∧ m.wake c.now draw = some (m',alarm) ∧
      next.view = c.view.put serial m' := by
  unfold wake at woken
  simp only [Option.bind_eq_bind,Option.bind_eq_some_iff] at woken
  obtain ⟨r,lives,⟨m',alarm⟩,rung,same⟩ := woken
  cases same
  exact ⟨_,_,m',alarm,view_mailbox.mpr ⟨r,lives,rfl⟩,rung,change_view lives _⟩

-- A turn of a member's node, and the dispatches that follow from it.
theorem take_view (taken : c.take serial = some next) : ∃ r n turn, ∃ mid : Cluster,
    c.residents.find? serial = some r ∧ r.station.mailbox.node? = some n ∧
    r.station.mailbox.take c.now (c.draws.within n.timings.election) = some turn ∧
    mid.view = (c.view.put serial turn.mailbox).answer turn.receipts ∧ mid.counter = c.counter ∧
    next = turn.sends.foldl
      (fun c d => c.dispatch (.resident serial d.peer.id) r.guard.address d.peer.address d.request n.timings.rpc) mid := by
  unfold take at taken
  simp only [Option.bind_eq_bind,Option.bind_eq_some_iff] at taken
  obtain ⟨r,lives,timings,timed,⟨turn,station⟩,took,same⟩ := taken
  cases same
  obtain ⟨n,present,rfl⟩ := Option.map_eq_some_iff.mp timed
  have drawn : r.station.draw c.draws = c.draws.within n.timings.election := by
    simp [Station.draw,Station.timings?,present]
  rw [drawn] at took
  obtain ⟨turn',took',same⟩ := Option.map_eq_some_iff.mp took
  cases same
  refine ⟨r,n,turn,_,lives,present,took',?_,?_,rfl⟩
  · rw [answer_view]
    exact congrArg (View.answer turn.receipts) (change_view lives _)
  · exact change_counter serial _ c

theorem finish_view (finished : c.finish i = some next) : ∃ p ∈ c.passages, ∃ delivery, c.outcome p = some delivery ∧
    next = {c with passages := c.passages.eraseIdx i}.conclude p delivery := by
  unfold finish at finished
  simp only [Option.bind_eq_bind,Option.bind_eq_some_iff] at finished
  obtain ⟨p,present,delivery,outcome,same⟩ := finished
  cases same
  exact ⟨p,List.mem_of_getElem? present,delivery,outcome,rfl⟩

end Cluster
end LeaderElection
