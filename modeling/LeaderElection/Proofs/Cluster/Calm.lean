import LeaderElection.Proofs.Basic
import LeaderElection.Proofs.Cluster.View
import LeaderElection.Proofs.Mailbox
import LeaderElection.Proofs.Node.Allegiance

namespace LeaderElection

-- An uncontested leadership: its term, the leader's serial number and roster, its interval, the least
-- timeout of its followers, and what everybody's status is.
structure Reign where
  term : Term
  serial : Nat
  roster : Roster
  interval : Nat
  least : Nat
  shown : Nat → Option Status

def Reign.leader (g : Reign) : NodeId := g.roster.me

namespace View

-- A follower's next heartbeat is already under way: its tick waits, it is about to be dispatched, or it
-- waits itself.
inductive Coming (g : Reign) (due : List Dispatch) (s : Nat) (v : View) : Prop where
  | ticking (present : v.mailbox? g.serial = some m) (ticks : .alarm (.heartbeatTick g.term) ∈ m.events)
  | sending (listed : d ∈ due) (served : v.network.handlers.find? d.peer.address = some s)
  | waiting (present : v.mailbox? s = some m) (waits : .heartbeat asker ⟨g.term,g.leader⟩ ∈ m.events)

def Served (g : Reign) (s : Nat) (v : View) : Prop :=
  ∃ peer ∈ g.roster.peers, v.network.handlers.find? peer.address = some s

-- A follower does not stand before its leader's next heartbeat has reached it.
structure Follows (g : Reign) (next : Nat) (due : List Dispatch) (s : Nat) (n : Node) (v : View) : Prop where
  served : v.Served g s
  least : g.least ≤ n.timings.election.start
  obeys : ∃ deadline, n.Obeys g.term g.leader deadline ∧ v.now < deadline ∧ (next < deadline ∨ v.Coming g due s)

structure Carries (g : Reign) (p : Passage) : Prop where
  request : p.exchange.request = .heartbeat ⟨g.term,g.leader⟩
  sender : ∃ peer, p.sender = .resident g.serial peer
  answer : ∀ r, p.answer = some r → r.Tame g.term

-- How a reign stands between two moves: the leader's timer rings at `next`, and the heartbeats in `due`
-- are being dispatched.
structure Calm (g : Reign) (next : Nat) (due : List Dispatch) (v : View) : Prop where
  partition : v.network.partition = .none
  ahead : next ≤ Time.wake (v.now+g.interval)
  held : ∀ s m, v.mailbox? s = some m → ∀ n, m.node? = some n → m.held = true
  leads : ∃ m n, v.mailbox? g.serial = some m ∧ m.node? = some n ∧ n.Reigns g.term g.interval next ∧ n.roster = g.roster
  follows : ∀ s m n, s ≠ g.serial → v.mailbox? s = some m → m.node? = some n → v.Follows g next due s n
  tame : ∀ s m, v.mailbox? s = some m → ∀ n, m.node? = some n → ∀ e ∈ m.events, e.Tame g.term g.leader
  sends : ∀ d ∈ due, d.request = .heartbeat ⟨g.term,g.leader⟩
  carried : ∀ p ∈ v.passages, Carries g p
  shown : ∀ s, v.status? s = g.shown s

variable {g : Reign} {next next' s : Nat} {due due' : List Dispatch} {v v' : View} {m m' : Mailbox Nat} {n after : Node}
  {e : Event Nat}

theorem Coming.alike (coming : v.Coming g due s) (mailbox : v'.mailbox? = v.mailbox?) (network : v'.network = v.network) :
    v'.Coming g due s := by
  cases coming with
  | ticking present ticks => exact .ticking (mailbox ▸ present) ticks
  | sending listed served => exact .sending listed (network ▸ served)
  | waiting present waits => exact .waiting (mailbox ▸ present) waits

-- What is on its way somewhere else does not matter to the members' nodes.
theorem Calm.carrying (calm : v.Calm g next due) (passages : List Passage) (carried : ∀ p ∈ passages, Carries g p) :
    Calm g next due {v with passages} := by
  refine ⟨calm.partition,calm.ahead,calm.held,calm.leads,?_,calm.tame,calm.sends,carried,calm.shown⟩
  intro s m n other present running
  obtain ⟨served,least,deadline,obeys,soon,coming⟩ := calm.follows s m n other present running
  exact ⟨served,least,deadline,obeys,soon,coming.imp_right fun coming => coming.alike rfl rfl⟩

theorem Calm.answer (calm : v.Calm g next due) {receipts : List (Nat × Receipt)}
    (tame : ∀ r ∈ receipts, r.2.reply.Tame g.term) : (v.answer receipts).Calm g next due := by
  refine calm.carrying _ ?_
  intro p present
  obtain ⟨q,old,rfl⟩ := List.mem_map.mp present
  have carries := calm.carried q old
  split
  · next receipt found =>
      refine ⟨carries.request,carries.sender,?_⟩
      rintro r same
      cases same
      obtain ⟨_,_,rfl,_⟩ := List.lookup_eq_some_iff.mp found
      exact tame (q.ticket,receipt) (by simp)
  · exact carries

theorem status_put (present : v.mailbox? s = some m) (same : m'.node?.map Node.status = m.node?.map Node.status)
    (other : Nat) : (v.put s m').status? other = v.status? other := by
  by_cases own : other = s
  · subst own
    simp [status?,put,present,same]
  · simp [status?,put,own]

theorem put_own (s : Nat) (m : Mailbox Nat) (v : View) : (v.put s m).mailbox? s = some m := Function.update_self ..

theorem put_other (apart : s' ≠ s) (m : Mailbox Nat) (v : View) : (v.put s m).mailbox? s' = v.mailbox? s' :=
  Function.update_of_ne apart ..

theorem put_each (holds : Nat → Mailbox Nat → Prop) (own : holds s m)
    (others : ∀ s' m', s' ≠ s → v.mailbox? s' = some m' → holds s' m')
    (s' : Nat) (m' : Mailbox Nat) (present : (v.put s m).mailbox? s' = some m') : holds s' m' := by
  by_cases same : s' = s
  · subst same
    cases (put_own s' m v).symm.trans present
    exact own
  · rw [put_other same] at present
    exact others s' m' same present

-- A mailbox that keeps what matters to a follower.
theorem Coming.put (coming : v.Coming g due s) (present : v.mailbox? other = some m)
    (ticks : other = g.serial → .alarm (.heartbeatTick g.term) ∈ m.events → .alarm (.heartbeatTick g.term) ∈ m'.events)
    (waits : other = s → ∀ asker, .heartbeat asker ⟨g.term,g.leader⟩ ∈ m.events →
      .heartbeat asker ⟨g.term,g.leader⟩ ∈ m'.events) : (v.put other m').Coming g due s := by
  cases coming with
  | ticking leads tick =>
      by_cases same : other = g.serial
      · subst same
        cases present.symm.trans leads
        exact .ticking (put_own ..) (ticks rfl tick)
      · exact .ticking ((put_other (Ne.symm same) ..).trans leads) tick
  | sending listed served => exact .sending listed served
  | waiting lives wait =>
      by_cases same : other = s
      · subst same
        cases present.symm.trans lives
        exact .waiting (put_own ..) (waits rfl _ wait)
      · exact .waiting ((put_other (Ne.symm same) ..).trans lives) wait

-- What becomes of a follower, between any two moves.
theorem Calm.put_follower (calm : v.Calm g next due) (other : s ≠ g.serial) (present : v.mailbox? s = some m)
    (running : m.node? = some n) (running' : m'.node? = some after) (shown : after.status = n.status)
    (timings : after.timings = n.timings) (held : m'.held = true) (tame : ∀ e ∈ m'.events, e.Tame g.term g.leader)
    (obeys : after.Obeys g.term g.leader deadline) (soon : v.now < deadline)
    (coming : next < deadline ∨ (v.put s m').Coming g due s) : (v.put s m').Calm g next due := by
  obtain ⟨served,least,_⟩ := calm.follows s m n other present running
  refine ⟨calm.partition,calm.ahead,?_,?_,?_,?_,calm.sends,calm.carried,?_⟩
  · exact put_each (fun _ m => ∀ n, m.node? = some n → m.held = true) (fun _ _ => held) fun s' m' _ => calm.held s' m'
  · obtain ⟨m,n,present,running,reigns⟩ := calm.leads
    exact ⟨m,n,(put_other other.symm ..).trans present,running,reigns⟩
  · intro s' m' n' other' present' lives
    by_cases same : s' = s
    · subst same
      cases (put_own ..).symm.trans present'
      cases running'.symm.trans lives
      exact ⟨served,timings ▸ least,deadline,obeys,soon,coming⟩
    · rw [put_other same] at present'
      obtain ⟨served,least,deadline,obeys,soon,coming⟩ := calm.follows s' m' n' other' present' lives
      refine ⟨served,least,deadline,obeys,soon,coming.imp_right fun coming => coming.put present ?_ ?_⟩
      · exact fun leads => absurd leads other
      · exact fun own => absurd own.symm same
  · exact put_each (fun _ m => ∀ n, m.node? = some n → ∀ e ∈ m.events, e.Tame g.term g.leader) (fun _ _ => tame)
      fun s' m' _ => calm.tame s' m'
  · intro s'
    rw [status_put present (by simp [running,running',shown])]
    exact calm.shown s'

-- What becomes of the leader, as long as every follower's heartbeat comes in time.
theorem Calm.put_leader (calm : v.Calm g next due) (present : v.mailbox? g.serial = some m) (running : m.node? = some n)
    (running' : m'.node? = some after) (shown : after.status = n.status) (roster : after.roster = g.roster)
    (held : m'.held = true) (tame : ∀ e ∈ m'.events, e.Tame g.term g.leader)
    (reigns : after.Reigns g.term g.interval next') (ahead : next' ≤ Time.wake (v.now+g.interval))
    (sends : ∀ d ∈ due', d.request = .heartbeat ⟨g.term,g.leader⟩)
    (coming : ∀ s, s ≠ g.serial → v.Served g s → ∀ deadline, next < deadline ∨ v.Coming g due s →
      next' < deadline ∨ (v.put g.serial m').Coming g due' s) : (v.put g.serial m').Calm g next' due' := by
  refine ⟨calm.partition,ahead,?_,?_,?_,?_,sends,calm.carried,?_⟩
  · exact put_each (fun _ m => ∀ n, m.node? = some n → m.held = true) (fun _ _ => held) fun s' m' _ => calm.held s' m'
  · exact ⟨m',after,put_own ..,running',reigns,roster⟩
  · intro s m n other present' lives
    rw [put_other other] at present'
    obtain ⟨served,least,deadline,obeys,soon,timely⟩ := calm.follows s m n other present' lives
    exact ⟨served,least,deadline,obeys,soon,coming s other served deadline timely⟩
  · exact put_each (fun _ m => ∀ n, m.node? = some n → ∀ e ∈ m.events, e.Tame g.term g.leader) (fun _ _ => tame)
      fun s' m' _ => calm.tame s' m'
  · intro s'
    rw [status_put present (by simp [running,running',shown])]
    exact calm.shown s'

-- A post takes nothing away.
theorem Calm.post (calm : v.Calm g next due) (tame : e.Tame g.term g.leader) (posts : v.Posts s e v') :
    v'.Calm g next due := by
  cases posts with
  | @taken m m' present posted =>
      obtain ⟨held,⟨n,running⟩,rfl⟩ := Mailbox.post_parts posted
      have tame : ∀ e' ∈ m.events ++ [e], e'.Tame g.term g.leader := by
        intro e' waits
        rcases List.mem_append.mp waits with old | new
        · exact calm.tame s m present n running e' old
        · cases List.mem_singleton.mp new
          exact tame
      by_cases leads : s = g.serial
      · subst leads
        obtain ⟨m',n',present',running',reigns,roster⟩ := calm.leads
        cases present.symm.trans present'
        cases running.symm.trans running'
        refine calm.put_leader present running running rfl roster held tame reigns calm.ahead calm.sends ?_
        intro s other _ deadline timely
        exact timely.imp_right fun coming => coming.put present (fun _ => List.mem_append_left _) fun _ _ =>
          List.mem_append_left _
      · obtain ⟨served,least,deadline,obeys,soon,timely⟩ := calm.follows s m n leads present running
        refine calm.put_follower leads present running running rfl rfl held tame obeys soon ?_
        exact timely.imp_right fun coming => coming.put present (fun _ => List.mem_append_left _) fun _ _ =>
          List.mem_append_left _
  | refused closed =>
      refine calm.answer ?_
      intro receipt turned
      obtain ⟨asker,_,rfl⟩ := List.mem_map.mp turned
      trivial

theorem Posts.waits (posts : v.Posts s e v') (held : ∀ m, v.mailbox? s = some m → ∀ n, m.node? = some n → m.held = true)
    (present : v'.mailbox? s = some m) (running : m.node? = some n) : e ∈ m.events := by
  cases posts with
  | taken present' posted =>
      obtain ⟨_,_,rfl⟩ := Mailbox.post_parts posted
      cases (put_own ..).symm.trans present
      simp
  | refused closed =>
      have closed := closed m present
      simp [Mailbox.post,held m present n running,running] at closed

end View
end LeaderElection
