import LeaderElection.Proofs.Cluster.Calm
import LeaderElection.Simulation.Schedule

namespace LeaderElection

-- A heartbeat comes well before the least timeout after the one before it is over.
def Reign.Spaced (g : Reign) : Prop := g.interval+millisecond ≤ g.least

theorem Reign.Spaced.timely {g : Reign} (spaced : g.Spaced) (now : Nat) : Time.wake (now+g.interval) < now+g.least := by
  unfold Reign.Spaced at spaced
  unfold Time.wake millisecond at *
  omega

namespace View

variable {g : Reign} {next : Nat} {due : List Dispatch} {d : Dispatch} {v v' : View} {p : Passage}
  {s draw : Nat} {m m' : Mailbox Nat} {n : Node} {turn : Turn Nat}

theorem Posts.network (posts : v.Posts s e v') : v'.network = v.network := by
  cases posts <;> rfl

-- Once a heartbeat has been dispatched, it waits for whoever is served at its address.
theorem Calm.sent (calm : v.Calm g next (d :: due)) (arrived : ∀ s m n, v.network.handlers.find? d.peer.address = some s →
    v.mailbox? s = some m → m.node? = some n → ∃ asker, .heartbeat asker ⟨g.term,g.leader⟩ ∈ m.events) :
    v.Calm g next due := by
  refine ⟨calm.partition,calm.ahead,calm.held,calm.leads,?_,calm.tame,?_,calm.carried,calm.shown⟩
  · intro s m n other present running
    obtain ⟨served,least,deadline,obeys,soon,timely⟩ := calm.follows s m n other present running
    refine ⟨served,least,deadline,obeys,soon,timely.imp_right ?_⟩
    intro coming
    cases coming with
    | ticking present ticks => exact .ticking present ticks
    | waiting present waits => exact .waiting present waits
    | sending listed served =>
        rcases List.mem_cons.mp listed with rfl | later
        · obtain ⟨asker,waits⟩ := arrived s m n served present running
          exact .waiting present waits
        · exact .sending later served
  · exact fun d listed => calm.sends d (List.mem_cons_of_mem _ listed)

theorem Carries.start (g : Reign) (ticket now timeout : Nat) (peer : NodeId) (origin target : Address) :
    Carries g ⟨ticket,.resident g.serial peer,origin,target,.start now timeout (.heartbeat ⟨g.term,g.leader⟩),none⟩ :=
  ⟨rfl,⟨peer,rfl⟩,by simp⟩

theorem Carries.report (carries : Carries g p) {delivery : Delivery} (tame : ∀ r, delivery = .ok r → r.Tame g.term)
    (peer : NodeId) : (p.exchange.report peer delivery : Event Nat).Tame g.term g.leader := by
  unfold Exchange.report
  rw [carries.request]
  cases delivery with
  | error e => trivial
  | ok r =>
      cases r with
      | heartbeat reply => exact tame _ rfl
      | _ => trivial

theorem Calm.wake_leader (calm : v.Calm g next []) (present : v.mailbox? g.serial = some m)
    (woken : m.wake v.now draw = some (m',alarm)) : ∃ next', (v.put g.serial m').Calm g next' [] := by
  obtain ⟨_,_,present',running',reigns,roster⟩ := calm.leads
  cases present.symm.trans present'
  obtain ⟨n,after,running,rung,rfl⟩ := Mailbox.wake_parts woken
  cases running.symm.trans running'
  have held := calm.held _ _ present _ running
  obtain ⟨_,goes,shown,_,same,rfl⟩ := reigns.wake rung
  have tame : ∀ e ∈ m.events ++ [.alarm (.heartbeatTick g.term)], e.Tame g.term g.leader :=
    List.forall_mem_append.mpr ⟨calm.tame _ _ present _ running,List.forall_mem_singleton.mpr trivial⟩
  refine ⟨Time.wake (v.now+g.interval),?_⟩
  simp only [held,if_true,Option.toList_some,List.map_cons,List.map_nil]
  refine calm.put_leader present running rfl shown (same.trans roster) rfl tame goes (Nat.le_refl _) (by simp) ?_
  intro s _ _ _ _
  exact .inr (.ticking (put_own ..) (by simp))

theorem Calm.wake_follower (calm : v.Calm g next []) (other : s ≠ g.serial) (present : v.mailbox? s = some m)
    (woken : m.wake v.now draw = some (m',alarm)) : (v.put s m').Calm g next [] := by
  obtain ⟨n,after,running,rung,rfl⟩ := Mailbox.wake_parts woken
  have held := calm.held _ _ present _ running
  obtain ⟨served,least,deadline,obeys,soon,timely⟩ := calm.follows s m n other present running
  obtain ⟨goes,shown,timings,rfl⟩ := obeys.wake soon rung
  simp only [held,if_true,Option.toList_none,List.map_nil,List.append_nil]
  refine calm.put_follower other present running rfl shown timings rfl (calm.tame s m present n running) goes soon ?_
  exact timely.imp_right fun coming => coming.put present (fun _ ticks => ticks) fun _ _ waits => waits

end View

namespace Cluster

variable {g : Reign} {next due' : Nat} {due : List Dispatch} {d : Dispatch} {c after : Cluster}
  {s : Nat} {m : Mailbox Nat} {n : Node}

theorem wake_calm (calm : c.view.Calm g next []) (woken : c.wake s = some after) :
    ∃ next', after.view.Calm g next' [] := by
  obtain ⟨m,draw,m',alarm,present,rung,view⟩ := wake_view woken
  rw [view]
  by_cases leads : s = g.serial
  · subst leads
    exact calm.wake_leader present rung
  · exact ⟨next,calm.wake_follower leads present rung⟩

theorem take_ready (present : c.view.mailbox? s = some m) (running : m.node? = some n) (waits : e ∈ m.events) :
    ∃ after, c.take s = some after := by
  obtain ⟨r,lives,rfl⟩ := view_mailbox.mp present
  obtain ⟨turn,took⟩ := Mailbox.take_waiting running waits c.now (r.station.draw c.draws)
  simp [take,lives,Station.timings?,running,Station.take,took]

end Cluster
end LeaderElection
