import LeaderElection.Proofs.Cluster.Steady
import LeaderElection.Proofs.Roster

namespace LeaderElection

namespace Cluster

def node? (serial : Nat) (c : Cluster) : Option Node :=
  (c.residents.find? serial).bind fun r => r.station.mailbox.node?

def status? (serial : Nat) (c : Cluster) : Option Status := (c.node? serial).map Node.status

-- A member at work: it has a place in the list of members, serves its address, and nothing waits for it
-- but its own timer's alarms.
structure Serves (c : Cluster) (members : List Member) (tuning : Tuning) (serial : Nat) (m : Mailbox Nat) (n : Node) :
    Prop where
  held : m.held = true
  queued : ∀ e ∈ m.events, ∃ a, e = .alarm a
  admitted : Roster.ofMembers n.me members = .ok n.roster
  timings : n.timings = tuning.timings
  address : c.network.handlers.find? n.roster.address = some serial

-- Member `leader` leads term `t`, everybody else has just heard of it, and nothing is on its way.
structure Led (c : Cluster) (members : List Member) (tuning : Tuning) (serial : Nat) (leader : Node) (t : Term) : Prop where
  partition : c.network.partition = .none
  passages : c.passages = []
  serves : ∀ s r n, c.residents.find? s = some r → r.station.mailbox.node? = some n →
    c.Serves members tuning s r.station.mailbox n
  present : c.node? serial = some leader
  leads : leader.Leads t
  lived : leader.Lived c.now
  heard : ∀ s n, s ≠ serial → c.node? s = some n → n.Heard c.now tuning.timings.election ⟨t,leader.me⟩

variable {c after : Cluster} {members : List Member} {tuning : Tuning} {options : Options} {serial : Nat}
  {leader : Node} {t : Term}

theorem view_status (s : Nat) (c : Cluster) : c.view.status? s = c.status? s := by
  cases lives : c.residents.find? s <;> simp [View.status?,view,status?,node?,lives]

def reign (c : Cluster) (tuning : Tuning) (serial : Nat) (leader : Node) (t : Term) : Reign :=
  ⟨t,serial,leader.roster,tuning.heartbeat,tuning.electionMin,c.status?⟩

theorem Led.calm (led : c.Led members tuning serial leader t) (spaced : (reign c tuning serial leader t).Spaced) :
    ∃ next, c.view.Calm (reign c tuning serial leader t) next [] := by
  obtain ⟨r,lives,running⟩ := Option.bind_eq_some_iff.mp led.present
  have serves := led.serves serial r leader lives running
  obtain ⟨next,reigns,ahead⟩ := led.lived.reigns led.leads
  rw [serves.timings] at reigns ahead
  refine ⟨next,led.partition,ahead,?_,⟨_,leader,view_mailbox.mpr ⟨r,lives,rfl⟩,running,reigns,rfl⟩,?_,?_,by simp,?_,
    fun s => view_status s c⟩
  · intro s m present n running
    obtain ⟨r,lives,rfl⟩ := view_mailbox.mp present
    exact (led.serves s r n lives running).held
  · intro s m n other present running
    obtain ⟨r,lives,rfl⟩ := view_mailbox.mp present
    have found : c.node? s = some n := Option.bind_eq_some_iff.mpr ⟨r,lives,running⟩
    obtain ⟨draw,holds,obeys⟩ := (led.heard s n other found).obeys
    have follows := led.serves s r n lives running
    have apart : n.me ≠ leader.me := by
      intro same
      have roster : n.roster = leader.roster := by
        have admitted := follows.admitted
        rw [same,serves.admitted] at admitted
        exact (Except.ok.inj admitted).symm
      have address := follows.address
      rw [roster,serves.address] at address
      exact other (Option.some.inj address).symm
    have peer : ⟨n.me,n.roster.address⟩ ∈ leader.roster.peers :=
      (Roster.ofMembers_peers serves.admitted _).mpr ⟨Roster.ofMembers_self follows.admitted,apart⟩
    have least : tuning.electionMin ≤ draw := holds.least
    have room : Time.wake (c.now+tuning.heartbeat) < c.now+tuning.electionMin := spaced.timely c.now
    have rings := Time.le_wake (c.now+tuning.heartbeat)
    have ahead : next ≤ Time.wake (c.now+tuning.heartbeat) := ahead
    refine ⟨⟨_,peer,follows.address⟩,?_,_,obeys,?_,.inl ?_⟩
    · rw [follows.timings]
      exact Nat.le_refl _
    · change c.now < c.now+draw
      omega
    · omega
  · intro s m present n running e waits
    obtain ⟨r,lives,rfl⟩ := view_mailbox.mp present
    obtain ⟨a,rfl⟩ := (led.serves s r n lives running).queued e waits
    trivial
  · intro p present
    rw [show c.view.passages = [] from led.passages] at present
    cases present

def seated (name : String) (n : Node) : Resident :=
  ⟨⟨name⟩,⟨⟨name,100⟩,true⟩,⟨.start n,.create 0⟩,true,.join n.feed,.join n.feed,false⟩

end Cluster
end LeaderElection
