import LeaderElection.Node.Call
import LeaderElection.Proofs.Node.Coherent
import LeaderElection.Proofs.Roster

namespace LeaderElection

-- What happens to a node: a call, with any arguments and at any time, or the next round of its
-- timer's task.
inductive Deed where
  | call (now draw : Nat) (c : Call)
  | wake (now draw : Nat)

namespace Node

-- A timer that is not due yet does nothing.
def does : Deed → Node → Node
  | .call now draw c,n => (n.apply now draw c).node
  | .wake now draw,n => ((n.wake now draw).map Prod.fst).getD n

def run : List Deed → Node → Node
  | [],n => n
  | d :: rest,n => run rest (n.does d)

theorem run_append (before after : List Deed) (n : Node) : n.run (before ++ after) = (n.run before).run after := by
  induction before generalizing n with
  | nil => rfl
  | cons d rest ih => exact ih (n.does d)

-- The timer's task leaves everything but the timer alone.
theorem wake_parts {n next : Node} (woken : n.wake now draw = some (next,alarm)) :
    ∃ office, next = {n with standing := ⟨n.standing.term,office⟩} ∧
      next.standing.snapshot = n.standing.snapshot ∧ next.role = n.role ∧
      next.standing.leader n.me = n.standing.leader n.me ∧
      ∀ votes timer, office = .candidate votes timer → ∃ timer, n.standing.office = .candidate votes timer := by
  obtain ⟨roster,timings,ballot,⟨term,office⟩,feed⟩ := n
  cases office with
  | leader beat =>
      obtain ⟨after,_,same⟩ := Option.map_eq_some_iff.mp woken
      cases same
      exact ⟨.leader after,rfl,rfl,rfl,rfl,nofun⟩
  | candidate votes timer =>
      obtain ⟨⟨after,fires⟩,_,same⟩ := Option.map_eq_some_iff.mp woken
      cases same
      refine ⟨.candidate votes after,rfl,rfl,rfl,rfl,?_⟩
      intro votes' timer' running
      cases running
      exact ⟨timer,rfl⟩
  | follower leader timer =>
      obtain ⟨⟨after,fires⟩,_,same⟩ := Option.map_eq_some_iff.mp woken
      cases same
      refine ⟨.follower leader after,rfl,?_,rfl,rfl,nofun⟩
      cases leader <;> rfl

theorem does_wake (now draw : Nat) (n : Node) :
    ∃ office, n.does (.wake now draw) = {n with standing := ⟨n.standing.term,office⟩} ∧
      (n.does (.wake now draw)).standing.snapshot = n.standing.snapshot ∧ (n.does (.wake now draw)).role = n.role ∧
      (n.does (.wake now draw)).standing.leader n.me = n.standing.leader n.me ∧
      ∀ votes timer, office = .candidate votes timer → ∃ timer, n.standing.office = .candidate votes timer := by
  cases woken : n.wake now draw with
  | none =>
      have kept : n.does (.wake now draw) = n := by simp only [does,woken,Option.map_none,Option.getD_none]
      rw [kept]
      exact ⟨n.standing.office,rfl,rfl,rfl,rfl,fun _ timer running => ⟨timer,running⟩⟩
  | some after =>
      have woke : n.does (.wake now draw) = after.1 := by
        simp only [does,woken,Option.map_some,Option.getD_some]
      rw [woke]
      exact wake_parts woken

-- One deed, and from it every run.
theorem does_roster (d : Deed) (n : Node) : (n.does d).roster = n.roster := by
  cases d with
  | call now draw c => exact (apply_change now draw n c).roster
  | wake now draw =>
      obtain ⟨office,same,_⟩ := does_wake now draw n
      rw [same]

theorem does_onward (d : Deed) (n : Node) : n.ballot.Onward (n.does d).ballot := by
  cases d with
  | call now draw c => exact (apply_change now draw n c).onward
  | wake now draw =>
      obtain ⟨office,same,_⟩ := does_wake now draw n
      rw [same]
      exact .refl _

theorem Coherent.does {n : Node} (coherent : n.Coherent) (d : Deed) : (n.does d).Coherent := by
  cases d with
  | call now draw c => exact coherent.apply now draw c
  | wake now draw =>
      obtain ⟨office,same,snapshot,role,_,votes⟩ := does_wake now draw n
      rw [same] at snapshot role ⊢
      refine ⟨coherent.term,?_,?_,?_⟩
      · intro busy
        exact coherent.own (role ▸ busy)
      · intro votes' timer running
        obtain ⟨timer',running'⟩ := votes votes' timer running
        exact coherent.votes votes' timer' running'
      · rw [snapshot]
        exact coherent.told

theorem run_roster (deeds : List Deed) (n : Node) : (n.run deeds).roster = n.roster := by
  induction deeds generalizing n with
  | nil => rfl
  | cons d rest ih => exact (ih (n.does d)).trans (does_roster d n)

theorem run_onward (deeds : List Deed) (n : Node) : n.ballot.Onward (n.run deeds).ballot := by
  induction deeds generalizing n with
  | nil => exact .refl _
  | cons d rest ih => exact (does_onward d n).trans (ih (n.does d))

theorem Coherent.run {n : Node} (coherent : n.Coherent) (deeds : List Deed) : (n.run deeds).Coherent := by
  induction deeds generalizing n with
  | nil => exact coherent
  | cons d rest ih => exact ih (coherent.does d)

end Node

-- What a node publishes, read off what it answers when asked.
def Status.snapshot (s : Status) : Snapshot := match s.role,s.leader with
  | .leader,_ => .leader s.term
  | .candidate,_ => .candidate s.term
  | .follower,some l => .follower s.term l
  | .follower,none => .leaderless s.term

namespace Node

variable {n : Node} {me : NodeId} {members : List Member} {roster : Roster}

theorem status_leader (leads : n.role = .leader) : n.status.leader = some n.me := by
  obtain ⟨beat,office⟩ := leader_exact.mp leads
  simp only [status,Standing.leader,office]

theorem status_candidate (running : n.role = .candidate) : n.status.leader = none := by
  obtain ⟨votes,timer,office⟩ := candidate_exact.mp running
  simp only [status,Standing.leader,office]

-- The two ways to tell a node's state agree as long as its two terms do.
theorem Coherent.snapshot (coherent : n.Coherent) : n.standing.snapshot = n.status.snapshot := by
  obtain ⟨roster,timings,ballot,⟨known,office⟩,feed⟩ := n
  have term : known = ballot.term := coherent.term
  subst term
  cases office with
  | leader beat => rfl
  | candidate votes timer => rfl
  | follower leader timer => cases leader <;> rfl

-- A candidate lacks at least one vote beside its own, so nobody is a candidate alone.
theorem Coherent.accompanied (coherent : n.Coherent) (running : n.role = .candidate) : 1 < n.roster.size := by
  obtain ⟨votes,timer,office⟩ := candidate_exact.mp running
  obtain ⟨own,_,short⟩ := coherent.votes votes timer office
  have some := List.length_pos_of_mem own
  unfold quorum at short
  omega

-- After any calls, whatever their arguments.
theorem coherent_throughout (accepted : Roster.ofMembers me members = .ok roster) (timings : Timings)
    (start first : Nat) (deeds : List Deed) :
    let n := (create start first roster timings).run deeds
    n.standing.term = n.ballot.term ∧
    (n.status.role ≠ .follower → n.status.vote = some me) ∧
    (n.status.role = .leader → n.status.leader = some me) ∧
    (n.status.role = .candidate → n.status.leader = none) ∧
    (∀ votes timer, n.standing.office = .candidate votes timer →
      me ∈ votes ∧ votes.Nodup ∧ 1 ≤ votes.length ∧ votes.length < quorum members.length) ∧
    (members.length = 1 → n.status.role ≠ .candidate) ∧
    n.feed.latest = n.standing.snapshot ∧ n.feed.latest = n.status.snapshot := by
  intro n
  have coherent : n.Coherent := (Coherent.created start first roster timings).run deeds
  have same : n.roster = roster := run_roster deeds _
  have own : n.me = me := (congrArg Roster.me same).trans (Roster.ofMembers_me accepted)
  have size : n.roster.size = members.length := (congrArg Roster.size same).trans (Roster.ofMembers_size accepted)
  refine ⟨coherent.term,?_,?_,status_candidate,?_,?_,coherent.told,coherent.told.trans coherent.snapshot⟩
  · intro busy
    rw [← own]
    exact coherent.own busy
  · intro leads
    rw [← own]
    exact status_leader leads
  · intro votes timer running
    obtain ⟨present,distinct,short⟩ := coherent.votes votes timer running
    rw [own] at present
    rw [size] at short
    exact ⟨present,distinct,List.length_pos_of_mem present,short⟩
  · intro alone running
    have accompanied := coherent.accompanied running
    omega

-- One member of three that stands, with a stranger's denial on top.
theorem candidate_of_trio_coherent :
    let n := (create 0 5 ⟨⟨"a"⟩,⟨"a",100⟩,trio.tail⟩ ⟨1,⟨5,10⟩,1⟩).run
      [.call 5 5 .timeout,.call 6 5 (.voteReply ⟨"d"⟩ .one (.ok ⟨false,.one⟩))]
    n.status.role = .candidate ∧ n.status.vote = some ⟨"a"⟩ ∧ n.feed.latest = .candidate .one := by
  intro n
  have running : n.status.role = .candidate := by decide
  have accepted : Roster.ofMembers ⟨"a"⟩ trio = .ok ⟨⟨"a"⟩,⟨"a",100⟩,trio.tail⟩ := rfl
  obtain ⟨_,vote,_,_,_,_,_,latest⟩ := coherent_throughout accepted ⟨1,⟨5,10⟩,1⟩ 0 5
    [.call 5 5 .timeout,.call 6 5 (.voteReply ⟨"d"⟩ .one (.ok ⟨false,.one⟩))]
  refine ⟨running,vote ?_,latest⟩
  intro idle
  cases running.symm.trans idle

end Node
end LeaderElection
