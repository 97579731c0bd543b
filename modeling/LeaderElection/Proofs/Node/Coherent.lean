import LeaderElection.Proofs.Node.Change

namespace LeaderElection

-- Putting a timeout off is seen by nobody.
namespace Standing

variable (now draw : Nat) (s : Standing)

@[simp] theorem defer_term : (s.defer now draw).term = s.term := by
  unfold defer
  split <;> rfl

@[simp] theorem defer_role : (s.defer now draw).role = s.role := by
  obtain ⟨term,office⟩ := s
  cases office <;> rfl

@[simp] theorem defer_leader (me : NodeId) : (s.defer now draw).leader me = s.leader me := by
  obtain ⟨term,office⟩ := s
  cases office <;> rfl

@[simp] theorem defer_snapshot : (s.defer now draw).snapshot = s.snapshot := by
  obtain ⟨term,office⟩ := s
  cases office with
  | leader beat => rfl
  | candidate votes timer => rfl
  | follower leader timer => cases leader <;> rfl

theorem defer_candidate {s : Standing} :
    (s.defer now draw).office = .candidate votes timer ↔ s.office = .candidate votes timer := by
  obtain ⟨term,office⟩ := s
  cases office <;> simp [defer]

end Standing

namespace Node

variable (now draw : Nat)

@[simp] theorem defer_ballot (n : Node) : (n.defer now draw).ballot = n.ballot := rfl
@[simp] theorem defer_roster (n : Node) : (n.defer now draw).roster = n.roster := rfl
@[simp] theorem defer_standing (n : Node) : (n.defer now draw).standing = n.standing.defer now draw := rfl

-- Whoever is accepted is followed in the same term, and that is told unless it was told before.
theorem accept_parts {n : Node} (accepted : n.accept now draw l = some next) :
    n.role ≠ .leader ∧ next.ballot = n.ballot ∧ next.roster = n.roster ∧
      (∃ timer, next.standing = ⟨n.standing.term,.follower (some l) timer⟩) ∧
      (next = n ∨ next.feed = n.feed.publish next.standing.snapshot) := by
  unfold accept at accepted
  unfold role Standing.role
  cases office : n.standing.office with
  | leader beat => simp [office] at accepted
  | candidate votes timer =>
      simp only [office,Option.some.injEq] at accepted
      cases accepted
      exact ⟨nofun,rfl,rfl,⟨_,rfl⟩,.inr rfl⟩
  | follower current timer =>
      simp only [office] at accepted
      split at accepted
      · next same =>
          cases accepted
          refine ⟨nofun,rfl,rfl,⟨timer,?_⟩,.inl rfl⟩
          rw [← same,← office]
      · cases accepted
        exact ⟨nofun,rfl,rfl,⟨timer,rfl⟩,.inr rfl⟩

theorem accept_none {n : Node} : n.accept now draw l = none ↔ n.role = .leader := by
  unfold accept role Standing.role
  cases n.standing.office with
  | leader beat => simp
  | candidate votes timer => simp
  | follower current timer => by_cases same : current = some l <;> simp [same]

namespace Change

variable {now draw} {n next : Node}

theorem roster (change : Change now draw n c next) : next.roster = n.roster := by
  cases change with
  | kept => rfl
  | stepped _ _ => exact met_roster ..
  | voted _ _ _ => exact met_roster ..
  | followed _ _ accepted => exact (accept_parts now draw accepted).2.2.1.trans (met_roster ..)
  | stood _ _ _ => rfl
  | sole _ _ _ => rfl
  | counted _ _ _ _ => rfl
  | elected _ _ _ _ => rfl

-- No call takes a vote back.
theorem onward (change : Change now draw n c next) : n.ballot.Onward next.ballot := by
  cases change with
  | kept => exact .refl _
  | stepped _ _ => exact met_onward ..
  | voted _ _ cast => exact (met_onward ..).trans (Ballot.cast_onward cast)
  | followed _ _ accepted =>
      rw [defer_ballot,(accept_parts now draw accepted).2.1]
      exact met_onward ..
  | stood _ began _ => exact Ballot.stand_onward began
  | sole _ began _ => exact Ballot.stand_onward began
  | counted _ _ _ _ => exact .refl _
  | elected _ _ _ _ => exact .refl _

end Change

-- What holds of a node between any two calls. A candidate or leader has its own vote, and a
-- candidate is always short of a majority.
structure Coherent (n : Node) : Prop where
  term : n.standing.term = n.term
  own : n.role ≠ .follower → n.ballot.vote = some n.me
  votes : ∀ votes timer, n.standing.office = .candidate votes timer →
    n.me ∈ votes ∧ votes.Nodup ∧ votes.length < quorum n.roster.size
  told : n.feed.latest = n.standing.snapshot

namespace Coherent

variable {n next : Node} {votes : List NodeId} {timer : ElectionTimer}

theorem created (roster : Roster) (timings : Timings) : (create now draw roster timings).Coherent :=
  ⟨rfl,fun busy => absurd rfl busy,nofun,rfl⟩

theorem met (coherent : n.Coherent) (t : Term) : (n.met now draw t).Coherent := by
  by_cases later : n.term < t
  · rw [met_later now draw later]
    exact ⟨rfl,fun busy => absurd rfl busy,nofun,rfl⟩
  · rw [met_current now draw later]
    exact coherent

theorem defer (coherent : n.Coherent) : (n.defer now draw).Coherent := by
  refine ⟨?_,?_,?_,?_⟩
  · rw [defer_standing,Standing.defer_term]
    exact coherent.term
  · intro busy
    refine coherent.own ?_
    rwa [role,defer_standing,Standing.defer_role] at busy
  · intro votes timer running
    exact coherent.votes votes timer ((Standing.defer_candidate now draw).mp running)
  · rw [defer_standing,Standing.defer_snapshot]
    exact coherent.told

theorem cast (coherent : n.Coherent) (cast : n.ballot.cast t c = some b) :
    Coherent {n with ballot := b} := by
  obtain ⟨current,free,rfl⟩ := Ballot.cast_exact.mp cast
  refine ⟨coherent.term.trans current.symm,?_,coherent.votes,coherent.told⟩
  intro busy
  have own := coherent.own busy
  rcases free with none | again
  · rw [none] at own; cases own
  · exact again.symm.trans own

theorem accept (coherent : n.Coherent) (accepted : n.accept now draw l = some next) : next.Coherent := by
  obtain ⟨_,ballot,roster,⟨timer,standing⟩,told⟩ := accept_parts now draw accepted
  refine ⟨?_,?_,?_,?_⟩
  · rw [standing,Node.term,ballot]
    exact coherent.term
  · intro busy
    rw [role,standing] at busy
    exact absurd rfl busy
  · intro votes timer running
    rw [standing] at running
    cases running
  · rcases told with same | published
    · rw [same]; exact coherent.told
    · rw [published]; rfl

theorem candidate (n : Node) (began : n.ballot.stand n.me = some b) (others : 1 < quorum n.roster.size) :
    (n.candidate now draw b).Coherent := by
  refine ⟨rfl,fun _ => (Ballot.stand_exact.mp began).2,?_,rfl⟩
  intro votes timer running
  cases running
  exact ⟨List.mem_singleton_self _,by simp,others⟩

theorem count (coherent : n.Coherent) (running : n.standing.office = .candidate votes timer)
    (few : (tally peer votes).length < quorum n.roster.size) :
    (n.count (tally peer votes) timer).Coherent := by
  obtain ⟨own,distinct,_⟩ := coherent.votes votes timer running
  refine ⟨coherent.term,fun _ => coherent.own (by simp [candidate_exact.mpr ⟨votes,timer,running⟩]),?_,?_⟩
  · intro votes' timer' running'
    cases running'
    exact ⟨tally_mem.mpr (.inr own),tally_nodup peer distinct,few⟩
  · have told := coherent.told
    simp only [Standing.snapshot,running] at told
    exact told

theorem change (coherent : n.Coherent) (change : Change now draw n c next) : next.Coherent := by
  cases change with
  | kept => exact coherent
  | stepped _ _ => exact coherent.met now draw _
  | voted _ _ cast => exact ((coherent.met now draw _).cast cast).defer now draw
  | followed _ _ accepted => exact ((coherent.met now draw _).accept now draw accepted).defer now draw
  | stood _ began others => exact candidate now draw n began others
  | sole _ began _ => exact ⟨rfl,fun _ => (Ballot.stand_exact.mp began).2,nofun,rfl⟩
  | counted running _ _ few => exact coherent.count running few
  | elected running _ _ _ =>
      exact ⟨rfl,fun _ => coherent.own (by simp [candidate_exact.mpr ⟨_,_,running⟩]),nofun,rfl⟩

theorem apply (coherent : n.Coherent) (c : Call) : (n.apply now draw c).node.Coherent :=
  coherent.change now draw (apply_change now draw n c)

end Coherent
end Node
end LeaderElection
