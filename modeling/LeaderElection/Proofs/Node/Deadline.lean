import LeaderElection.Proofs.Node.Round

namespace LeaderElection

theorem Range.Holds.least {r : Range} {d : Nat} (holds : r.Holds d) : r.start ≤ d := by
  unfold Range.Holds at holds
  split at holds <;> omega

theorem ElectionTimer.wake_deadline {t : ElectionTimer} {result : ElectionTimer × Bool}
    (woken : t.wake now draw = some result) : result.1.deadline = t.deadline := by
  unfold wake at woken
  split at woken
  · split at woken
    · split at woken <;> cases woken <;> rfl
    · cases woken; rfl
  · cases woken

-- A timer does not fire before its deadline.
theorem ElectionTimer.wake_early {t : ElectionTimer} {result : ElectionTimer × Bool} (soon : now < t.deadline)
    (woken : t.wake now draw = some result) : result.2 = false := by
  have waits : t.expired now = false := by simpa [expired] using soon
  unfold wake at woken
  split at woken
  · split at woken
    · simp [waits] at woken; subst woken; rfl
    · cases woken; rfl
  · cases woken

namespace Node

-- When the node may stand next, unless that is put off. A leader does not wait for it.
def deadline? (n : Node) : Option Nat := match n.standing.office with
  | .leader _ => none
  | .candidate _ timer => some timer.deadline
  | .follower _ timer => some timer.deadline

-- No candidacy before `moment`, as far as the present timer goes.
def Spared (moment : Nat) (n : Node) : Prop := ∀ deadline, n.deadline? = some deadline → moment ≤ deadline

-- Whatever timer there is has just been started or put off.
def Rearmed (now draw : Nat) (n : Node) : Prop := ∀ deadline, n.deadline? = some deadline → deadline = now+draw

-- What tells a follower that all is well: a leader it accepts, or a candidate it votes for.
inductive Refreshed (n : Node) : Deed → Prop where
  | heard (accepts : HeartbeatReply.Accepts (n.onHeartbeat now draw h).answer) :
      Refreshed n (.call now draw (.heartbeat h))
  | voted (grants : VoteReply.Grants (n.onVoteRequest now draw r).answer)
      (follows : (n.onVoteRequest now draw r).node.role = .follower) :
      Refreshed n (.call now draw (.voteRequest r))

-- Whatever begins a quiet period: a candidacy, another role or term that is left for a follower's,
-- and what refreshes a follower.
inductive Stirred (n : Node) (d : Deed) : Prop where
  | began (begins : n.Begins t d)
  | fell (follows : (n.does d).role = .follower) (anew : n.role ≠ .follower ∨ n.term < (n.does d).term)
  | refreshed (refreshed : n.Refreshed d)

variable {now draw moment : Nat} {n next : Node} {d : Deed} {c : Call}

theorem timeoutDue_deadline :
    n.standing.timeoutDue now = true ↔ ∃ deadline, n.deadline? = some deadline ∧ deadline ≤ now := by
  unfold Standing.timeoutDue deadline?
  cases n.standing.office <;> simp [ElectionTimer.expired]

theorem Rearmed.spared (rearmed : Rearmed now draw n) (later : moment ≤ now+draw) : n.Spared moment := by
  intro deadline present
  rw [rearmed deadline present]
  exact later

theorem follow_rearmed (t : Term) (leader : Option NodeId) (n : Node) : Rearmed now draw (n.follow now draw t leader) := by
  intro deadline present
  cases present
  rfl

theorem met_rearmed {t : Term} (later : n.term < t) : Rearmed now draw (n.met now draw t) := by
  rw [met_later now draw later]
  exact follow_rearmed t none _

theorem defer_rearmed (follows : n.role = .follower) : Rearmed now draw (n.defer now draw) := by
  intro deadline present
  unfold role Standing.role at follows
  cases office : n.standing.office with
  | follower leader timer =>
      rw [deadline?,defer_standing,Standing.defer,office] at present
      exact (Option.some.inj present).symm
  | leader _ => simp [office] at follows
  | candidate _ _ => simp [office] at follows

theorem defer_busy (busy : n.role ≠ .follower) : (n.defer now draw).deadline? = n.deadline? := by
  unfold role Standing.role at busy
  unfold deadline?
  rw [defer_standing,Standing.defer]
  cases office : n.standing.office with
  | follower leader timer => simp [office] at busy
  | leader _ => simp [office]
  | candidate _ _ => simp [office]

theorem stand_rearmed (began : n.ballot.stand n.me = some b) : Rearmed now draw (n.stand now draw).node := by
  by_cases alone : quorum n.roster.size ≤ 1
  · rw [stand_sole now draw began alone]
    exact nofun
  · rw [stand_asking now draw began (Nat.lt_of_not_le alone)]
    exact fun _ present => (Option.some.inj present).symm

theorem accept_follows (accepted : n.accept now draw l = some next) : next.role = .follower := by
  obtain ⟨_,_,_,⟨_,standing⟩,_⟩ := accept_parts now draw accepted
  rw [role,standing]
  rfl

-- A node that is no follower once it has met a term has been in it before.
theorem met_busy (busy : (n.met now draw t).role ≠ .follower) : n.met now draw t = n := by
  by_cases later : n.term < t
  · rw [met_later now draw later] at busy
    exact absurd rfl busy
  · exact met_current now draw later

-- A call that neither starts a timer nor puts one off leaves the one there is.
theorem Change.deadline (change : Change now draw n c next) :
    next.deadline? = n.deadline? ∨ Rearmed now draw next := by
  cases change with
  | kept => exact .inl rfl
  | stepped _ later => exact .inr (met_rearmed later)
  | @voted b r _ _ _ =>
      by_cases follows : (n.met now draw r.term).role = .follower
      · exact .inr (defer_rearmed follows)
      · refine .inl ((defer_busy follows).trans ?_)
        exact congrArg deadline? (met_busy follows)
  | followed _ _ accepted => exact .inr (defer_rearmed (accept_follows accepted))
  | stood _ _ _ => exact .inr fun _ present => (Option.some.inj present).symm
  | sole _ _ _ => exact .inr nofun
  | counted running _ _ _ =>
      refine .inl ?_
      unfold deadline?
      rw [running]
      rfl
  | elected _ _ _ _ => exact .inr nofun

theorem Spared.apply (spared : n.Spared moment) (later : moment ≤ now+draw) (c : Call) :
    (n.apply now draw c).node.Spared moment := by
  rcases (apply_change now draw n c).deadline with same | rearmed
  · intro deadline present
    exact spared deadline (same ▸ present)
  · exact rearmed.spared later

-- Nobody becomes a follower, or one in another term, without a new timeout.
theorem Change.fell (change : Change now draw n c next) (follows : next.role = .follower)
    (anew : n.role ≠ .follower ∨ n.term < next.term) : Rearmed now draw next := by
  cases change with
  | kept => exact absurd anew (by simp [follows,Term.lt_irrefl])
  | stepped _ later => exact met_rearmed later
  | @voted b r _ _ _ =>
      refine defer_rearmed ?_
      rw [role,defer_standing,Standing.defer_role] at follows
      exact follows
  | followed _ _ accepted => exact defer_rearmed (accept_follows accepted)
  | stood _ _ _ => cases follows
  | sole _ _ _ => cases follows
  | counted _ _ _ _ => cases follows
  | elected _ _ _ _ => cases follows

-- Whoever accepts a heartbeat follows its sender, from a new timeout on.
theorem accepts_admitted {h : Heartbeat} (accepts : HeartbeatReply.Accepts (n.onHeartbeat now draw h).answer) :
    n.roster.contains h.leader = true ∧ ¬ h.term < n.term := by
  obtain ⟨reply,answer,_⟩ := accepts
  cases known : n.roster.contains h.leader with
  | false => rw [onHeartbeat_stranger now draw known] at answer; cases answer
  | true =>
      refine ⟨rfl,?_⟩
      intro stale
      rw [onHeartbeat_stale now draw known stale] at answer
      cases answer

theorem accepts_parts {h : Heartbeat} (accepts : HeartbeatReply.Accepts (n.onHeartbeat now draw h).answer) :
    ∃ next, (n.met now draw h.term).accept now draw h.leader = some next ∧
      n.onHeartbeat now draw h =
        ⟨.ok ⟨true,next.term⟩,next.defer now draw,[],some h.leader,(n.meet now draw h.term).2⟩ := by
  obtain ⟨known,reached⟩ := accepts_admitted accepts
  obtain ⟨reply,answer,_⟩ := accepts
  cases accepted : (n.met now draw h.term).accept now draw h.leader with
  | none => rw [onHeartbeat_rival now draw known reached accepted] at answer; cases answer
  | some next => exact ⟨next,rfl,onHeartbeat_accepted now draw known reached accepted⟩

theorem grants_parts {r : VoteRequest} (grants : VoteReply.Grants (n.onVoteRequest now draw r).answer) :
    ∃ b, (n.met now draw r.term).ballot.cast r.term r.candidate = some b ∧ n.onVoteRequest now draw r =
      .only (.ok ⟨true,b.term⟩) (defer now draw {n.met now draw r.term with ballot := b})
        ((n.meet now draw r.term).2 ++ [.voted r.candidate r.term]) := by
  obtain ⟨known,reached,free⟩ := onVoteRequest_granted.mp grants
  have cast := Ballot.cast_exact.mpr ⟨(met_term now draw reached).symm,free,rfl⟩
  exact ⟨_,cast,onVoteRequest_cast now draw known reached cast⟩

theorem Refreshed.follows (refreshed : n.Refreshed d) : (n.does d).role = .follower := by
  cases refreshed with
  | @heard now draw h accepts =>
      obtain ⟨next,accepted,parts⟩ := accepts_parts accepts
      have after : n.does (.call now draw (.heartbeat h)) = next.defer now draw := congrArg Step.node parts
      rw [after,role,defer_standing,Standing.defer_role]
      exact accept_follows accepted
  | voted _ follows => exact follows

theorem Refreshed.rearmed (refreshed : n.Refreshed (.call now draw c)) :
    Rearmed now draw (n.does (.call now draw c)) := by
  have follows := refreshed.follows
  cases refreshed with
  | @heard _ _ h accepts =>
      obtain ⟨next,accepted,parts⟩ := accepts_parts accepts
      have after : n.does (.call now draw (.heartbeat h)) = next.defer now draw := congrArg Step.node parts
      rw [after]
      exact defer_rearmed (accept_follows accepted)
  | @voted _ _ r grants _ =>
      obtain ⟨b,_,parts⟩ := grants_parts grants
      have after : n.does (.call now draw (.voteRequest r)) =
          defer now draw {n.met now draw r.term with ballot := b} := congrArg Step.node parts
      rw [after] at follows ⊢
      rw [role,defer_standing,Standing.defer_role] at follows
      exact defer_rearmed follows

-- After each of these the node waits for as long as it has just drawn.
theorem Stirred.rearmed (stirred : n.Stirred (.call now draw c)) : Rearmed now draw (n.does (.call now draw c)) := by
  cases stirred with
  | @began t begins =>
      obtain ⟨seeks,next⟩ := begins
      have began : n.ballot.stand n.me = some ⟨t,some n.me⟩ := Ballot.stand_exact.mpr ⟨next,rfl⟩
      have after : n.does (.call now draw c) = (n.stand now draw).node := congrArg Step.node (seeks_stands seeks)
      rw [after]
      exact stand_rearmed began
  | fell follows anew => exact (apply_change now draw n c).fell follows anew
  | refreshed refreshed => exact refreshed.rearmed

-- The timer's task never moves the deadline itself.
theorem wake_deadline (now draw : Nat) (n : Node) : (n.does (.wake now draw)).deadline? = n.deadline? := by
  cases woken : n.wake now draw with
  | none => simp [does,woken]
  | some result =>
      have after : n.does (.wake now draw) = result.1 := by simp [does,woken]
      rw [after]
      unfold wake at woken
      cases office : n.standing.office with
      | leader beat =>
          rw [office] at woken
          obtain ⟨_,_,rfl⟩ := Option.map_eq_some_iff.mp woken
          rw [deadline?,deadline?,office]
      | candidate votes timer =>
          rw [office] at woken
          obtain ⟨_,rung,rfl⟩ := Option.map_eq_some_iff.mp woken
          rw [deadline?,deadline?,office]
          exact congrArg some (ElectionTimer.wake_deadline rung)
      | follower leader timer =>
          rw [office] at woken
          obtain ⟨_,rung,rfl⟩ := Option.map_eq_some_iff.mp woken
          rw [deadline?,deadline?,office]
          exact congrArg some (ElectionTimer.wake_deadline rung)

theorem wake_calm : ¬ n.Stirred (.wake now draw) := by
  intro stirred
  obtain ⟨_,same,_,role,_⟩ := does_wake now draw n
  cases stirred with
  | began begins => exact begins.elim
  | fell follows anew =>
      rw [role] at follows
      rcases anew with busy | later
      · exact busy follows
      · rw [same] at later
        exact Term.lt_irrefl _ later
  | refreshed refreshed => cases refreshed

end Node
end LeaderElection
