import LeaderElection.Proofs.Node.Change

namespace LeaderElection.Node

variable (now draw : Nat) (n : Node)

-- Nobody is asked anything on account of a message.
theorem onVoteRequest_sends (r : VoteRequest) : (n.onVoteRequest now draw r).sends = [] := by
  unfold onVoteRequest
  split
  · rfl
  · split
    · rfl
    · dsimp only
      split <;> rfl

theorem onHeartbeat_sends (h : Heartbeat) : (n.onHeartbeat now draw h).sends = [] := by
  unfold onHeartbeat
  split
  · rfl
  · split
    · rfl
    · dsimp only
      split <;> rfl

theorem onVoteReply_sends (peer : NodeId) (t : Term) (result : Except TransportError VoteReply) :
    (n.onVoteReply now draw peer t result).sends = [] := by
  cases result with
  | error e => rfl
  | ok reply =>
      by_cases later : n.term < reply.term
      · rw [onVoteReply_later now draw peer t later]; rfl
      · by_cases ignored : n.term ≠ t ∨ reply.granted = false ∨ n.role ≠ .candidate
        · obtain ⟨notices,kept⟩ := onVoteReply_ignored now draw peer later ignored
          rw [kept]; rfl
        · obtain ⟨same,granted,candidate⟩ : n.term = t ∧ reply.granted = true ∧ n.role = .candidate := by
            simpa using ignored
          subst same
          obtain ⟨votes,timer,running⟩ := candidate_exact.mp candidate
          rw [onVoteReply_running now draw peer running later granted]
          dsimp only
          split <;> rfl

theorem onHeartbeatReply_sends (peer : NodeId) (t : Term) (result : Except TransportError HeartbeatReply) :
    (n.onHeartbeatReply now draw peer t result).sends = [] := by
  cases result with
  | error e => rfl
  | ok reply =>
      unfold onHeartbeatReply
      dsimp only
      split
      · rfl
      · split <;> rfl

theorem broadcast_parts {d : Dispatch} (sent : d ∈ n.broadcast request) :
    d.peer ∈ n.roster.peers ∧ d.request = request := by
  obtain ⟨peer,present,same⟩ := List.mem_map.mp sent
  cases same
  exact ⟨present,rfl⟩

-- A vote is asked for at the outset of a candidacy, a heartbeat is sent at a tick of the present
-- leadership.
structure Asks (n after : Node) (d : Dispatch) : Prop where
  began : n.ballot.stand n.me = some after.ballot
  running : after.role = .candidate
  request : d.request = .vote ⟨after.term,n.me⟩

structure Beats (n after : Node) (d : Dispatch) : Prop where
  same : after = n
  leads : n.role = .leader
  request : d.request = .heartbeat ⟨n.term,n.me⟩

variable {now draw n}

theorem stand_sends {d : Dispatch} (sent : d ∈ (n.stand now draw).sends) :
    d.peer ∈ n.roster.peers ∧ Asks n (n.stand now draw).node d := by
  cases began : n.ballot.stand n.me with
  | none =>
      rw [stand_exhausted now draw began] at sent
      cases sent
  | some b =>
      by_cases alone : quorum n.roster.size ≤ 1
      · rw [stand_sole now draw began alone] at sent
        cases sent
      · have asking := stand_asking now draw began (Nat.lt_of_not_le alone)
        rw [asking] at sent ⊢
        obtain ⟨peer,request⟩ := broadcast_parts n sent
        exact ⟨peer,began,rfl,request⟩

theorem onTick_sends {d : Dispatch} (sent : d ∈ (n.onTick t).sends) :
    d.peer ∈ n.roster.peers ∧ Beats n (n.onTick t).node d := by
  unfold onTick at sent ⊢
  split at sent
  · cases sent
  · next current =>
      obtain ⟨same,leads⟩ : n.term = t ∧ n.role = .leader := by simpa using current
      subst same
      rw [if_neg current]
      obtain ⟨peer,request⟩ := broadcast_parts n sent
      exact ⟨peer,rfl,leads,request⟩

theorem apply_sends {d : Dispatch} (sent : d ∈ (n.apply now draw c).sends) :
    d.peer ∈ n.roster.peers ∧
      (Asks n (n.apply now draw c).node d ∨ Beats n (n.apply now draw c).node d) := by
  cases c with
  | candidacy =>
      obtain ⟨peer,asks⟩ := stand_sends sent
      exact ⟨peer,.inl asks⟩
  | timeout =>
      have sent : d ∈ (n.onTimeout now draw).sends := sent
      change _ ∧ (Asks n (n.onTimeout now draw).node d ∨ _)
      cases due : n.standing.timeoutDue now with
      | true =>
          rw [onTimeout_due now draw due] at sent ⊢
          obtain ⟨peer,asks⟩ := stand_sends sent
          exact ⟨peer,.inl asks⟩
      | false =>
          rw [onTimeout_stale now draw due] at sent
          cases sent
  | tick t =>
      obtain ⟨peer,beats⟩ := onTick_sends sent
      exact ⟨peer,.inr beats⟩
  | term t => cases sent
  | voteRequest r =>
      have sent : d ∈ (n.onVoteRequest now draw r).sends := sent
      rw [onVoteRequest_sends] at sent
      cases sent
  | heartbeat h =>
      have sent : d ∈ (n.onHeartbeat now draw h).sends := sent
      rw [onHeartbeat_sends] at sent
      cases sent
  | voteReply peer t result =>
      have sent : d ∈ (n.onVoteReply now draw peer t result).sends := sent
      rw [onVoteReply_sends] at sent
      cases sent
  | heartbeatReply peer t result =>
      have sent : d ∈ (n.onHeartbeatReply now draw peer t result).sends := sent
      rw [onHeartbeatReply_sends] at sent
      cases sent

end LeaderElection.Node
