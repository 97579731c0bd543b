import LeaderElection.Proofs.Node.Vote

namespace LeaderElection

def HeartbeatReply.Accepts (result : Except HeartbeatRefusal HeartbeatReply) : Prop :=
  ∃ reply, result = .ok reply ∧ reply.acked = true

-- Of requests only those of members are let in. Replies and terms come from anywhere.
def Call.Admitted (r : Roster) : Call → Prop
  | .voteRequest q => r.contains q.candidate = true
  | .heartbeat h => r.contains h.leader = true
  | _ => True

namespace Node

-- A call on which the node stands, as long as there is a term left.
def Seeks (now : Nat) (n : Node) : Call → Prop
  | .candidacy => True
  | .timeout => n.standing.timeoutDue now = true
  | _ => False

variable {now draw : Nat} {n : Node} {c : Call}

theorem met_number (t : Term) (n : Node) : (n.met now draw t).term.number = max n.term.number t.number := by
  by_cases later : n.term < t
  · rw [met_later now draw later]
    exact (Nat.max_eq_right (Nat.le_of_lt later)).symm
  · rw [met_current now draw later]
    exact (Nat.max_eq_left (Term.not_lt_iff.mp later)).symm

-- A request of an earlier term tells nothing new, so the receiver stays as if it had met it.
theorem met_stale {t : Term} (stale : t < n.term) : n.met now draw t = n :=
  met_current now draw (Nat.lt_asymm stale)

theorem onVoteRequest_term {r : VoteRequest} (known : n.roster.contains r.candidate = true) :
    (n.onVoteRequest now draw r).node.term = (n.met now draw r.term).term := by
  by_cases stale : r.term < n.term
  · rw [onVoteRequest_stale now draw known stale,met_stale stale]
    rfl
  · cases cast : (n.met now draw r.term).ballot.cast r.term r.candidate with
    | some b =>
        rw [onVoteRequest_cast now draw known stale cast]
        exact Ballot.cast_term cast
    | none =>
        rw [onVoteRequest_taken now draw known stale cast]
        rfl

theorem onHeartbeat_term {h : Heartbeat} (known : n.roster.contains h.leader = true) :
    (n.onHeartbeat now draw h).node.term = (n.met now draw h.term).term := by
  by_cases stale : h.term < n.term
  · rw [onHeartbeat_stale now draw known stale,met_stale stale]
    rfl
  · cases accepted : (n.met now draw h.term).accept now draw h.leader with
    | none =>
        rw [onHeartbeat_rival now draw known stale accepted]
        rfl
    | some next =>
        rw [onHeartbeat_accepted now draw known stale accepted]
        exact congrArg Ballot.term (accept_parts now draw accepted).2.1

theorem onVoteReply_term {reply : VoteReply} (peer : NodeId) (t : Term) :
    (n.onVoteReply now draw peer t (.ok reply)).node.term = (n.met now draw reply.term).term := by
  by_cases later : n.term < reply.term
  · rw [onVoteReply_later now draw peer t later]
    rfl
  · rw [met_current now draw later]
    have change := onVoteReply_change now draw n peer t (.ok reply)
    generalize (n.onVoteReply now draw peer t (.ok reply)).node = next at change ⊢
    cases change with
    | kept => rfl
    | stepped carried later' => cases carried; exact absurd later' later
    | stood asked _ _ => rcases asked with same | same <;> cases same
    | sole asked _ _ => rcases asked with same | same <;> cases same
    | counted _ _ _ _ => rfl
    | elected _ _ _ _ => rfl

theorem onHeartbeatReply_node {reply : HeartbeatReply} (peer : NodeId) (t : Term) :
    (n.onHeartbeatReply now draw peer t (.ok reply)).node = n.met now draw reply.term := by
  unfold onHeartbeatReply
  dsimp only
  split
  · rfl
  · split <;> rfl

theorem stand_began (began : n.ballot.stand n.me = some b) : (n.stand now draw).node.ballot = b := by
  by_cases alone : quorum n.roster.size ≤ 1
  · rw [stand_sole now draw began alone]; rfl
  · rw [stand_asking now draw began (Nat.lt_of_not_le alone)]; rfl

-- Any call that brings a term from somebody who is let in ends where meeting that term ends.
theorem apply_met (carried : c.carried = some t) (admitted : c.Admitted n.roster) :
    (n.apply now draw c).node.term = (n.met now draw t).term := by
  cases c with
  | term t' => cases carried; rfl
  | voteRequest r => cases carried; exact onVoteRequest_term admitted
  | heartbeat h => cases carried; exact onHeartbeat_term admitted
  | voteReply peer t' result =>
      cases result with
      | error e => cases carried
      | ok reply => cases carried; exact onVoteReply_term peer t'
  | heartbeatReply peer t' result =>
      cases result with
      | error e => cases carried
      | ok reply => cases carried; exact congrArg term (onHeartbeatReply_node peer t')
  | candidacy => cases carried
  | timeout => cases carried
  | tick t' => cases carried

theorem apply_stranger (stranger : ¬ c.Admitted n.roster) : (n.apply now draw c).node = n := by
  cases c with
  | voteRequest r =>
      have stranger : n.roster.contains r.candidate = false := by simpa [Call.Admitted] using stranger
      exact congrArg Step.node (onVoteRequest_stranger now draw stranger)
  | heartbeat h =>
      have stranger : n.roster.contains h.leader = false := by simpa [Call.Admitted] using stranger
      exact congrArg Step.node (onHeartbeat_stranger now draw stranger)
  | _ => exact absurd True.intro stranger

-- A failure, a tick and a timeout that is not due leave everything as it is.
theorem apply_silent (silent : c.carried = none) (idle : ¬ n.Seeks now c) : (n.apply now draw c).node = n := by
  cases c with
  | timeout =>
      have stale : n.standing.timeoutDue now = false := by simpa [Seeks] using idle
      exact congrArg Step.node (onTimeout_stale now draw stale)
  | tick t =>
      change (n.onTick t).node = n
      unfold onTick
      split <;> rfl
  | voteReply peer t result =>
      cases result with
      | error e => rfl
      | ok reply => cases silent
  | heartbeatReply peer t result =>
      cases result with
      | error e => rfl
      | ok reply => cases silent
  | candidacy => exact absurd True.intro idle
  | term t => cases silent
  | voteRequest r => cases silent
  | heartbeat h => cases silent

theorem seeks_stands (seeks : n.Seeks now c) :
    n.apply now draw c = (n.stand now draw).map fun _ => .done := by
  cases c with
  | candidacy => rfl
  | timeout => exact congrArg (Step.map fun _ => Answer.done) (onTimeout_due now draw seeks)
  | _ => exact seeks.elim

theorem seeks_began (seeks : n.Seeks now c) (began : n.ballot.stand n.me = some b) :
    (n.apply now draw c).node.ballot = b := by
  rw [seeks_stands seeks]
  exact stand_began began

theorem stand_some (room : n.term.number+1 < UInt64.size) : ∃ b, n.ballot.stand n.me = some b ∧
    b.term.number = n.term.number+1 := by
  have next : n.term.next = some ⟨n.term.number+1,room⟩ := dif_pos room
  exact ⟨⟨_,some n.me⟩,Ballot.stand_exact.mpr ⟨next,rfl⟩,rfl⟩

theorem stand_none (last : n.term.number+1 = UInt64.size) : n.ballot.stand n.me = none := by
  have next : n.term.next = none := dif_neg (by omega)
  exact congrArg (Option.map _) next

-- Whoever is taken to a later term by others follows there, with no vote but one asked for and
-- granted, and no leader but one heard from.
theorem raised_follows (idle : ¬ n.Seeks now c) (later : n.term < (n.apply now draw c).node.term) :
    (n.apply now draw c).node.role = .follower ∧
    ((n.apply now draw c).node.status.vote = none ∨ ∃ r, c = .voteRequest r ∧
      VoteReply.Grants (n.onVoteRequest now draw r).answer ∧
      (n.apply now draw c).node.status.vote = some r.candidate) ∧
    ((n.apply now draw c).node.status.leader = none ∨ ∃ h, c = .heartbeat h ∧
      HeartbeatReply.Accepts (n.onHeartbeat now draw h).answer ∧
      (n.apply now draw c).node.status.leader = some h.leader) := by
  have brought : c.carried ≠ none := by
    intro silent
    rw [apply_silent silent idle] at later
    exact Term.lt_irrefl _ later
  have change := apply_change now draw n c
  generalize (n.apply now draw c).node = next at change later ⊢
  cases change with
  | kept => exact absurd later (Term.lt_irrefl _)
  | stepped _ beyond =>
      rw [met_later now draw beyond]
      exact ⟨rfl,.inl rfl,.inl rfl⟩
  | @voted b r known reached cast =>
      have granted : VoteReply.Grants (n.onVoteRequest now draw r).answer :=
        onVoteRequest_granted.mpr ⟨known,reached,(Ballot.cast_exact.mp cast).2.1⟩
      have vote : b.vote = some r.candidate := by rw [(Ballot.cast_exact.mp cast).2.2]
      have current : b.term = r.term := (Ballot.cast_term cast).trans (met_term now draw reached)
      have beyond : n.term < r.term := by
        rw [← current]
        exact later
      rw [met_later now draw beyond]
      exact ⟨rfl,.inr ⟨r,rfl,granted,vote⟩,.inl rfl⟩
  | @followed after h known reached accepted =>
      have answered := onHeartbeat_accepted now draw known reached accepted
      have accepts : HeartbeatReply.Accepts (n.onHeartbeat now draw h).answer := by
        rw [answered]
        exact ⟨_,rfl,rfl⟩
      obtain ⟨_,ballot,_,⟨_,standing⟩,_⟩ := accept_parts now draw accepted
      have current : after.term = h.term := (congrArg Ballot.term ballot).trans (met_term now draw reached)
      have beyond : n.term < h.term := by
        rw [← current]
        exact later
      refine ⟨?_,.inl ?_,.inr ⟨h,rfl,accepts,?_⟩⟩
      · rw [role,defer_standing,standing]; rfl
      · change after.ballot.vote = none
        rw [ballot,met_later now draw beyond]
        rfl
      · rw [status,defer_standing,standing]; rfl
  | stood asked _ _ => rcases asked with rfl | rfl <;> exact absurd rfl brought
  | sole asked _ _ => rcases asked with rfl | rfl <;> exact absurd rfl brought
  | counted _ _ _ _ => exact absurd later (Term.lt_irrefl _)
  | elected _ _ _ _ => exact absurd later (Term.lt_irrefl _)

-- At any moment of a run, for any call that comes next.
theorem term_law (roster : Roster) (timings : Timings) (start first : Nat) (deeds : List Deed) (now draw : Nat) :
    let n := (create start first roster timings).run deeds
    (∀ c t, c.carried = some t → c.Admitted roster →
      (n.apply now draw c).node.term.number = max n.term.number t.number) ∧
    (∀ c, ¬ c.Admitted roster → (n.apply now draw c).node = n) ∧
    (∀ c, c.carried = none → ¬ n.Seeks now c → (n.apply now draw c).node = n) ∧
    (∀ c, n.Seeks now c → n.term.number+1 < UInt64.size →
      (n.apply now draw c).node.term.number = n.term.number+1) ∧
    (∀ c, n.Seeks now c → n.term.number+1 = UInt64.size →
      (n.apply now draw c).node = n ∧ (n.apply now draw c).sends = [] ∧ (n.apply now draw c).heard = none) ∧
    (∀ more, n.term ≤ (n.run more).term) ∧
    (∀ c, ¬ n.Seeks now c → n.term < (n.apply now draw c).node.term →
      let after := (n.apply now draw c).node
      after.role = .follower ∧
      (after.status.vote = none ∨ ∃ r, c = .voteRequest r ∧
        VoteReply.Grants (n.onVoteRequest now draw r).answer ∧ after.status.vote = some r.candidate) ∧
      (after.status.leader = none ∨ ∃ h, c = .heartbeat h ∧
        HeartbeatReply.Accepts (n.onHeartbeat now draw h).answer ∧ after.status.leader = some h.leader)) := by
  intro n
  have same : n.roster = roster := run_roster deeds _
  refine ⟨?_,?_,?_,?_,?_,?_,?_⟩
  · intro c t carried admitted
    rw [apply_met carried (same ▸ admitted)]
    exact met_number t n
  · intro c stranger
    exact apply_stranger (same ▸ stranger)
  · intro c silent idle
    exact apply_silent silent idle
  · intro c seeks room
    obtain ⟨b,began,number⟩ := stand_some room
    rw [term,seeks_began seeks began]
    exact number
  · intro c seeks last
    rw [seeks_stands seeks,stand_exhausted now draw (stand_none last)]
    exact ⟨rfl,rfl,rfl⟩
  · intro more
    exact (n.run_onward more).term_le
  · intro c idle later
    exact raised_follows idle later

-- A heartbeat of the last term, and no candidacy behind it.
theorem last_term_of_trio :
    let n := create 0 5 ⟨⟨"b"⟩,⟨"b",100⟩,[⟨⟨"a"⟩,⟨"a",100⟩⟩,⟨⟨"c"⟩,⟨"c",100⟩⟩]⟩ ⟨1,⟨5,10⟩,1⟩
    let late := (n.apply 1 5 (.heartbeat ⟨.last,⟨"c"⟩⟩)).node
    late.term = .last ∧ late.role = .follower ∧ (late.apply 9 5 .candidacy).node = late := by
  intro n late
  obtain ⟨told,_,_,_,_,_,raised⟩ := term_law n.roster n.timings 0 5 [] 1 5
  obtain ⟨_,_,_,_,ended,_⟩ := term_law n.roster n.timings 0 5 [.call 1 5 (.heartbeat ⟨.last,⟨"c"⟩⟩)] 9 5
  have term : late.term.number = max 0 Term.last.number := told _ _ rfl rfl
  have later : n.term < late.term := by rw [Term.lt_iff,term]; decide
  have full : late.term.number+1 = UInt64.size := by rw [term]; decide
  refine ⟨Term.ext term,(raised _ id later).1,(ended .candidacy True.intro full).1⟩

end Node
end LeaderElection
