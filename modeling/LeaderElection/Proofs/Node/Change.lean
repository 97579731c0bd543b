import LeaderElection.Node.Call
import LeaderElection.Node.Standing
import LeaderElection.Proofs.Basic

namespace LeaderElection

namespace Ballot

-- The order in which one member's ballots can come: a later term leaves everything open, within
-- a term a vote once cast stays.
def Onward (early late : Ballot) : Prop :=
  early.term < late.term ∨ early.term = late.term ∧ (early.vote = none ∨ early.vote = late.vote)

namespace Onward

theorem refl (b : Ballot) : Onward b b := .inr ⟨rfl,.inr rfl⟩

theorem term_le (onward : Onward a b) : a.term ≤ b.term := by
  rcases onward with later | ⟨same,_⟩
  · exact Nat.le_of_lt later
  · exact same ▸ Term.le_refl _

theorem trans (ab : Onward a b) (bc : Onward b c) : Onward a c := by
  rcases ab with later | ⟨same,kept⟩
  · exact .inl (Nat.lt_of_lt_of_le later bc.term_le)
  · rcases bc with later | ⟨same',kept'⟩
    · exact .inl (same ▸ later)
    · refine .inr ⟨same.trans same',?_⟩
      rcases kept with none | eq
      · exact .inl none
      · exact eq ▸ kept'

theorem vote_kept (onward : Onward a b) (same : a.term = b.term) (cast : a.vote = some v) : b.vote = some v := by
  rcases onward with later | ⟨_,none | eq⟩
  · exact absurd (same ▸ later) (Term.lt_irrefl _)
  · rw [none] at cast; cases cast
  · exact eq ▸ cast

end Onward

-- Two ballots of one member come one after the other, so they agree where they are of one term.
theorem vote_unique {a b : Ballot} (ordered : Onward a b ∨ Onward b a) (same : a.term = b.term)
    (cast : a.vote = some v) (cast' : b.vote = some v') : v = v' := by
  rcases ordered with onward | onward
  · exact Option.some.inj ((onward.vote_kept same cast).symm.trans cast')
  · exact Option.some.inj (cast.symm.trans (onward.vote_kept same.symm cast'))

theorem raise_later (later : b.term < t) : raise t b = ⟨t,none⟩ := if_pos later

-- A vote is cast where none has been cast, or where it stands already.
theorem cast_exact : cast t c b = some after ↔
    t = b.term ∧ (b.vote = none ∨ b.vote = some c) ∧ after = ⟨t,some c⟩ := by
  obtain ⟨term,vote⟩ := b
  unfold cast
  constructor
  · intro done
    split at done
    · cases done
    · next same =>
        have current : t = term := Classical.not_not.mp same
        cases vote with
        | none => cases done; exact ⟨current,.inl rfl,by rw [current]⟩
        | some chosen =>
            by_cases again : chosen = c
            · simp only [again,if_true] at done
              cases done
              exact ⟨current,.inr (by rw [again]),by rw [current]⟩
            · simp only [again,if_false] at done
              cases done
  · rintro ⟨rfl,free | again,rfl⟩
    · cases free; simp
    · cases again; simp

theorem cast_term (done : cast t c b = some after) : after.term = b.term := by
  obtain ⟨current,_,rfl⟩ := cast_exact.mp done
  exact current

theorem cast_onward (done : cast t c b = some after) : Onward b after := by
  obtain ⟨current,free,rfl⟩ := cast_exact.mp done
  exact .inr ⟨current.symm,free⟩

theorem stand_exact : stand me b = some after ↔ b.term.next = some after.term ∧ after.vote = some me := by
  constructor
  · intro began
    obtain ⟨t,next,rfl⟩ := Option.map_eq_some_iff.mp began
    exact ⟨next,rfl⟩
  · rintro ⟨next,own⟩
    obtain ⟨t,vote⟩ := after
    cases own
    simp [stand,next]

theorem stand_onward (began : stand me b = some after) : Onward b after :=
  .inl (Term.lt_next (stand_exact.mp began).1)

end Ballot

-- The term a call brings along from another member, if any.
def Call.carried : Call → Option Term
  | .term t => some t
  | .voteRequest r => some r.term
  | .heartbeat h => some h.term
  | .voteReply _ _ (.ok reply) => some reply.term
  | .heartbeatReply _ _ (.ok reply) => some reply.term
  | _ => none

namespace Node

variable (now draw : Nat)

-- A node once it has met a term.
def met (t : Term) (n : Node) : Node := (n.meet now draw t).1

-- A node at the outset of its candidacy, a candidate with other votes, and one vote more.
def candidate (ballot : Ballot) (n : Node) : Node :=
  enter ⟨ballot.term,.candidate [n.me] (.start now draw)⟩ {n with ballot}

def count (votes : List NodeId) (timer : ElectionTimer) (n : Node) : Node :=
  {n with standing := {n.standing with office := .candidate votes timer}}

def tally (peer : NodeId) (votes : List NodeId) : List NodeId :=
  if votes.contains peer then votes else peer :: votes

theorem tally_mem : voter ∈ tally peer votes ↔ voter = peer ∨ voter ∈ votes := by
  unfold tally
  split
  · next again =>
      have again : peer ∈ votes := by simpa using again
      exact ⟨.inr,fun either => either.elim (fun same => same ▸ again) (fun old => old)⟩
  · exact List.mem_cons

theorem tally_nodup (peer : NodeId) (distinct : votes.Nodup) : (tally peer votes).Nodup := by
  unfold tally
  split
  · exact distinct
  · next new => exact List.nodup_cons.mpr ⟨by simpa using new,distinct⟩

theorem candidate_exact {n : Node} :
    n.role = .candidate ↔ ∃ votes timer, n.standing.office = .candidate votes timer := by
  unfold role Standing.role
  cases n.standing.office <;> simp

theorem leader_exact {n : Node} : n.role = .leader ↔ ∃ beat, n.standing.office = .leader beat := by
  unfold role Standing.role
  cases n.standing.office <;> simp

theorem meet_later {n : Node} (later : n.term < t) : n.meet now draw t =
    (follow now draw t none {n with ballot := ⟨t,none⟩},[.steppedDown t n.role]) := by
  rw [meet,if_pos later,Ballot.raise_later later]

theorem meet_current {n : Node} (current : ¬ n.term < t) : n.meet now draw t = (n,[]) := if_neg current

theorem met_later {n : Node} (later : n.term < t) :
    n.met now draw t = follow now draw t none {n with ballot := ⟨t,none⟩} := by
  rw [met,meet_later now draw later]

theorem met_current {n : Node} (current : ¬ n.term < t) : n.met now draw t = n := by
  rw [met,meet_current now draw current]

@[simp] theorem met_roster (t : Term) (n : Node) : (n.met now draw t).roster = n.roster := by
  unfold met meet
  split <;> rfl

theorem met_term {n : Node} (reached : ¬ t < n.term) : (n.met now draw t).term = t := by
  by_cases later : n.term < t
  · rw [met_later now draw later]; rfl
  · rw [met_current now draw later]
    exact Term.eq_of_not_lt (Term.not_lt_iff.mp reached) later

theorem met_onward (t : Term) (n : Node) : n.ballot.Onward (n.met now draw t).ballot := by
  by_cases later : n.term < t
  · rw [met_later now draw later]; exact .inl later
  · rw [met_current now draw later]; exact .refl _

-- All that one call can make of a node, and when.
inductive Change (n : Node) : Call → Node → Prop where
  | kept : Change n c n
  | stepped (carried : c.carried = some t) (later : n.term < t) : Change n c (n.met now draw t)
  | voted (known : n.roster.contains r.candidate = true) (reached : ¬ r.term < n.term)
      (cast : (n.met now draw r.term).ballot.cast r.term r.candidate = some b) :
      Change n (.voteRequest r) (defer now draw {n.met now draw r.term with ballot := b})
  | followed (known : n.roster.contains h.leader = true) (reached : ¬ h.term < n.term)
      (accepted : (n.met now draw h.term).accept now draw h.leader = some next) :
      Change n (.heartbeat h) (next.defer now draw)
  | stood (asked : c = .candidacy ∨ c = .timeout) (began : n.ballot.stand n.me = some b)
      (others : 1 < quorum n.roster.size) : Change n c (n.candidate now draw b)
  | sole (asked : c = .candidacy ∨ c = .timeout) (began : n.ballot.stand n.me = some b)
      (alone : quorum n.roster.size ≤ 1) : Change n c ((n.candidate now draw b).lead now b.term)
  | counted (running : n.standing.office = .candidate votes timer) (current : ¬ n.term < reply.term)
      (granted : reply.granted = true) (few : (tally peer votes).length < quorum n.roster.size) :
      Change n (.voteReply peer n.term (.ok reply)) (n.count (tally peer votes) timer)
  | elected (running : n.standing.office = .candidate votes timer) (current : ¬ n.term < reply.term)
      (granted : reply.granted = true) (enough : quorum n.roster.size ≤ (tally peer votes).length) :
      Change n (.voteReply peer n.term (.ok reply)) ((n.count (tally peer votes) timer).lead now n.term)

theorem met_change (n : Node) (carried : Call.carried c = some t) :
    Change now draw n c (n.met now draw t) := by
  by_cases later : n.term < t
  · exact .stepped carried later
  · rw [met_current now draw later]
    exact .kept

theorem onTerm_change (n : Node) (t : Term) : Change now draw n (.term t) (n.onTerm now draw t).node :=
  met_change now draw n rfl

-- What a request of another member comes to, told apart by who asks, in which term, and whether
-- the vote or the office is free.
theorem onVoteRequest_stranger {n : Node} {r : VoteRequest} (stranger : n.roster.contains r.candidate = false) :
    n.onVoteRequest now draw r = .only (.error (.stranger n.term)) n [.unknownCandidate r.candidate] := by
  rw [onVoteRequest,if_pos (by simp [stranger])]

theorem onVoteRequest_stale {n : Node} {r : VoteRequest} (known : n.roster.contains r.candidate = true)
    (stale : r.term < n.term) :
    n.onVoteRequest now draw r = .only (.error (.stale n.term)) n [.staleCandidate r.candidate r.term] := by
  rw [onVoteRequest,if_neg (by simp [known]),if_pos stale]

theorem onVoteRequest_cast {n : Node} {r : VoteRequest} (known : n.roster.contains r.candidate = true)
    (reached : ¬ r.term < n.term) (cast : (n.met now draw r.term).ballot.cast r.term r.candidate = some b) :
    n.onVoteRequest now draw r = .only (.ok ⟨true,b.term⟩) (defer now draw {n.met now draw r.term with ballot := b})
      ((n.meet now draw r.term).2 ++ [.voted r.candidate r.term]) := by
  rw [onVoteRequest,if_neg (by simp [known]),if_neg reached]
  unfold met at cast
  simp only [cast]
  rfl

theorem onVoteRequest_taken {n : Node} {r : VoteRequest} (known : n.roster.contains r.candidate = true)
    (reached : ¬ r.term < n.term) (taken : (n.met now draw r.term).ballot.cast r.term r.candidate = none) :
    n.onVoteRequest now draw r = .only (.ok ⟨false,r.term⟩) (n.met now draw r.term)
      ((n.meet now draw r.term).2 ++ [.voteTaken r.candidate (n.met now draw r.term).ballot.vote r.term]) := by
  have current := met_term now draw reached
  rw [onVoteRequest,if_neg (by simp [known]),if_neg reached]
  unfold met at taken current ⊢
  simp only [taken,current]

theorem onVoteRequest_change (n : Node) (r : VoteRequest) :
    Change now draw n (.voteRequest r) (n.onVoteRequest now draw r).node := by
  cases known : n.roster.contains r.candidate with
  | false => rw [onVoteRequest_stranger now draw known]; exact .kept
  | true =>
      by_cases stale : r.term < n.term
      · rw [onVoteRequest_stale now draw known stale]; exact .kept
      · cases cast : (n.met now draw r.term).ballot.cast r.term r.candidate with
        | some b => rw [onVoteRequest_cast now draw known stale cast]; exact .voted known stale cast
        | none => rw [onVoteRequest_taken now draw known stale cast]; exact met_change now draw n rfl

theorem onHeartbeat_stranger {n : Node} {h : Heartbeat} (stranger : n.roster.contains h.leader = false) :
    n.onHeartbeat now draw h = .only (.error (.stranger n.term)) n [.unknownLeader h.leader] := by
  rw [onHeartbeat,if_pos (by simp [stranger])]

theorem onHeartbeat_stale {n : Node} {h : Heartbeat} (known : n.roster.contains h.leader = true)
    (stale : h.term < n.term) :
    n.onHeartbeat now draw h = .only (.error (.stale n.term)) n [.staleLeader h.leader h.term] := by
  rw [onHeartbeat,if_neg (by simp [known]),if_pos stale]

theorem onHeartbeat_rival {n : Node} {h : Heartbeat} (known : n.roster.contains h.leader = true)
    (reached : ¬ h.term < n.term) (rival : (n.met now draw h.term).accept now draw h.leader = none) :
    n.onHeartbeat now draw h = .only (.error (.rival h.term)) (n.met now draw h.term)
      ((n.meet now draw h.term).2 ++ [.rivalLeader h.leader h.term]) := by
  rw [onHeartbeat,if_neg (by simp [known]),if_neg reached]
  unfold met at rival ⊢
  simp only [rival]

theorem onHeartbeat_accepted {n next : Node} {h : Heartbeat} (known : n.roster.contains h.leader = true)
    (reached : ¬ h.term < n.term) (accepted : (n.met now draw h.term).accept now draw h.leader = some next) :
    n.onHeartbeat now draw h =
      ⟨.ok ⟨true,next.term⟩,next.defer now draw,[],some h.leader,(n.meet now draw h.term).2⟩ := by
  rw [onHeartbeat,if_neg (by simp [known]),if_neg reached]
  unfold met at accepted
  simp only [accepted]

theorem onHeartbeat_change (n : Node) (h : Heartbeat) :
    Change now draw n (.heartbeat h) (n.onHeartbeat now draw h).node := by
  cases known : n.roster.contains h.leader with
  | false => rw [onHeartbeat_stranger now draw known]; exact .kept
  | true =>
      by_cases stale : h.term < n.term
      · rw [onHeartbeat_stale now draw known stale]; exact .kept
      · cases accepted : (n.met now draw h.term).accept now draw h.leader with
        | none => rw [onHeartbeat_rival now draw known stale accepted]; exact met_change now draw n rfl
        | some next => rw [onHeartbeat_accepted now draw known stale accepted]; exact .followed known stale accepted

-- A candidacy that cannot begin, one that needs nobody else, and one that asks the others.
theorem stand_exhausted {n : Node} (ended : n.ballot.stand n.me = none) :
    n.stand now draw = .only () n [.termsExhausted n.term] := by
  unfold stand
  simp only [ended]

theorem stand_sole {n : Node} (began : n.ballot.stand n.me = some b) (alone : quorum n.roster.size ≤ 1) :
    n.stand now draw = .only () ((n.candidate now draw b).lead now b.term)
      [.candidacy (n.candidate now draw b).standing,.elected b.term] := by
  unfold stand
  simp only [began,if_pos alone]
  rfl

theorem stand_asking {n : Node} (began : n.ballot.stand n.me = some b) (others : 1 < quorum n.roster.size) :
    n.stand now draw = ⟨(),n.candidate now draw b,n.broadcast (.vote ⟨b.term,n.me⟩),none,
      [.candidacy (n.candidate now draw b).standing]⟩ := by
  unfold stand
  simp only [began,if_neg (Nat.not_le_of_lt others)]
  rfl

theorem stand_change (n : Node) (asked : c = .candidacy ∨ c = .timeout) :
    Change now draw n c (n.stand now draw).node := by
  cases began : n.ballot.stand n.me with
  | none => rw [stand_exhausted now draw began]; exact .kept
  | some b =>
      by_cases alone : quorum n.roster.size ≤ 1
      · rw [stand_sole now draw began alone]; exact .sole asked began alone
      · have others := Nat.lt_of_not_le alone
        rw [stand_asking now draw began others]; exact .stood asked began others

theorem onTimeout_due {n : Node} (due : n.standing.timeoutDue now = true) :
    n.onTimeout now draw = n.stand now draw := if_pos due

theorem onTimeout_stale {n : Node} (stale : n.standing.timeoutDue now = false) :
    n.onTimeout now draw = .only () n [.staleTimeout n.standing] := by
  unfold onTimeout
  rw [if_neg (by simp [stale])]

theorem onTimeout_change (n : Node) : Change now draw n .timeout (n.onTimeout now draw).node := by
  cases due : n.standing.timeoutDue now with
  | true => rw [onTimeout_due now draw due]; exact stand_change now draw n (.inr rfl)
  | false => rw [onTimeout_stale now draw due]; exact .kept

-- What the outcome of a request for a vote does, told apart by what the node makes of it.
theorem onVoteReply_later {n : Node} {reply : VoteReply} (peer : NodeId) (t : Term)
    (later : n.term < reply.term) : n.onVoteReply now draw peer t (.ok reply) =
      .only () (n.met now draw reply.term) [.steppedDown reply.term n.role] := by
  simp only [onVoteReply,meet_later now draw later,if_pos later,met_later now draw later]

theorem onVoteReply_ignored {n : Node} {reply : VoteReply} (peer : NodeId) (current : ¬ n.term < reply.term)
    (ignored : n.term ≠ t ∨ reply.granted = false ∨ n.role ≠ .candidate) :
    ∃ notices, n.onVoteReply now draw peer t (.ok reply) = .only () n notices := by
  simp only [onVoteReply,meet_current now draw current,if_neg current]
  split
  · exact ⟨_,rfl⟩
  · next same =>
      split
      · exact ⟨_,rfl⟩
      · next granted =>
          cases office : n.standing.office with
          | candidate votes timer =>
              have running : n.role = .candidate := by simp only [role,Standing.role,office]
              rcases ignored with other | denied | absent
              · exact absurd other same
              · simp [denied] at granted
              · exact absurd running absent
          | leader beat => exact ⟨_,rfl⟩
          | follower leader timer => exact ⟨_,rfl⟩

theorem onVoteReply_running {n : Node} {reply : VoteReply} (peer : NodeId)
    (running : n.standing.office = .candidate votes timer) (current : ¬ n.term < reply.term)
    (granted : reply.granted = true) : n.onVoteReply now draw peer n.term (.ok reply) =
      let counted := n.count (tally peer votes) timer
      let notice := .votes peer (tally peer votes).length n.roster.size n.term
      if quorum n.roster.size ≤ (tally peer votes).length then
        .only () (counted.lead now n.term) [notice,.elected n.term]
      else .only () counted [notice] := by
  simp only [onVoteReply,meet_current now draw current,if_neg current,granted,running]
  rw [if_neg (fun differ => differ rfl),if_neg (by decide)]
  rfl

theorem onVoteReply_change (n : Node) (peer : NodeId) (t : Term) (result : Except TransportError VoteReply) :
    Change now draw n (.voteReply peer t result) (n.onVoteReply now draw peer t result).node := by
  cases result with
  | error e => exact .kept
  | ok reply =>
      by_cases later : n.term < reply.term
      · rw [onVoteReply_later now draw peer t later]
        exact met_change now draw n rfl
      · by_cases ignored : n.term ≠ t ∨ reply.granted = false ∨ n.role ≠ .candidate
        · obtain ⟨notices,kept⟩ := onVoteReply_ignored now draw peer later ignored
          rw [kept]
          exact .kept
        · obtain ⟨same,granted,candidate⟩ : n.term = t ∧ reply.granted = true ∧ n.role = .candidate := by
            simpa using ignored
          subst same
          obtain ⟨votes,timer,running⟩ := candidate_exact.mp candidate
          rw [onVoteReply_running now draw peer running later granted]
          dsimp only
          split
          · next enough => exact .elected running later granted enough
          · next few => exact .counted running later granted (Nat.lt_of_not_le few)

theorem onTick_change (n : Node) (t : Term) : Change now draw n (.tick t) (n.onTick t).node := by
  unfold onTick
  split <;> exact .kept

theorem onHeartbeatReply_change (n : Node) (peer : NodeId) (t : Term)
    (result : Except TransportError HeartbeatReply) :
    Change now draw n (.heartbeatReply peer t result) (n.onHeartbeatReply now draw peer t result).node := by
  cases result with
  | error e => exact .kept
  | ok reply =>
      have met : Change now draw n (.heartbeatReply peer t (.ok reply)) (n.met now draw reply.term) :=
        met_change now draw n rfl
      unfold onHeartbeatReply
      dsimp only
      split
      · exact met
      · split <;> exact met

theorem apply_change (n : Node) (c : Call) : Change now draw n c (n.apply now draw c).node := by
  cases c with
  | term t => exact onTerm_change now draw n t
  | voteRequest r => exact onVoteRequest_change now draw n r
  | heartbeat h => exact onHeartbeat_change now draw n h
  | candidacy => exact stand_change now draw n (.inl rfl)
  | timeout => exact onTimeout_change now draw n
  | voteReply peer t result => exact onVoteReply_change now draw n peer t result
  | tick t => exact onTick_change now draw n t
  | heartbeatReply peer t result => exact onHeartbeatReply_change now draw n peer t result

end Node
end LeaderElection
