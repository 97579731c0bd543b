import LeaderElection.Proofs.Node.Clock
import LeaderElection.Proofs.Node.Run
import LeaderElection.Proofs.Node.Sends
import LeaderElection.Station

namespace LeaderElection

-- A refusal in any form, and the term it tells of.
def VoteReply.Denies (t : Term) (result : Except VoteRefusal VoteReply) : Prop :=
  result = .ok ⟨false,t⟩ ∨ ∃ e, result = .error e ∧ e.current = t

def HeartbeatReply.Rejects (t : Term) (result : Except HeartbeatRefusal HeartbeatReply) : Prop :=
  ∃ e, result = .error e ∧ e.current = t

namespace Node

variable {now draw : Nat} {n : Node} {r : VoteRequest} {h : Heartbeat}

-- In a later term nobody has voted yet, so only in its present one a node may have to refuse.
theorem met_free (reached : ¬ t < n.term) (c : NodeId) :
    ((n.met now draw t).ballot.vote = none ∨ (n.met now draw t).ballot.vote = some c) ↔
      n.term < t ∨ n.term = t ∧ (n.ballot.vote = none ∨ n.ballot.vote = some c) := by
  by_cases later : n.term < t
  · rw [met_later now draw later]
    exact iff_of_true (.inl rfl) (.inl later)
  · have same : n.term = t := Term.eq_of_not_lt (Term.not_lt_iff.mp reached) later
    rw [met_current now draw later]
    exact ⟨fun free => .inr ⟨same,free⟩,fun either => either.elim (absurd · later) And.right⟩

theorem onVoteRequest_decides : VoteReply.Grants (n.onVoteRequest now draw r).answer ↔
    n.roster.contains r.candidate = true ∧
      (n.term < r.term ∨ n.term = r.term ∧ (n.ballot.vote = none ∨ n.ballot.vote = some r.candidate)) := by
  rw [onVoteRequest_granted]
  constructor
  · rintro ⟨known,reached,free⟩
    exact ⟨known,(met_free reached r.candidate).mp free⟩
  · rintro ⟨known,current⟩
    have reached : ¬ r.term < n.term := by
      rcases current with later | ⟨same,_⟩
      · exact Nat.lt_asymm later
      · rw [same]
        exact Term.lt_irrefl _
    exact ⟨known,reached,(met_free reached r.candidate).mpr current⟩

-- Whatever the reason, a node that does not grant its vote has done nothing.
theorem onVoteRequest_denied (denied : ¬ VoteReply.Grants (n.onVoteRequest now draw r).answer) :
    ∃ answer notices, n.onVoteRequest now draw r = .only answer n notices ∧ VoteReply.Denies n.term answer := by
  cases known : n.roster.contains r.candidate with
  | false => exact ⟨_,_,onVoteRequest_stranger now draw known,.inr ⟨_,rfl,rfl⟩⟩
  | true =>
      by_cases stale : r.term < n.term
      · exact ⟨_,_,onVoteRequest_stale now draw known stale,.inr ⟨_,rfl,rfl⟩⟩
      · have current : ¬ n.term < r.term := fun later => denied (onVoteRequest_decides.mpr ⟨known,.inl later⟩)
        have same : n.term = r.term := Term.eq_of_not_lt (Term.not_lt_iff.mp stale) current
        cases cast : (n.met now draw r.term).ballot.cast r.term r.candidate with
        | some b =>
            rw [onVoteRequest_cast now draw known stale cast] at denied
            exact absurd ⟨_,rfl,rfl⟩ denied
        | none =>
            have taken := onVoteRequest_taken now draw known stale cast
            rw [met_current now draw current] at taken
            exact ⟨_,_,taken,.inl (by rw [same])⟩

-- The vote is all that a candidate of the present term changes. One of a later term finds nobody followed.
theorem onVoteRequest_status (grants : VoteReply.Grants (n.onVoteRequest now draw r).answer) :
    (n.onVoteRequest now draw r).node.status =
      if n.term < r.term then ⟨n.me,r.term,.follower,some r.candidate,none⟩
      else {n.status with vote := some r.candidate} := by
  obtain ⟨known,reached,free⟩ := onVoteRequest_granted.mp grants
  have cast := Ballot.cast_exact.mpr ⟨(met_term now draw reached).symm,free,rfl⟩
  rw [onVoteRequest_cast now draw known reached cast]
  split
  · next later =>
      rw [met_later now draw later]
      rfl
  · next current =>
      have same : n.term = r.term := Term.eq_of_not_lt (Term.not_lt_iff.mp reached) current
      rw [met_current now draw current]
      simp only [Step.only,status,defer_standing,Standing.defer_leader,role,Standing.defer_role,term,defer_ballot,me,
        defer_roster]
      rw [← same]
      rfl

-- Of a leader only a later term makes a follower.
theorem met_leads (reached : ¬ t < n.term) : (n.met now draw t).role = .leader ↔ n.role = .leader ∧ n.term = t := by
  by_cases later : n.term < t
  · rw [met_later now draw later]
    refine iff_of_false nofun ?_
    rintro ⟨_,rfl⟩
    exact Term.lt_irrefl _ later
  · have same : n.term = t := Term.eq_of_not_lt (Term.not_lt_iff.mp reached) later
    rw [met_current now draw later]
    exact ⟨fun leads => ⟨leads,same⟩,And.left⟩

theorem onHeartbeat_decides : HeartbeatReply.Accepts (n.onHeartbeat now draw h).answer ↔
    n.roster.contains h.leader = true ∧ n.term ≤ h.term ∧ ¬ (n.role = .leader ∧ n.term = h.term) := by
  cases known : n.roster.contains h.leader with
  | false =>
      rw [onHeartbeat_stranger now draw known]
      refine iff_of_false ?_ nofun
      rintro ⟨_,answer,_⟩
      cases answer
  | true =>
      by_cases stale : h.term < n.term
      · rw [onHeartbeat_stale now draw known stale]
        refine iff_of_false ?_ fun admitted => Term.not_lt_iff.mpr admitted.2.1 stale
        rintro ⟨_,answer,_⟩
        cases answer
      · have reached : n.term ≤ h.term := Term.not_lt_iff.mp stale
        cases accepted : (n.met now draw h.term).accept now draw h.leader with
        | none =>
            have leads := (met_leads stale).mp ((accept_none now draw).mp accepted)
            rw [onHeartbeat_rival now draw known stale accepted]
            refine iff_of_false ?_ fun admitted => admitted.2.2 leads
            rintro ⟨_,answer,_⟩
            cases answer
        | some next =>
            have follows := (accept_parts now draw accepted).1
            rw [onHeartbeat_accepted now draw known stale accepted]
            exact iff_of_true ⟨_,rfl,rfl⟩ ⟨rfl,reached,fun leads => follows ((met_leads stale).mpr leads)⟩

-- Nor has one that does not accept a leader, although it has met the leader's term by then.
theorem onHeartbeat_rejected (rejected : ¬ HeartbeatReply.Accepts (n.onHeartbeat now draw h).answer) :
    ∃ answer notices, n.onHeartbeat now draw h = .only answer n notices ∧ HeartbeatReply.Rejects n.term answer := by
  cases known : n.roster.contains h.leader with
  | false => exact ⟨_,_,onHeartbeat_stranger now draw known,_,rfl,rfl⟩
  | true =>
      by_cases stale : h.term < n.term
      · exact ⟨_,_,onHeartbeat_stale now draw known stale,_,rfl,rfl⟩
      · have leads : n.role = .leader ∧ n.term = h.term := by
          by_contra free
          exact rejected (onHeartbeat_decides.mpr ⟨known,Term.not_lt_iff.mp stale,free⟩)
        have current : ¬ n.term < h.term := by
          rw [leads.2]
          exact Term.lt_irrefl _
        have rival := onHeartbeat_rival now draw known stale ((accept_none now draw).mpr ((met_leads stale).mpr leads))
        rw [met_current now draw current] at rival
        exact ⟨_,_,rival,_,rfl,leads.2.symm⟩

theorem onHeartbeat_status (coherent : n.Coherent) (accepts : HeartbeatReply.Accepts (n.onHeartbeat now draw h).answer) :
    (n.onHeartbeat now draw h).node.status =
        ⟨n.me,h.term,.follower,if n.term < h.term then none else n.status.vote,some h.leader⟩ ∧
      (n.onHeartbeat now draw h).node.feed.latest = .follower h.term h.leader := by
  obtain ⟨known,reached,_⟩ := onHeartbeat_decides.mp accepts
  have reached : ¬ h.term < n.term := Term.not_lt_iff.mpr reached
  cases accepted : (n.met now draw h.term).accept now draw h.leader with
  | none =>
      rw [onHeartbeat_rival now draw known reached accepted] at accepts
      obtain ⟨_,answer,_⟩ := accepts
      cases answer
  | some next =>
      obtain ⟨_,ballot,roster,⟨timer,standing⟩,_⟩ := accept_parts now draw accepted
      have told := (((coherent.met now draw h.term).accept now draw accepted).defer now draw).told
      have current : (n.met now draw h.term).standing.term = h.term :=
        (coherent.met now draw h.term).term.trans (met_term now draw reached)
      have term : next.term = h.term := (congrArg Ballot.term ballot).trans (met_term now draw reached)
      have vote : next.ballot.vote = if n.term < h.term then none else n.status.vote := by
        rw [ballot]
        split
        · next later =>
            rw [met_later now draw later]
            rfl
        · next current =>
            rw [met_current now draw current]
            rfl
      have own : next.me = n.me := congrArg Roster.me (roster.trans (met_roster ..))
      rw [onHeartbeat_accepted now draw known reached accepted]
      rw [defer_standing,Standing.defer_snapshot,standing,current] at told
      refine ⟨?_,told⟩
      change Status.mk next.me next.term (next.standing.defer now draw).role next.ballot.vote
        ((next.standing.defer now draw).leader next.me) = _
      rw [standing,own,term,vote]
      rfl

end Node

namespace Station

variable {now draw : Nat} {n : Node}

-- Nobody heard and the same node: nothing about the station is different.
theorem call_only {c : Call} (kept : n.apply now draw c = .only answer n notices) (events : List (Event Nat))
    (held : Bool) (detector : Detector) :
    call now draw c ⟨⟨.running n,events,held⟩,detector⟩ =
      some (.only answer n notices,⟨⟨.running n,events,held⟩,detector⟩) := by
  simp only [call,Mailbox.node?,Option.map_some,kept,Step.only,hear,Option.elim]

theorem voteRequest_decided (n : Node) (r : VoteRequest) (events : List (Event Nat)) (held : Bool)
    (detector : Detector) (now draw : Nat) :
    let s : Station := ⟨⟨.running n,events,held⟩,detector⟩
    ∃ reply step after,
      s.call now draw (.voteRequest r) = some (step,after) ∧ step.answer = .vote reply ∧ step.sends = [] ∧
      (VoteReply.Grants reply ↔ n.roster.contains r.candidate = true ∧
        (n.term < r.term ∨ n.term = r.term ∧ (n.status.vote = none ∨ n.status.vote = some r.candidate))) ∧
      (VoteReply.Grants reply → after.mailbox.loop = .running step.node ∧
        step.node.status = if n.term < r.term then ⟨n.me,r.term,.follower,some r.candidate,none⟩
          else {n.status with vote := some r.candidate}) ∧
      (¬ VoteReply.Grants reply → after = s ∧ VoteReply.Denies n.term reply) := by
  intro s
  by_cases grants : VoteReply.Grants (n.onVoteRequest now draw r).answer
  · refine ⟨_,_,_,rfl,rfl,Node.onVoteRequest_sends now draw n r,Node.onVoteRequest_decides,?_,absurd grants⟩
    intro
    exact ⟨rfl,Node.onVoteRequest_status grants⟩
  · obtain ⟨answer,notices,kept,denies⟩ := Node.onVoteRequest_denied grants
    have decides : VoteReply.Grants (n.onVoteRequest now draw r).answer ↔ _ := Node.onVoteRequest_decides
    rw [kept] at grants decides
    have quiet : n.apply now draw (.voteRequest r) = .only (.vote answer) n notices := by
      simp only [Node.apply,kept,Step.only,Step.map]
    exact ⟨answer,_,_,call_only quiet events held detector,rfl,rfl,decides,(absurd · grants),fun _ => ⟨rfl,denies⟩⟩

theorem heartbeat_decided (coherent : n.Coherent) (h : Heartbeat) (events : List (Event Nat)) (held : Bool)
    (detector : Detector) (now draw : Nat) :
    let s : Station := ⟨⟨.running n,events,held⟩,detector⟩
    ∃ reply step after,
      s.call now draw (.heartbeat h) = some (step,after) ∧ step.answer = .heartbeat reply ∧ step.sends = [] ∧
      (HeartbeatReply.Accepts reply ↔ n.roster.contains h.leader = true ∧ n.term ≤ h.term ∧
        ¬ (n.status.role = .leader ∧ n.term = h.term)) ∧
      (HeartbeatReply.Accepts reply → after.mailbox.loop = .running step.node ∧
        step.node.status = ⟨n.me,h.term,.follower,if n.term < h.term then none else n.status.vote,some h.leader⟩ ∧
        step.node.feed.latest = .follower h.term h.leader) ∧
      (¬ HeartbeatReply.Accepts reply → after = s ∧ HeartbeatReply.Rejects n.term reply) := by
  intro s
  by_cases accepts : HeartbeatReply.Accepts (n.onHeartbeat now draw h).answer
  · refine ⟨_,_,_,rfl,rfl,Node.onHeartbeat_sends now draw n h,Node.onHeartbeat_decides,?_,absurd accepts⟩
    intro
    exact ⟨rfl,Node.onHeartbeat_status coherent accepts⟩
  · obtain ⟨answer,notices,kept,rejects⟩ := Node.onHeartbeat_rejected accepts
    have decides : HeartbeatReply.Accepts (n.onHeartbeat now draw h).answer ↔ _ := Node.onHeartbeat_decides
    rw [kept] at accepts decides
    have quiet : n.apply now draw (.heartbeat h) = .only (.heartbeat answer) n notices := by
      simp only [Node.apply,kept,Step.only,Step.map]
    exact ⟨answer,_,_,call_only quiet events held detector,rfl,rfl,decides,(absurd · accepts),fun _ => ⟨rfl,rejects⟩⟩

-- Whatever has happened to the node before, and whoever else waits for it or has been heard.
theorem requests_decided (accepted : Roster.ofMembers me members = .ok roster) (timings : Timings)
    (start first : Nat) (deeds : List Deed) (events : List (Event Nat)) (held : Bool) (detector : Detector)
    (now draw : Nat) :
    let n := (Node.create start first roster timings).run deeds
    let s : Station := ⟨⟨.running n,events,held⟩,detector⟩
    (∀ r : VoteRequest, ∃ reply step after,
      s.call now draw (.voteRequest r) = some (step,after) ∧ step.answer = .vote reply ∧ step.sends = [] ∧
      (VoteReply.Grants reply ↔ r.candidate ∈ members.map Member.id ∧
        (n.term < r.term ∨ n.term = r.term ∧ (n.status.vote = none ∨ n.status.vote = some r.candidate))) ∧
      (VoteReply.Grants reply → after.mailbox.loop = .running step.node ∧
        step.node.status = if n.term < r.term then ⟨me,r.term,.follower,some r.candidate,none⟩
          else {n.status with vote := some r.candidate}) ∧
      (¬ VoteReply.Grants reply → after = s ∧ VoteReply.Denies n.term reply)) ∧
    ∀ h : Heartbeat, ∃ reply step after,
      s.call now draw (.heartbeat h) = some (step,after) ∧ step.answer = .heartbeat reply ∧ step.sends = [] ∧
      (HeartbeatReply.Accepts reply ↔ h.leader ∈ members.map Member.id ∧ n.term ≤ h.term ∧
        ¬ (n.status.role = .leader ∧ n.term = h.term)) ∧
      (HeartbeatReply.Accepts reply → after.mailbox.loop = .running step.node ∧
        step.node.status = ⟨me,h.term,.follower,if n.term < h.term then none else n.status.vote,some h.leader⟩ ∧
        step.node.feed.latest = .follower h.term h.leader) ∧
      (¬ HeartbeatReply.Accepts reply → after = s ∧ HeartbeatReply.Rejects n.term reply) := by
  intro n s
  have coherent : n.Coherent := (Node.Coherent.created start first roster timings).run deeds
  have same : n.roster = roster := Node.run_roster deeds _
  have own : n.me = me := (congrArg Roster.me same).trans (Roster.ofMembers_me accepted)
  have member (id : NodeId) : n.roster.contains id = true ↔ id ∈ members.map Member.id := by
    rw [same]
    exact Roster.ofMembers_contains accepted id
  constructor
  · intro r
    have decided := voteRequest_decided n r events held detector now draw
    rwa [member,own] at decided
  · intro h
    have decided := heartbeat_decided coherent h events held detector now draw
    rwa [member,own] at decided

-- A leader that another member claims to lead beside, in the leader's own term.
theorem rival_of_leader_refused :
    let n := (Node.create 0 5 ⟨⟨"a"⟩,⟨"a",100⟩,trio.tail⟩ ⟨1,⟨5,10⟩,1⟩).run
      [.call 5 5 .timeout,.call 6 5 (.voteReply ⟨"b"⟩ .one (.ok ⟨true,.one⟩))]
    let s : Station := ⟨⟨.running n,[],true⟩,.create 3⟩
    n.status.role = .leader ∧
      ∃ step reply, s.call 7 5 (.heartbeat ⟨.one,⟨"b"⟩⟩) = some (step,s) ∧ step.answer = .heartbeat reply ∧
        HeartbeatReply.Rejects .one reply := by
  intro n s
  have leads : n.status.role = .leader := by decide
  have term : n.term = .one := by decide
  have accepted : Roster.ofMembers ⟨"a"⟩ trio = .ok ⟨⟨"a"⟩,⟨"a",100⟩,trio.tail⟩ := rfl
  obtain ⟨_,heartbeats⟩ := requests_decided accepted ⟨1,⟨5,10⟩,1⟩ 0 5
    [.call 5 5 .timeout,.call 6 5 (.voteReply ⟨"b"⟩ .one (.ok ⟨true,.one⟩))] [] true (.create 3) 7 5
  obtain ⟨reply,step,after,called,answer,_,accepts,_,rejects⟩ := heartbeats ⟨.one,⟨"b"⟩⟩
  obtain ⟨same,told⟩ := rejects fun admitted => (accepts.mp admitted).2.2 ⟨leads,term⟩
  subst same
  exact ⟨leads,step,reply,called,answer,term ▸ told⟩

end Station
end LeaderElection
