import LeaderElection.Proofs.Node.Run

namespace LeaderElection

def VoteReply.Grants (result : Except VoteRefusal VoteReply) : Prop := ∃ reply, result = .ok reply ∧ reply.granted = true

namespace Node

variable {now draw : Nat}

-- A request for a vote is granted by a member that is not beyond its term and has not voted for
-- anybody else in it.
theorem onVoteRequest_granted {n : Node} {r : VoteRequest} :
    VoteReply.Grants (n.onVoteRequest now draw r).answer ↔
      n.roster.contains r.candidate = true ∧ ¬ r.term < n.term ∧
        ((n.met now draw r.term).ballot.vote = none ∨ (n.met now draw r.term).ballot.vote = some r.candidate) := by
  cases known : n.roster.contains r.candidate with
  | false => simp [onVoteRequest_stranger now draw known,VoteReply.Grants,Step.only]
  | true =>
      by_cases stale : r.term < n.term
      · simp [onVoteRequest_stale now draw known stale,VoteReply.Grants,Step.only,stale]
      · cases cast : (n.met now draw r.term).ballot.cast r.term r.candidate with
        | some b =>
            have free := (Ballot.cast_exact.mp cast).2.1
            rw [onVoteRequest_cast now draw known stale cast]
            exact iff_of_true ⟨_,rfl,rfl⟩ ⟨rfl,stale,free⟩
        | none =>
            rw [onVoteRequest_taken now draw known stale cast]
            refine iff_of_false ?_ ?_
            · rintro ⟨reply,same,granted⟩
              cases same
              cases granted
            · rintro ⟨_,_,free⟩
              have done := Ballot.cast_exact.mpr ⟨(met_term now draw stale).symm,free,rfl⟩
              rw [cast] at done
              cases done

theorem onVoteRequest_ballot {n : Node} {r : VoteRequest}
    (granted : VoteReply.Grants (n.onVoteRequest now draw r).answer) :
    (n.onVoteRequest now draw r).node.ballot = ⟨r.term,some r.candidate⟩ := by
  obtain ⟨known,reached,free⟩ := onVoteRequest_granted.mp granted
  have cast := Ballot.cast_exact.mpr ⟨(met_term now draw reached).symm,free,rfl⟩
  rw [onVoteRequest_cast now draw known reached cast]
  rfl

-- What anybody can see of a vote, and of a candidacy or leadership.
def Shows (t : Term) (c : NodeId) (n : Node) : Prop := n.status.term = t ∧ n.status.vote = some c

def Stands (t : Term) (n : Node) : Prop := n.status.term = t ∧ n.status.role ≠ .follower

def Leads (t : Term) (n : Node) : Prop := n.status.term = t ∧ n.status.role = .leader

theorem shown_stays {n : Node} (shown : n.Shows t c) (deeds : List Deed) :
    t < (n.run deeds).status.term ∨ (n.run deeds).Shows t c := by
  obtain ⟨rfl,cast⟩ := shown
  have onward := n.run_onward deeds
  rcases onward with later | ⟨same,_⟩
  · exact .inl later
  · exact .inr ⟨same.symm,(n.run_onward deeds).vote_kept same cast⟩

theorem shown_unique {n : Node} (deeds : List Deed) (early : n.Shows t c) (late : (n.run deeds).Shows t c') :
    c = c' :=
  Ballot.vote_unique (.inl (n.run_onward deeds)) (early.1.trans late.1.symm) early.2 late.2

theorem shown_granted {n : Node} (shown : n.Shows t c) (known : n.roster.contains x = true) :
    VoteReply.Grants (n.onVoteRequest now draw ⟨t,x⟩).answer ↔ x = c := by
  obtain ⟨rfl,cast⟩ := shown
  have cast : n.ballot.vote = some c := cast
  have current : ¬ n.term < n.term := Term.lt_irrefl _
  rw [onVoteRequest_granted]
  change _ ∧ ¬ n.term < n.term ∧ ((n.met now draw n.term).ballot.vote = _ ∨ (n.met now draw n.term).ballot.vote = _) ↔ _
  rw [met_current now draw current,cast]
  constructor
  · rintro ⟨_,_,none | same⟩
    · cases none
    · exact (Option.some.inj same).symm
  · rintro rfl
    exact ⟨known,current,.inr rfl⟩

theorem Coherent.stands_shown {n : Node} (coherent : n.Coherent) (stands : n.Stands t) : n.Shows t n.me :=
  ⟨stands.1,coherent.own stands.2⟩

-- One node in a run of any length, at any two moments of it, with any deeds between.
theorem votes_consistent (roster : Roster) (timings : Timings) (start first : Nat)
    (before between : List Deed) (t : Term) :
    let early := (create start first roster timings).run before
    let late := early.run between
    (∀ c, early.Shows t c → t < late.status.term ∨ late.Shows t c) ∧
    (∀ c c', early.Shows t c → late.Shows t c' → c = c') ∧
    (∀ c x now draw, early.Shows t c → late.status.term = t → roster.contains x = true →
      (VoteReply.Grants (late.onVoteRequest now draw ⟨t,x⟩).answer ↔ x = c)) ∧
    (∀ x now draw, VoteReply.Grants (early.onVoteRequest now draw ⟨t,x⟩).answer →
      let voted := early.does (.call now draw (.voteRequest ⟨t,x⟩))
      voted.Shows t x ∧ ∀ y now' draw',
        VoteReply.Grants ((voted.run between).onVoteRequest now' draw' ⟨t,y⟩).answer → y = x) ∧
    (∀ c, early.Shows t c ∨ late.Shows t c → early.Stands t ∨ late.Stands t → c = roster.me) := by
  intro early late
  have coherent : early.Coherent := (Coherent.created start first roster timings).run before
  have sameEarly : early.roster = roster := run_roster before _
  have sameLate : late.roster = roster := (run_roster between early).trans sameEarly
  refine ⟨?_,?_,?_,?_,?_⟩
  · intro c shown
    exact shown_stays shown between
  · intro c c' shown shown'
    exact shown_unique between shown shown'
  · intro c x now draw shown current known
    rcases shown_stays shown between with later | stays
    · exact absurd (current ▸ later) (Term.lt_irrefl _)
    · exact shown_granted stays (sameLate ▸ known)
  · intro x now draw granted voted
    have ballot := onVoteRequest_ballot granted
    have shown : voted.Shows t x := ⟨congrArg Ballot.term ballot,congrArg Ballot.vote ballot⟩
    refine ⟨shown,?_⟩
    intro y now' draw' again
    have ballot' := onVoteRequest_ballot again
    have shown' : (voted.run (between ++ [.call now' draw' (.voteRequest ⟨t,y⟩)])).Shows t y := by
      rw [run_append]
      exact ⟨congrArg Ballot.term ballot',congrArg Ballot.vote ballot'⟩
    exact (shown_unique _ shown shown').symm
  · intro c shown stands
    have own : ∀ n : Node, n.roster = roster → n.me = roster.me := fun n same => congrArg Roster.me same
    have standsShown : early.Shows t roster.me ∨ late.Shows t roster.me :=
      stands.imp (fun s => own _ sameEarly ▸ coherent.stands_shown s)
        (fun s => own _ sameLate ▸ (coherent.run between).stands_shown s)
    rcases shown with shown | shown <;> rcases standsShown with mine | mine
    · exact Option.some.inj (shown.2.symm.trans mine.2)
    · exact shown_unique between shown mine
    · exact (shown_unique between mine shown).symm
    · exact Option.some.inj (shown.2.symm.trans mine.2)

theorem vote_of_trio_stays :
    let early := (create 0 5 ⟨⟨"b"⟩,⟨"b",100⟩,[⟨⟨"a"⟩,⟨"a",100⟩⟩,⟨⟨"c"⟩,⟨"c",100⟩⟩]⟩ ⟨1,⟨5,10⟩,1⟩).run
      [.call 0 5 (.voteRequest ⟨.one,⟨"a"⟩⟩)]
    let late := early.run [.call 1 5 (.heartbeat ⟨.one,⟨"c"⟩⟩),.call 2 5 (.voteRequest ⟨.one,⟨"c"⟩⟩)]
    VoteReply.Grants (late.onVoteRequest 3 5 ⟨.one,⟨"a"⟩⟩).answer ∧
      ¬ VoteReply.Grants (late.onVoteRequest 3 5 ⟨.one,⟨"c"⟩⟩).answer := by
  intro early late
  have granted := fun x known => (votes_consistent _ _ 0 5 _ [_,_] _).2.2.1 _ x 3 5 (show early.Shows _ ⟨"a"⟩ from ⟨rfl,rfl⟩)
    (show late.status.term = _ from rfl) known
  exact ⟨(granted ⟨"a"⟩ rfl).mpr rfl,fun again => absurd ((granted ⟨"c"⟩ rfl).mp again) (by decide)⟩

end Node

namespace Node

-- What one deed makes of a node's office, as far as others can tell. Nobody takes a leader or a vote
-- but from a heartbeat or a granted reply.
inductive Shift (n : Node) : Deed → Node → Prop where
  | same (term : next.term = n.term) (role : next.role = n.role)
      (leader : next.standing.leader n.me = n.standing.leader n.me)
      (votes : ∀ votes timer, next.standing.office = .candidate votes timer →
        ∃ timer, n.standing.office = .candidate votes timer) : Shift n d next
  | freed (office : next.standing.office = .follower none timer) : Shift n d next
  | followed (office : next.standing.office = .follower (some h.leader) timer) (term : next.term = h.term) :
      Shift n (.call now draw (.heartbeat h)) next
  | stood (office : next.standing.office = .candidate [n.me] timer) : Shift n d next
  | sole (office : next.standing.office = .leader beat) (alone : quorum n.roster.size ≤ 1) : Shift n d next
  | counted (running : n.standing.office = .candidate votes timer) (granted : reply.granted = true)
      (term : next.term = n.term) (office : next.standing.office = .candidate (tally peer votes) timer) :
      Shift n (.call now draw (.voteReply peer n.term (.ok reply))) next
  | elected (running : n.standing.office = .candidate votes timer) (granted : reply.granted = true)
      (term : next.term = n.term) (office : next.standing.office = .leader beat)
      (enough : quorum n.roster.size ≤ (tally peer votes).length) :
      Shift n (.call now draw (.voteReply peer n.term (.ok reply))) next

variable {now draw : Nat} {n next : Node}

theorem Shift.kept (n : Node) (d : Deed) : Shift n d n := .same rfl rfl rfl fun _ timer running => ⟨timer,running⟩

-- A later term finds a node without office and without a leader.
theorem met_parts (n : Node) (t : Term) :
    n.met now draw t = n ∨ ∃ timer, (n.met now draw t).standing.office = .follower none timer := by
  by_cases later : n.term < t
  · rw [met_later now draw later]
    exact .inr ⟨_,rfl⟩
  · exact .inl (met_current now draw later)

theorem defer_free {s : Standing} (free : s.office = .follower none timer) :
    ∃ timer, (s.defer now draw).office = .follower none timer := by
  obtain ⟨term,office⟩ := s
  cases free
  exact ⟨_,rfl⟩

theorem Change.shift (change : Change now draw n c next) : Shift n (.call now draw c) next := by
  cases change with
  | kept => exact .kept n _
  | @stepped t _ _ _ =>
      rcases met_parts n t with same | ⟨_,free⟩
      · rw [same]
        exact .kept n _
      · exact .freed free
  | @voted b r _ _ cast =>
      rcases met_parts n r.term with same | ⟨_,free⟩
      · rw [same] at cast ⊢
        refine .same (Ballot.cast_term cast) (Standing.defer_role ..) (Standing.defer_leader ..) ?_
        intro votes timer running
        exact ⟨timer,(Standing.defer_candidate now draw).mp running⟩
      · obtain ⟨_,free⟩ := defer_free free
        exact .freed free
  | @followed after h _ reached accepted =>
      obtain ⟨_,ballot,_,⟨_,standing⟩,_⟩ := accept_parts now draw accepted
      refine .followed (by rw [defer_standing,standing]; rfl) ?_
      rw [term,defer_ballot,ballot]
      exact met_term now draw reached
  | stood _ _ _ => exact .stood rfl
  | sole _ _ alone => exact .sole rfl alone
  | counted running _ granted _ => exact .counted running granted rfl rfl
  | elected running _ granted enough => exact .elected running granted rfl rfl enough

theorem does_shift (d : Deed) (n : Node) : Shift n d (n.does d) := by
  cases d with
  | call now draw c => exact (apply_change now draw n c).shift
  | wake now draw =>
      obtain ⟨office,same,_,role,leader,votes⟩ := does_wake now draw n
      refine .same (by rw [same]; rfl) role leader ?_
      intro votes' timer running
      rw [same] at running
      exact votes votes' timer running

-- Only a leader of the very term of a heartbeat refuses it as a rival's.
theorem onHeartbeat_rivalled {h : Heartbeat} (refused : (n.onHeartbeat now draw h).answer = .error (.rival t)) :
    n.Leads h.term := by
  cases known : n.roster.contains h.leader with
  | false => rw [onHeartbeat_stranger now draw known] at refused; cases refused
  | true =>
      by_cases stale : h.term < n.term
      · rw [onHeartbeat_stale now draw known stale] at refused; cases refused
      · cases accepted : (n.met now draw h.term).accept now draw h.leader with
        | some next => rw [onHeartbeat_accepted now draw known stale accepted] at refused; cases refused
        | none =>
            have leads := (accept_none now draw).mp accepted
            have current := met_term now draw stale
            rcases met_parts n h.term with same | ⟨_,free⟩
            · rw [same] at leads current
              exact ⟨current,leads⟩
            · rw [role,Standing.role,free] at leads
              cases leads

end Node
end LeaderElection
