import LeaderElection.Proofs.Node.Clock
import LeaderElection.Proofs.Node.Vote
import LeaderElection.Proofs.Roster

namespace LeaderElection.Node

def Begins (t : Term) (n : Node) : Deed → Prop
  | .call now _ c => n.Seeks now c ∧ n.term.next = some t
  | .wake .. => False

-- The peer whose vote a deed brings in: asked for it in term `t`, granted, and not beyond that term.
def backer (t : Term) (me : NodeId) : Deed → Option NodeId
  | .call _ _ (.voteReply peer asked (.ok reply)) =>
      if asked = t ∧ reply.granted = true ∧ ¬ t < reply.term ∧ peer ≠ me then some peer else none
  | _ => none

def backers (t : Term) (me : NodeId) (deeds : List Deed) : Finset NodeId :=
  (deeds.filterMap (backer t me)).toFinset

-- A heartbeat of term `t` that is accepted, and a stretch without any, all of it in term `t`.
def Heeds (t : Term) (n : Node) : Deed → Prop
  | .call now draw (.heartbeat h) => h.term = t ∧ HeartbeatReply.Accepts (n.onHeartbeat now draw h).answer
  | _ => False

def Steady (t : Term) : Node → List Deed → Prop
  | n,[] => n.term = t
  | n,d :: rest => n.term = t ∧ ¬ n.Heeds t d ∧ Steady t (n.does d) rest

def Wins (t : Term) (n : Node) (d : Deed) : Prop := ¬ n.Leads t ∧ (n.does d).Leads t

variable {n : Node} {d : Deed} {deeds : List Deed} {t : Term} {me peer : NodeId}

theorem backer_exact : backer t me d = some peer ↔ ∃ now draw reply,
    d = .call now draw (.voteReply peer t (.ok reply)) ∧ reply.granted = true ∧ ¬ t < reply.term ∧ peer ≠ me := by
  constructor
  · intro backs
    unfold backer at backs
    split at backs
    · split at backs
      · next helps =>
          obtain ⟨rfl,granted,current,other⟩ := helps
          cases backs
          exact ⟨_,_,_,rfl,granted,current,other⟩
      · cases backs
    · cases backs
  · rintro ⟨now,draw,reply,rfl,granted,current,other⟩
    exact if_pos ⟨rfl,granted,current,other⟩

theorem backers_some (backs : backer t me d = some peer) :
    backers t me (deeds ++ [d]) = insert peer (backers t me deeds) := by
  ext voter
  simp [backers,List.filterMap_append,backs]

theorem backers_none (silent : backer t me d = none) : backers t me (deeds ++ [d]) = backers t me deeds := by
  simp [backers,List.filterMap_append,silent]

theorem own_not_backer : me ∉ backers t me deeds := by
  intro own
  obtain ⟨d,_,backs⟩ := List.mem_filterMap.mp (List.mem_toFinset.mp own)
  obtain ⟨_,_,_,_,_,_,other⟩ := backer_exact.mp backs
  exact other rfl

theorem steady_snoc : Steady t n (deeds ++ [d]) ↔
    Steady t n deeds ∧ ¬ (n.run deeds).Heeds t d ∧ ((n.run deeds).does d).term = t := by
  induction deeds generalizing n with
  | nil => exact Iff.rfl
  | cons first rest ih =>
      simp only [List.cons_append,Steady,run,ih,and_assoc]

theorem steady_term (steady : Steady t n deeds) : (n.run deeds).term = t := by
  induction deeds generalizing n with
  | nil => exact steady
  | cons first rest ih => exact ih steady.2.2

theorem tally_toFinset (peer : NodeId) (votes : List NodeId) :
    (tally peer votes).toFinset = insert peer votes.toFinset := by
  ext voter
  simp [tally_mem]

theorem tally_again (again : peer ∈ votes) : tally peer votes = votes := if_pos (by simpa using again)

theorem heeds_follows (heeds : n.Heeds t d) : (n.does d).term = t ∧ (n.does d).role = .follower := by
  cases d with
  | wake now draw => exact heeds.elim
  | call now draw c =>
      cases c with
      | heartbeat h =>
          obtain ⟨rfl,reply,answer,_⟩ := heeds
          change (n.onHeartbeat now draw h).node.term = h.term ∧ (n.onHeartbeat now draw h).node.role = .follower
          cases known : n.roster.contains h.leader with
          | false => rw [onHeartbeat_stranger now draw known] at answer; cases answer
          | true =>
              by_cases stale : h.term < n.term
              · rw [onHeartbeat_stale now draw known stale] at answer; cases answer
              · cases accepted : (n.met now draw h.term).accept now draw h.leader with
                | none => rw [onHeartbeat_rival now draw known stale accepted] at answer; cases answer
                | some next =>
                    obtain ⟨_,ballot,_,⟨_,standing⟩,_⟩ := accept_parts now draw accepted
                    rw [onHeartbeat_accepted now draw known stale accepted]
                    refine ⟨(congrArg Ballot.term ballot).trans (met_term now draw stale),?_⟩
                    rw [role,defer_standing,standing]
                    rfl
      | _ => exact heeds.elim

-- A candidate that is granted a vote nobody else cast has counted it already.
theorem own_counted (coherent : n.Coherent) (running : n.standing.office = .candidate votes timer)
    (current : ¬ n.term < reply.term) (granted : reply.granted = true)
    (silent : backer n.term n.me (.call now draw (.voteReply peer n.term (.ok reply))) = none) :
    tally peer votes = votes := by
  by_cases other : peer = n.me
  · subst other
    exact tally_again (coherent.votes votes timer running).1
  · rw [backer_exact.mpr ⟨now,draw,reply,rfl,granted,current,other⟩] at silent
    cases silent

-- Whatever brings neither a vote nor a leader either ends the term or leaves the office and a
-- candidate's votes alone.
theorem Change.quiet (change : Change now draw n c next) (coherent : n.Coherent)
    (silent : backer n.term n.me (.call now draw c) = none) (deaf : ¬ n.Heeds n.term (.call now draw c)) :
    n.term < next.term ∨ next.term = n.term ∧ next.role = n.role ∧
      ∀ votes timer, next.standing.office = .candidate votes timer →
        ∃ timer, n.standing.office = .candidate votes timer := by
  cases change with
  | kept => exact .inr ⟨rfl,rfl,fun _ timer running => ⟨timer,running⟩⟩
  | stepped _ later => rw [met_later now draw later]; exact .inl later
  | @voted b r _ reached cast =>
      by_cases later : n.term < r.term
      · have current : b.term = r.term := (Ballot.cast_term cast).trans (met_term now draw reached)
        exact .inl (current ▸ later)
      · rw [met_current now draw later] at cast ⊢
        refine .inr ⟨Ballot.cast_term cast,Standing.defer_role ..,?_⟩
        intro votes timer running
        exact ⟨timer,(Standing.defer_candidate now draw).mp running⟩
  | @followed after h known reached accepted =>
      have current : after.term = h.term :=
        (congrArg Ballot.term (accept_parts now draw accepted).2.1).trans (met_term now draw reached)
      rcases Term.lt_or_eq_of_le (Term.not_lt_iff.mp reached) with later | same
      · exact .inl (current ▸ later)
      · refine absurd ⟨same.symm,?_⟩ deaf
        rw [onHeartbeat_accepted now draw known reached accepted]
        exact ⟨_,rfl,rfl⟩
  | stood _ began _ => exact .inl (Term.lt_next (Ballot.stand_exact.mp began).1)
  | sole _ began _ => exact .inl (Term.lt_next (Ballot.stand_exact.mp began).1)
  | @counted votes timer reply peer running current granted _ =>
      rw [own_counted coherent running current granted silent]
      refine .inr ⟨rfl,?_,?_⟩
      · exact (candidate_exact.mpr ⟨votes,timer,running⟩).symm
      · intro votes' timer' running'
        cases running'
        exact ⟨timer,running⟩
  | elected running current granted enough =>
      rw [own_counted coherent running current granted silent] at enough
      exact absurd enough (Nat.not_le_of_lt (coherent.votes _ _ running).2.2)

theorem quiet_deed (coherent : n.Coherent) (silent : backer n.term n.me d = none) (deaf : ¬ n.Heeds n.term d) :
    n.term < (n.does d).term ∨ (n.does d).term = n.term ∧ (n.does d).role = n.role ∧
      ∀ votes timer, (n.does d).standing.office = .candidate votes timer →
        ∃ timer, n.standing.office = .candidate votes timer := by
  cases d with
  | call now draw c => exact (apply_change now draw n c).quiet coherent silent deaf
  | wake now draw =>
      obtain ⟨office,same,_,role,_,votes⟩ := does_wake now draw n
      refine .inr ⟨by rw [same]; rfl,role,?_⟩
      intro votes' timer running
      rw [same] at running
      exact votes votes' timer running

-- A vote is for a candidate to count, and late for anybody else.
theorem backed_candidate (running : n.standing.office = .candidate votes timer)
    (backs : backer n.term n.me d = some peer) :
    (n.does d = n.count (tally peer votes) timer ∧ (tally peer votes).length < quorum n.roster.size) ∨
    ∃ now, n.does d = (n.count (tally peer votes) timer).lead now n.term ∧
      quorum n.roster.size ≤ (tally peer votes).length := by
  obtain ⟨now,draw,reply,rfl,granted,current,_⟩ := backer_exact.mp backs
  have after : n.does (.call now draw (.voteReply peer n.term (.ok reply))) =
      (n.onVoteReply now draw peer n.term (.ok reply)).node := rfl
  rw [after,onVoteReply_running now draw peer running current granted]
  dsimp only
  split
  · next enough => exact .inr ⟨now,rfl,enough⟩
  · next few => exact .inl ⟨rfl,Nat.lt_of_not_le few⟩

theorem backed_late (idle : n.role ≠ .candidate) (backs : backer n.term n.me d = some peer) : n.does d = n := by
  obtain ⟨now,draw,reply,rfl,_,current,_⟩ := backer_exact.mp backs
  obtain ⟨notices,kept⟩ := onVoteReply_ignored now draw peer current (.inr (.inr idle))
  exact congrArg Step.node kept

-- How the candidacy for term `t` can stand, with the votes of `voters` in: it runs, it has been won,
-- or it is over, by a later term or by a leader that was heard from.
inductive Round (t : Term) (voters : Finset NodeId) (steady : Prop) (n : Node) : Prop where
  | running (kept : steady) (term : n.term = t) (office : n.standing.office = .candidate votes timer)
      (votes : votes.toFinset = insert n.me voters) : Round t voters steady n
  | won (kept : steady) (leads : n.Leads t) (enough : n.roster.size/2 ≤ voters.card) : Round t voters steady n
  | closed (broken : ¬ steady) (ended : t < n.term ∨ n.term = t ∧ n.role = .follower) : Round t voters steady n

variable {voters : Finset NodeId} {steady : Prop}

theorem running_short (coherent : n.Coherent) (office : n.standing.office = .candidate votes timer)
    (same : votes.toFinset = insert n.me voters) (others : n.me ∉ voters) : voters.card < n.roster.size/2 := by
  obtain ⟨_,distinct,short⟩ := coherent.votes votes timer office
  have count := List.toFinset_card_of_nodup distinct
  rw [same,Finset.card_insert_of_notMem others] at count
  unfold quorum at short
  omega

theorem backer_deaf (backs : backer t me d = some peer) : ¬ n.Heeds t d := by
  obtain ⟨_,_,_,rfl,_⟩ := backer_exact.mp backs
  exact id

theorem backed_term (backs : backer n.term n.me d = some peer) : (n.does d).term = n.term := by
  by_cases running : n.role = .candidate
  · obtain ⟨votes,timer,office⟩ := candidate_exact.mp running
    rcases backed_candidate office backs with ⟨same,_⟩ | ⟨_,same,_⟩ <;> rw [same] <;> rfl
  · rw [backed_late running backs]

theorem Round.current (round : Round t voters steady n) (reached : ¬ t < n.term) : n.term = t := by
  cases round with
  | running _ term _ _ => exact term
  | won _ leads _ => exact leads.1
  | closed _ ended => exact (ended.resolve_left reached).1

theorem Round.leads_steady (round : Round t voters steady n) (leads : n.Leads t) : steady := by
  cases round with
  | running kept _ _ _ => exact kept
  | won kept _ _ => exact kept
  | closed _ ended =>
      rcases ended with later | ⟨_,follows⟩
      · exact absurd (leads.1 ▸ later) (Term.lt_irrefl _)
      · exact absurd (leads.2.symm.trans follows) (by decide)

theorem Round.leads_exact (round : Round t voters steady n) (coherent : n.Coherent) (others : n.me ∉ voters)
    (kept : steady) : n.Leads t ↔ n.roster.size/2 ≤ voters.card := by
  cases round with
  | running _ _ office votes =>
      refine iff_of_false ?_ (Nat.not_le_of_lt (running_short coherent office votes others))
      intro leads
      exact absurd (leads.2.symm.trans (candidate_exact.mpr ⟨_,_,office⟩)) (by decide)
  | won _ leads enough => exact iff_of_true leads enough
  | closed broken _ => exact absurd kept broken

-- What one deed makes of it. A later term is the end whatever the deed.
theorem Round.passed (d : Deed) (beyond : t < n.term) :
    Round t voters (steady ∧ ¬ n.Heeds t d ∧ (n.does d).term = t) (n.does d) := by
  have later : t < (n.does d).term := Nat.lt_of_lt_of_le beyond (n.does_onward d).term_le
  refine .closed ?_ (.inl later)
  rintro ⟨_,_,same⟩
  exact absurd (same ▸ later) (Term.lt_irrefl _)

theorem Round.backed (round : Round t voters steady n) (coherent : n.Coherent)
    (backs : backer t n.me d = some peer) :
    Round t (insert peer voters) (steady ∧ ¬ n.Heeds t d ∧ (n.does d).term = t) (n.does d) := by
  by_cases beyond : t < n.term
  · exact .passed d beyond
  · have current := round.current beyond
    subst current
    have deaf : ¬ n.Heeds n.term d := backer_deaf backs
    have term := backed_term backs
    cases round with
    | @running votes timer kept _ office same =>
        have counted : (tally peer votes).toFinset = insert n.me (insert peer voters) := by
          rw [tally_toFinset,same,Finset.insert_comm]
        rcases backed_candidate office backs with ⟨after,_⟩ | ⟨now,after,enough⟩
        · have office' : (n.does d).standing.office = .candidate (tally peer votes) timer := by rw [after]; rfl
          refine .running ⟨kept,deaf,term⟩ term office' ?_
          rw [after]
          exact counted
        · have leads : (n.does d).Leads n.term := by rw [after]; exact ⟨rfl,rfl⟩
          refine .won ⟨kept,deaf,term⟩ leads ?_
          have distinct := tally_nodup peer (coherent.votes votes timer office).2.1
          have count := List.toFinset_card_of_nodup distinct
          have most := Finset.card_insert_le n.me (insert peer voters)
          rw [does_roster]
          rw [counted] at count
          unfold quorum at enough
          omega
    | won kept leads enough =>
        have after := backed_late (by rw [show n.role = .leader from leads.2]; decide) backs
        rw [after] at term ⊢
        exact .won ⟨kept,deaf,term⟩ leads (enough.trans (Finset.card_le_card (Finset.subset_insert peer voters)))
    | closed broken ended =>
        have follows := (ended.resolve_left beyond).2
        have after := backed_late (by rw [follows]; decide) backs
        rw [after] at term ⊢
        exact .closed (fun kept => broken kept.1) (.inr ⟨term,follows⟩)

theorem Round.unbacked (round : Round t voters steady n) (coherent : n.Coherent)
    (silent : backer t n.me d = none) :
    Round t voters (steady ∧ ¬ n.Heeds t d ∧ (n.does d).term = t) (n.does d) := by
  by_cases beyond : t < n.term
  · exact .passed d beyond
  · have current := round.current beyond
    subst current
    by_cases heeds : n.Heeds n.term d
    · exact .closed (fun kept => kept.2.1 heeds) (.inr (heeds_follows heeds))
    · rcases quiet_deed coherent silent heeds with later | ⟨term,role,votes⟩
      · refine .closed ?_ (.inl later)
        rintro ⟨_,_,same⟩
        exact absurd (same ▸ later) (Term.lt_irrefl _)
      · cases round with
        | running kept _ office same =>
            obtain ⟨votes',timer',office'⟩ :=
              candidate_exact.mp (role.trans (candidate_exact.mpr ⟨_,_,office⟩))
            obtain ⟨timer,before⟩ := votes votes' timer' office'
            rw [office] at before
            cases before
            refine .running ⟨kept,heeds,term⟩ term office' ?_
            rw [me,does_roster]
            exact same
        | won kept leads enough =>
            refine .won ⟨kept,heeds,term⟩ ⟨term,role.trans leads.2⟩ ?_
            rw [does_roster]
            exact enough
        | closed broken ended =>
            exact .closed (fun kept => broken kept.1) (.inr ⟨term,role.trans (ended.resolve_left beyond).2⟩)

theorem Begins.next_number (begins : n.Begins t d) : t.number = n.term.number+1 := by
  cases d with
  | call now draw c => exact Term.next_number begins.2
  | wake now draw => exact begins.elim

-- How a candidacy begins: alone it is won at once, else it runs on the own vote.
theorem Begins.parts (begins : n.Begins t s) :
    (quorum n.roster.size ≤ 1 ∧ ∃ now draw, n.does s = (n.candidate now draw ⟨t,some n.me⟩).lead now t) ∨
    (1 < quorum n.roster.size ∧ ∃ now draw, n.does s = n.candidate now draw ⟨t,some n.me⟩) := by
  cases s with
  | wake now draw => exact begins.elim
  | call now draw c =>
      obtain ⟨seeks,next⟩ := begins
      have began : n.ballot.stand n.me = some ⟨t,some n.me⟩ := Ballot.stand_exact.mpr ⟨next,rfl⟩
      have after : n.does (.call now draw c) = (n.stand now draw).node := congrArg Step.node (seeks_stands seeks)
      rw [after]
      by_cases alone : quorum n.roster.size ≤ 1
      · rw [stand_sole now draw began alone]
        exact .inl ⟨alone,now,draw,rfl⟩
      · have others := Nat.lt_of_not_le alone
        rw [stand_asking now draw began others]
        exact .inr ⟨others,now,draw,rfl⟩

theorem Begins.leads_alone (begins : n.Begins t s) : (n.does s).Leads t ↔ n.roster.size = 1 := by
  rcases begins.parts with ⟨alone,now,draw,after⟩ | ⟨others,now,draw,after⟩
  · rw [after]
    refine iff_of_true ⟨rfl,rfl⟩ ?_
    unfold quorum Roster.size at *
    omega
  · rw [after]
    refine iff_of_false ?_ ?_
    · rintro ⟨_,leads⟩
      cases leads
    · intro alone
      unfold quorum at others
      omega

-- By induction on what follows, deed by deed.
theorem Round.run (round : Round t voters steady n) (coherent : n.Coherent) (deeds : List Deed) :
    Round t (voters ∪ backers t n.me deeds) (steady ∧ Steady t n deeds) (n.run deeds) := by
  induction deeds using List.reverseRecOn with
  | nil =>
      change Round t (voters ∪ ∅) (steady ∧ n.term = t) n
      rw [Finset.union_empty]
      cases round with
      | running kept term office votes => exact .running ⟨kept,term⟩ term office votes
      | won kept leads enough => exact .won ⟨kept,leads.1⟩ leads enough
      | closed broken ended => exact .closed (fun kept => broken kept.1) ended
  | append_singleton rest d ih =>
      have coherent' : (n.run rest).Coherent := coherent.run rest
      have own : (n.run rest).me = n.me := congrArg Roster.me (run_roster rest n)
      rw [run_append,propext steady_snoc,← and_assoc]
      cases backs : backer t n.me d with
      | none =>
          rw [backers_none backs]
          exact ih.unbacked coherent' (own ▸ backs)
      | some peer =>
          rw [backers_some backs,Finset.union_insert]
          exact ih.backed coherent' (own ▸ backs)

theorem Begins.round (begins : n.Begins t s) : Round t ∅ True (n.does s) := by
  rcases begins.parts with ⟨alone,now,draw,after⟩ | ⟨others,now,draw,after⟩
  · rw [after]
    refine .won trivial ⟨rfl,rfl⟩ ?_
    change n.roster.size/2 ≤ 0
    unfold quorum at alone
    omega
  · rw [after]
    exact .running trivial rfl rfl rfl

theorem Begins.rounds (begins : n.Begins t s) (coherent : n.Coherent) (deeds : List Deed) :
    Round t (backers t n.me deeds) (Steady t (n.does s) deeds) ((n.does s).run deeds) := by
  have rounds := begins.round.run (coherent.does s) deeds
  rw [Finset.empty_union,true_and] at rounds
  have own : (n.does s).me = n.me := congrArg Roster.me (does_roster s n)
  rwa [own] at rounds

-- As long as the term lasts without another leader, votes alone decide.
theorem Begins.leads_exact (begins : n.Begins t s) (coherent : n.Coherent) (steady : Steady t (n.does s) deeds) :
    ((n.does s).run deeds).Leads t ↔ n.roster.size/2 ≤ (backers t n.me deeds).card := by
  have roster : ((n.does s).run deeds).roster = n.roster := run_roster (s :: deeds) n
  have own : ((n.does s).run deeds).me = n.me := congrArg Roster.me roster
  have others : ((n.does s).run deeds).me ∉ backers t n.me deeds := own ▸ own_not_backer
  rw [← roster]
  exact (begins.rounds coherent deeds).leads_exact (coherent.run (s :: deeds)) others steady

theorem Begins.wins (begins : n.Begins t s) (coherent : n.Coherent) :
    Wins t ((n.does s).run deeds) d ↔ Steady t (n.does s) deeds ∧
      (backers t n.me deeds).card < n.roster.size/2 ∧ n.roster.size/2 ≤ (backers t n.me (deeds ++ [d])).card := by
  have after : ((n.does s).run deeds).does d = (n.does s).run (deeds ++ [d]) := (run_append deeds [d] _).symm
  constructor
  · rintro ⟨yet,leads⟩
    rw [after] at leads
    have kept : Steady t (n.does s) (deeds ++ [d]) := (begins.rounds coherent (deeds ++ [d])).leads_steady leads
    have steady : Steady t (n.does s) deeds := (steady_snoc.mp kept).1
    refine ⟨steady,?_,(begins.leads_exact coherent kept).mp leads⟩
    exact Nat.lt_of_not_le fun enough => yet ((begins.leads_exact coherent steady).mpr enough)
  · rintro ⟨steady,few,enough⟩
    have yet : ¬ ((n.does s).run deeds).Leads t := fun leads =>
      Nat.not_le_of_lt few ((begins.leads_exact coherent steady).mp leads)
    -- The last deed brings a vote, since their number grows by it, and a vote does not end the term.
    have kept : Steady t (n.does s) (deeds ++ [d]) := by
      cases backs : backer t n.me d with
      | none =>
          rw [backers_none backs] at enough
          exact absurd enough (Nat.not_le_of_lt few)
      | some peer =>
          have current := steady_term steady
          have own : ((n.does s).run deeds).me = n.me := congrArg Roster.me (run_roster (s :: deeds) n)
          have counts : backer ((n.does s).run deeds).term ((n.does s).run deeds).me d = some peer := by
            rw [current,own]
            exact backs
          exact steady_snoc.mpr ⟨steady,backer_deaf backs,(backed_term counts).trans current⟩
    refine ⟨yet,?_⟩
    rw [after]
    exact (begins.leads_exact coherent kept).mpr enough

theorem Change.stands (change : Change now draw n c next) (brought : c.carried ≠ none) (stands : next.Stands t) :
    n.Stands t := by
  cases change with
  | kept => exact stands
  | stepped _ later =>
      rw [met_later now draw later] at stands
      exact absurd rfl stands.2
  | @voted b r _ _ cast =>
      by_cases later : n.term < r.term
      · rw [met_later now draw later] at stands
        exact absurd rfl stands.2
      · rw [met_current now draw later] at cast stands
        refine ⟨(Ballot.cast_term cast).symm.trans stands.1,?_⟩
        intro follows
        exact stands.2 ((Standing.defer_role ..).trans follows)
  | @followed after h _ _ accepted =>
      obtain ⟨_,_,_,⟨_,standing⟩,_⟩ := accept_parts now draw accepted
      have follows : (after.defer now draw).role = .follower := by rw [role,defer_standing,standing]; rfl
      exact absurd follows stands.2
  | stood asked _ _ => rcases asked with rfl | rfl <;> exact absurd rfl brought
  | sole asked _ _ => rcases asked with rfl | rfl <;> exact absurd rfl brought
  | counted running _ _ _ =>
      refine ⟨stands.1,?_⟩
      intro follows
      exact absurd ((candidate_exact.mpr ⟨_,_,running⟩).symm.trans follows) (by decide)
  | elected running _ _ _ =>
      refine ⟨stands.1,?_⟩
      intro follows
      exact absurd ((candidate_exact.mpr ⟨_,_,running⟩).symm.trans follows) (by decide)

-- Nobody stands in a term but by a candidacy for it.
theorem does_stands (stands : (n.does d).Stands t) : n.Stands t ∨ n.Begins t d := by
  cases d with
  | wake now draw =>
      obtain ⟨office,same,_,role,_,_⟩ := does_wake now draw n
      refine .inl ⟨?_,fun follows => stands.2 (role.trans follows)⟩
      rw [← stands.1,same]
      rfl
  | call now draw c =>
      change (n.apply now draw c).node.Stands t at stands
      by_cases seeks : n.Seeks now c
      · cases began : n.ballot.stand n.me with
        | none =>
            rw [seeks_stands seeks,stand_exhausted now draw began] at stands
            exact .inl stands
        | some b =>
            have term : b.term = t := (congrArg Ballot.term (seeks_began seeks began)).symm.trans stands.1
            exact .inr ⟨seeks,term ▸ (Ballot.stand_exact.mp began).1⟩
      · by_cases silent : c.carried = none
        · rw [apply_silent silent seeks] at stands
          exact .inl stands
        · exact .inl ((apply_change now draw n c).stands silent stands)

theorem run_stands (idle : n.role = .follower) (stands : (n.run deeds).Stands t) :
    ∃ early s late, deeds = early ++ s :: late ∧ (n.run early).Begins t s := by
  induction deeds using List.reverseRecOn with
  | nil => exact absurd idle stands.2
  | append_singleton rest d ih =>
      rw [run_append] at stands
      rcases does_stands stands with before | begins
      · obtain ⟨early,s,late,rfl,begins⟩ := ih before
        exact ⟨early,s,late ++ [d],by simp,begins⟩
      · exact ⟨rest,d,[],rfl,begins⟩

-- An outcome that adds to a candidate's votes. A failure, a denial, an outcome for another term, one
-- that finds the candidacy over and a second one of the same peer do not.
def Adds (n : Node) (peer : NodeId) (t : Term) : Except TransportError VoteReply → Prop
  | .error _ => False
  | .ok reply => reply.granted = true ∧ t = n.term ∧
      ∃ votes timer, n.standing.office = .candidate votes timer ∧ peer ∉ votes

-- Of any other outcome only the term is heard.
theorem onVoteReply_idle (coherent : n.Coherent) (idle : ¬ n.Adds peer t result) :
    (n.onVoteReply now draw peer t result).node =
      result.toOption.elim n fun reply => n.met now draw reply.term := by
  cases result with
  | error e => rfl
  | ok reply =>
      change _ = n.met now draw reply.term
      by_cases later : n.term < reply.term
      · rw [onVoteReply_later now draw peer t later]; rfl
      · rw [met_current now draw later]
        by_cases ignored : n.term ≠ t ∨ reply.granted = false ∨ n.role ≠ .candidate
        · obtain ⟨notices,kept⟩ := onVoteReply_ignored now draw peer later ignored
          rw [kept]; rfl
        · obtain ⟨same,granted,candidate⟩ : n.term = t ∧ reply.granted = true ∧ n.role = .candidate := by
            simpa using ignored
          subst same
          obtain ⟨votes,timer,running⟩ := candidate_exact.mp candidate
          have again : peer ∈ votes := by
            by_contra new
            exact idle ⟨granted,rfl,votes,timer,running,new⟩
          rw [onVoteReply_running now draw peer running later granted,tally_again again]
          dsimp only
          rw [if_neg (Nat.not_le_of_lt (coherent.votes votes timer running).2.2)]
          obtain ⟨roster,timings,ballot,⟨term,office⟩,feed⟩ := n
          cases running
          rfl

-- For any run of any member: what follows a candidacy, how the candidacy itself ends alone, every way
-- to come to lead, and what never helps.
theorem leads_by_majority {members : List Member} {roster : Roster} (accepted : Roster.ofMembers me members = .ok roster)
    (timings : Timings) (start first : Nat) (before : List Deed) :
    let created := create start first roster timings
    let n := created.run before
    (∀ t s, n.Begins t s → ∀ deeds d, Wins t ((n.does s).run deeds) d ↔ Steady t (n.does s) deeds ∧
      (backers t me deeds).card < members.length/2 ∧ members.length/2 ≤ (backers t me (deeds ++ [d])).card) ∧
    (∀ t s, n.Begins t s → ((n.does s).Leads t ↔ members.length = 1)) ∧
    (∀ t d, Wins t n d → (members.length = 1 ∧ n.Begins t d) ∨ (n.role = .candidate ∧
      ∃ early s deeds, before = early ++ s :: deeds ∧ (created.run early).Begins t s ∧
        Steady t ((created.run early).does s) deeds ∧ (backers t me deeds).card < members.length/2 ∧
        members.length/2 ≤ (backers t me (deeds ++ [d])).card)) ∧
    (∀ now draw peer t result, ¬ n.Adds peer t result → (n.apply now draw (.voteReply peer t result)).node =
      result.toOption.elim n fun reply => n.met now draw reply.term) := by
  intro created n
  have coherent : ∀ deeds, (created.run deeds).Coherent := (Coherent.created start first roster timings).run
  have same : ∀ deeds, (created.run deeds).roster = roster := fun deeds => run_roster deeds created
  have own : ∀ deeds, (created.run deeds).me = me := fun deeds =>
    (congrArg Roster.me (same deeds)).trans (Roster.ofMembers_me accepted)
  have size : ∀ deeds, (created.run deeds).roster.size = members.length := fun deeds =>
    (congrArg Roster.size (same deeds)).trans (Roster.ofMembers_size accepted)
  have wins : ∀ early t s, (created.run early).Begins t s → ∀ deeds d,
      Wins t (((created.run early).does s).run deeds) d ↔ Steady t ((created.run early).does s) deeds ∧
        (backers t me deeds).card < members.length/2 ∧ members.length/2 ≤ (backers t me (deeds ++ [d])).card := by
    intro early t s begins deeds d
    rw [← own early,← size early]
    exact begins.wins (coherent early)
  have alone : ∀ t s, n.Begins t s → ((n.does s).Leads t ↔ members.length = 1) := by
    intro t s begins
    rw [← size before]
    exact begins.leads_alone
  refine ⟨wins before,alone,?_,?_⟩
  · intro t d won
    rcases does_stands ⟨won.2.1,by rw [won.2.2]; decide⟩ with stands | begins
    · have candidate : n.role = .candidate := by
        cases role : n.role with
        | candidate => rfl
        | leader => exact absurd ⟨stands.1,role⟩ won.1
        | follower => exact absurd role stands.2
      obtain ⟨early,s,deeds,split,begins⟩ := run_stands rfl stands
      refine .inr ⟨candidate,early,s,deeds,split,begins,(wins early t s begins deeds d).mp ?_⟩
      have after : created.run before = ((created.run early).does s).run deeds := by
        rw [split]
        exact run_append early (s :: deeds) created
      rw [← after]
      exact won
    · exact .inl ⟨(alone t d begins).mp won.2,begins⟩
  · intro now draw peer t result idle
    exact onVoteReply_idle (coherent before) idle

-- One of five: the first vote and the same vote again do not win, a second voter's does.
theorem majority_of_five :
    let others : List Member := [⟨⟨"b"⟩,⟨"b",1⟩⟩,⟨⟨"c"⟩,⟨"c",1⟩⟩,⟨⟨"d"⟩,⟨"d",1⟩⟩,⟨⟨"e"⟩,⟨"e",1⟩⟩]
    let n := create 0 5 ⟨⟨"a"⟩,⟨"a",1⟩,others⟩ ⟨1,⟨5,10⟩,1⟩
    let vote (peer : String) : Deed := .call 6 5 (.voteReply ⟨peer⟩ .one (.ok ⟨true,.one⟩))
    let denial : Deed := .call 6 5 (.voteReply ⟨"d"⟩ .one (.ok ⟨false,.one⟩))
    ¬ Wins .one ((n.does (.call 5 5 .timeout)).run [vote "b",denial]) (vote "b") ∧
      Wins .one ((n.does (.call 5 5 .timeout)).run [vote "b",denial,vote "b"]) (vote "c") := by
  intro others n vote denial
  have accepted : Roster.ofMembers ⟨"a"⟩ (⟨⟨"a"⟩,⟨"a",1⟩⟩ :: others) = .ok n.roster := rfl
  have begins : n.Begins .one (.call 5 5 .timeout) := ⟨rfl,rfl⟩
  have wins := (leads_by_majority accepted n.timings 0 5 []).1 _ _ begins
  refine ⟨fun won => ?_,(wins _ _).mpr ⟨?_,?_,?_⟩⟩
  · exact absurd ((wins _ _).mp won).2.2 (by decide)
  · exact ⟨by decide,id,by decide,id,by decide,id,show Node.term _ = _ by decide⟩
  · decide
  · decide

end LeaderElection.Node
