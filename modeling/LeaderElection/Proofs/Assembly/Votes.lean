import LeaderElection.Proofs.Assembly.Basic
import LeaderElection.Proofs.Node.Vote

namespace LeaderElection

theorem Reply.ofVote_granted (said : Reply.ofVote result = .vote reply) (granted : reply.granted = true) :
    VoteReply.Grants result := by
  cases result with
  | error e =>
      cases said
      cases granted
  | ok reply' =>
      cases said
      exact ⟨reply,rfl,granted⟩

variable {members : List Member} {a b : Assembly} {past moments : List Assembly} {i j v : NodeId} {n m : Node}

namespace Assembly

theorem Begun.lived (first : a.Begun members) (lives : a.node i = some n) : ∃ roster timings now draw,
    Roster.ofMembers i members = .ok roster ∧ n = .create now draw roster timings := by
  by_cases member : i ∈ members.map Member.id
  · obtain ⟨m,present,rfl⟩ := List.mem_map.mp member
    obtain ⟨roster,timings,now,draw,accepted,created⟩ := first.created m present
    exact ⟨roster,timings,now,draw,accepted,Option.some.inj (lives.symm.trans created)⟩
  · cases lives.symm.trans (first.nobody i member)

-- One node acts, the others stay as they are.
namespace Does

theorem self (does : Does a b i n d) : b.node i = some (n.does d) := by
  rw [does.node]
  exact Function.update_self ..

theorem other (does : Does a b i n d) (differ : j ≠ i) : b.node j = a.node j := by
  rw [does.node]
  exact Function.update_of_ne differ ..

theorem lived (does : Does a b i n d) (lives : b.node j = some m) :
    (j = i ∧ m = n.does d) ∨ a.node j = some m := by
  by_cases same : j = i
  · subst same
    exact .inl ⟨rfl,Option.some.inj (lives.symm.trans does.self)⟩
  · exact .inr ((does.other same).symm.trans lives)

theorem onward (does : Does a b i n d) (lives : a.node j = some m) :
    ∃ m', b.node j = some m' ∧ m.ballot.Onward m'.ballot := by
  by_cases same : j = i
  · subst same
    cases Option.some.inj (lives.symm.trans does.lives)
    exact ⟨n.does d,does.self,n.does_onward d⟩
  · exact ⟨m,(does.other same).trans lives,.refl _⟩

end Does

-- Somebody has been seen to have voted, at any of the moments.
def Voted (moments : List Assembly) (voter : NodeId) (t : Term) (c : NodeId) : Prop :=
  ∃ a ∈ moments, ∃ n, a.node voter = some n ∧ n.Shows t c

theorem Voted.later (voted : Voted moments v t c) : Voted (a :: moments) v t c := by
  obtain ⟨b,moment,n,lives,shows⟩ := voted
  exact ⟨b,List.mem_cons_of_mem _ moment,n,lives,shows⟩

theorem Voted.now (lives : a.node v = some n) (shows : n.Shows t c) : Voted (a :: past) v t c :=
  ⟨a,List.mem_cons_self,n,lives,shows⟩

end Assembly

namespace System.Course

open Assembly

theorem admitted (course : (system members).Course a past) (lives : a.node i = some n) :
    Roster.ofMembers i members = .ok n.roster ∧ n.Coherent := by
  induction course generalizing i n with
  | begun first =>
      obtain ⟨roster,timings,now,draw,accepted,rfl⟩ := first.lived lives
      exact ⟨accepted,.created now draw roster timings⟩
  | step _ step ih =>
      obtain ⟨k,n',d,does⟩ := step.does
      rcases does.lived lives with ⟨rfl,rfl⟩ | before
      · obtain ⟨accepted,coherent⟩ := ih does.lives
        rw [n'.does_roster d]
        exact ⟨accepted,coherent.does d⟩
      · exact ih before

theorem onward (course : (system members).Course a past) (early : b ∈ past) (lives : b.node i = some m) :
    ∃ n, a.node i = some n ∧ m.ballot.Onward n.ballot := by
  induction course generalizing b m with
  | begun _ => cases early
  | step _ step ih =>
      obtain ⟨_,_,_,does⟩ := step.does
      rcases List.mem_cons.mp early with rfl | earlier
      · exact does.onward lives
      · obtain ⟨m',lived,first⟩ := ih earlier lives
        obtain ⟨n,living,second⟩ := does.onward lived
        exact ⟨n,living,first.trans second⟩

theorem voted_now (course : (system members).Course a past) (lives : a.node v = some n) (shows : n.Shows t c)
    (voted : Voted (a :: past) v t c') : c = c' := by
  obtain ⟨b,moment,m,lived,showed⟩ := voted
  have ordered : m.ballot.Onward n.ballot := by
    rcases List.mem_cons.mp moment with rfl | early
    · cases Option.some.inj (lived.symm.trans lives)
      exact .refl _
    · obtain ⟨n',living,onward⟩ := course.onward early lived
      cases Option.some.inj (lives.symm.trans living)
      exact onward
  exact Ballot.vote_unique (.inr ordered) (shows.1.trans showed.1.symm) shows.2 showed.2

-- Nobody is ever seen to have voted for two in one term.
theorem voted_unique (course : (system members).Course a past) (voted : Voted (a :: past) v t c)
    (voted' : Voted (a :: past) v t c') : c = c' := by
  induction course with
  | begun first =>
      obtain ⟨b,moment,n,lives,shows⟩ := voted
      cases List.mem_singleton.mp moment
      exact (Course.begun first).voted_now lives shows voted'
  | step course step ih =>
      obtain ⟨b,moment,n,lives,shows⟩ := voted
      obtain ⟨b',moment',n',lives',shows'⟩ := voted'
      rcases List.mem_cons.mp moment with rfl | early
      · exact (course.step step).voted_now lives shows ⟨b',moment',n',lives',shows'⟩
      · rcases List.mem_cons.mp moment' with rfl | early'
        · exact ((course.step step).voted_now lives' shows' ⟨b,moment,n,lives,shows⟩).symm
        · exact ih ⟨b,early,n,lives,shows⟩ ⟨b',early',n',lives',shows'⟩

-- Every request speaks for its sender, to another member.
theorem letter (course : (system members).Course a past) (sent : l ∈ a.letters) :
    l.peer ∈ members ∧ l.peer.id ≠ l.sender ∧ l.request.sender = l.sender := by
  induction course with
  | begun first =>
      rw [first.letters] at sent
      cases sent
  | step course step ih =>
      obtain ⟨i,n,d,does⟩ := step.does
      rcases does.letters l sent with old | ⟨now,draw,c,s,rfl,sends,rfl⟩
      · exact ih old
      · have accepted := (course.admitted does.lives).1
        obtain ⟨peer,asks | beats⟩ := Node.apply_sends sends
        · obtain ⟨member,differ⟩ := (Roster.ofMembers_peers accepted s.peer).mp peer
          exact ⟨member,differ,by rw [asks.request]; exact Roster.ofMembers_me accepted⟩
        · obtain ⟨member,differ⟩ := (Roster.ofMembers_peers accepted s.peer).mp peer
          exact ⟨member,differ,by rw [beats.request]; exact Roster.ofMembers_me accepted⟩

-- A request comes to nobody but the member it was sent to, since no two share an address.
theorem receiver (course : (system members).Course a past) (addresses : (members.map Member.address).Nodup)
    (lives : a.node i = some n) (sent : l ∈ a.letters) (reached : n.roster.address = l.peer.address) :
    l.peer.id = i := by
  have self := Roster.ofMembers_self (course.admitted lives).1
  have same := List.inj_on_of_nodup_map addresses self (course.letter sent).1 reached
  exact (congrArg Member.id same).symm

theorem reply_voted (course : (system members).Course a past) (addresses : (members.map Member.address).Nodup)
    (given : g ∈ a.replies) (asked : g.letter.request = .vote r) (said : g.reply = .vote reply)
    (granted : reply.granted = true) :
    g.letter ∈ a.letters ∧ Voted (a :: past) g.letter.peer.id r.term r.candidate := by
  induction course with
  | begun first =>
      rw [first.replies] at given
      cases given
  | step course step ih =>
      obtain ⟨i,n,d,does⟩ := step.does
      rcases does.replies g given with old | ⟨sent,reached,now,draw,rfl,answered⟩
      · obtain ⟨sent,voted⟩ := ih old
        exact ⟨does.kept.1 _ sent,voted.later⟩
      · rw [said,asked] at answered
        have grants := Reply.ofVote_granted answered.symm granted
        have ballot := Node.onVoteRequest_ballot grants
        have living := does.self
        rw [asked] at living
        rw [course.receiver addresses does.lives sent reached]
        exact ⟨does.kept.1 _ sent,.now living ⟨congrArg Ballot.term ballot,congrArg Ballot.vote ballot⟩⟩

-- A node hears of no vote for it but from whoever has given it.
theorem reported_voted (course : (system members).Course a past) (addresses : (members.map Member.address).Nodup)
    (reported : a.Permits i n (.call now draw (.voteReply peer t (.ok reply)))) (granted : reply.granted = true) :
    peer ∈ members.map Member.id ∧ Voted (a :: past) peer t i := by
  obtain ⟨g,given,rfl,rfl,r,asked,rfl,said⟩ := reported
  obtain ⟨sent,voted⟩ := course.reply_voted addresses given asked said granted
  obtain ⟨member,_,own⟩ := course.letter sent
  rw [asked] at own
  exact ⟨List.mem_map_of_mem member,own ▸ voted⟩

theorem own_voted (course : (system members).Course a past) (lives : a.node i = some n) (busy : n.role ≠ .follower) :
    i ∈ members.map Member.id ∧ Voted (a :: past) i n.term i := by
  obtain ⟨accepted,coherent⟩ := course.admitted lives
  have own : n.me = i := Roster.ofMembers_me accepted
  have shows := coherent.stands_shown ⟨rfl,busy⟩
  rw [own] at shows
  exact ⟨List.mem_map_of_mem (Roster.ofMembers_self accepted),.now lives shows⟩

-- Whoever is counted by a candidate is a member that has voted for it.
theorem counted_voted (course : (system members).Course a past) (addresses : (members.map Member.address).Nodup)
    (lives : a.node i = some n) (running : n.standing.office = .candidate votes timer) (counted : v ∈ votes) :
    v ∈ members.map Member.id ∧ Voted (a :: past) v n.term i := by
  induction course generalizing i n votes timer v with
  | begun first =>
      obtain ⟨_,_,_,_,_,rfl⟩ := first.lived lives
      cases running
  | step course step ih =>
      obtain ⟨_,old,d,does⟩ := step.does
      rcases does.lived lives with ⟨rfl,rfl⟩ | before
      · have permitted := does.permitted
        have busy : (old.does d).role ≠ .follower := by simp [Node.candidate_exact.mpr ⟨votes,timer,running⟩]
        have mine := (course.step step).own_voted lives busy
        have own : old.me = i := Roster.ofMembers_me (course.admitted does.lives).1
        cases old.does_shift d with
        | same term _ _ votes =>
            obtain ⟨_,was⟩ := votes _ timer running
            obtain ⟨member,voted⟩ := ih does.lives was counted
            exact ⟨member,term ▸ voted.later⟩
        | freed office => cases office.symm.trans running
        | followed office _ => cases office.symm.trans running
        | stood office =>
            cases office.symm.trans running
            cases List.mem_singleton.mp counted
            exact own ▸ mine
        | sole office _ => cases office.symm.trans running
        | counted was granted term office =>
            cases office.symm.trans running
            rw [term]
            rcases Node.tally_mem.mp counted with rfl | before
            · obtain ⟨member,voted⟩ := course.reported_voted addresses permitted granted
              exact ⟨member,voted.later⟩
            · obtain ⟨member,voted⟩ := ih does.lives was before
              exact ⟨member,voted.later⟩
        | elected _ _ _ office _ => cases office.symm.trans running
      · obtain ⟨member,voted⟩ := ih before running counted
        exact ⟨member,voted.later⟩

end System.Course

end LeaderElection
