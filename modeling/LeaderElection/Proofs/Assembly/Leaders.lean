import LeaderElection.Proofs.Assembly.Votes

namespace LeaderElection

variable {members : List Member} {a b : Assembly} {past moments : List Assembly} {i j v : NodeId} {n : Node}

namespace Assembly

-- Somebody has been leader of a term, at any of the moments.
def Led (moments : List Assembly) (leader : NodeId) (t : Term) : Prop :=
  ∃ a ∈ moments, ∃ n, a.node leader = some n ∧ n.Leads t

theorem Led.later (led : Led moments i t) : Led (a :: moments) i t := by
  obtain ⟨b,moment,n,lives,leads⟩ := led
  exact ⟨b,List.mem_cons_of_mem _ moment,n,lives,leads⟩

theorem Led.now (lives : a.node i = some n) (leads : n.Leads t) : Led (a :: past) i t :=
  ⟨a,List.mem_cons_self,n,lives,leads⟩

-- What entitles to the leadership of a term: a majority that has been seen to have voted so.
structure Won (members : List Member) (moments : List Assembly) (voters : List NodeId) (t : Term) (c : NodeId) :
    Prop where
  distinct : voters.Nodup
  voted : ∀ v ∈ voters, v ∈ members.map Member.id ∧ Voted moments v t c
  enough : quorum members.length ≤ voters.length

theorem Won.later (won : Won members moments voters t c) : Won members (a :: moments) voters t c :=
  ⟨won.distinct,fun v voter => ⟨(won.voted v voter).1,(won.voted v voter).2.later⟩,won.enough⟩

end Assembly

namespace System.Course

open Assembly

-- Whoever acts is leader as before, or has a majority behind it, its own vote included.
theorem acting_won (course : (system members).Course a past) (addresses : (members.map Member.address).Nodup)
    (step : Assembly.Step a b) (does : Does a b i n d) (leads : (n.does d).Leads t)
    (before : n.Leads t → ∃ voters, Won members (a :: past) voters t i) :
    ∃ voters, Won members (b :: a :: past) voters t i := by
  have permitted := does.permitted
  have busy : (n.does d).role ≠ .follower := by simp [show Node.role _ = _ from leads.2]
  obtain ⟨member,voted⟩ := (course.step step).own_voted does.self busy
  have size := Roster.ofMembers_size (course.admitted does.lives).1
  obtain ⟨beat,leading⟩ := Node.leader_exact.mp leads.2
  cases n.does_shift d with
  | same term role _ _ =>
      obtain ⟨voters,won⟩ := before ⟨term.symm.trans leads.1,role.symm.trans leads.2⟩
      exact ⟨voters,won.later⟩
  | freed office => cases office.symm.trans leading
  | followed office _ => cases office.symm.trans leading
  | stood office => cases office.symm.trans leading
  | counted _ _ _ office => cases office.symm.trans leading
  | sole _ alone =>
      refine ⟨[i],List.nodup_singleton i,?_,size ▸ alone⟩
      intro v voter
      cases List.mem_singleton.mp voter
      exact ⟨member,leads.1 ▸ voted⟩
  | elected running granted term _ enough =>
      have current : n.term = t := term.symm.trans leads.1
      have distinct := ((course.admitted does.lives).2.votes _ _ running).2.1
      refine ⟨_,Node.tally_nodup _ distinct,?_,size ▸ enough⟩
      intro v counted
      rcases Node.tally_mem.mp counted with rfl | before
      · obtain ⟨member,voted⟩ := course.reported_voted addresses permitted granted
        exact ⟨member,current ▸ voted.later⟩
      · obtain ⟨member,voted⟩ := course.counted_voted addresses does.lives running before
        exact ⟨member,current ▸ voted.later⟩

theorem leader_won (course : (system members).Course a past) (addresses : (members.map Member.address).Nodup)
    (led : Led (a :: past) i t) : ∃ voters, Won members (a :: past) voters t i := by
  induction course generalizing i t with
  | begun first =>
      obtain ⟨_,moment,n,lives,leads⟩ := led
      cases List.mem_singleton.mp moment
      obtain ⟨_,_,_,_,_,rfl⟩ := first.lived lives
      cases leads.2
  | step course step ih =>
      obtain ⟨c,moment,n,lives,leads⟩ := led
      rcases List.mem_cons.mp moment with rfl | early
      · obtain ⟨_,old,d,does⟩ := step.does
        rcases does.lived lives with ⟨rfl,rfl⟩ | before
        · exact course.acting_won addresses step does leads fun led => ih (.now does.lives led)
        · obtain ⟨voters,won⟩ := ih (.now before leads)
          exact ⟨voters,won.later⟩
      · obtain ⟨voters,won⟩ := ih ⟨c,early,n,lives,leads⟩
        exact ⟨voters,won.later⟩

-- Two majorities have a voter in common, and that one has voted for one of the two only.
theorem leader_unique (course : (system members).Course a past) (addresses : (members.map Member.address).Nodup)
    (first : Led (a :: past) i t) (second : Led (a :: past) j t) : i = j := by
  obtain ⟨one,wonOne⟩ := course.leader_won addresses first
  obtain ⟨two,wonTwo⟩ := course.leader_won addresses second
  have size : members.length = (members.map Member.id).length := (List.length_map ..).symm
  obtain ⟨v,inOne,inTwo⟩ := quorums_meet wonOne.distinct wonTwo.distinct
    (fun v voter => (wonOne.voted v voter).1) (fun v voter => (wonTwo.voted v voter).1)
    (size ▸ wonOne.enough) (size ▸ wonTwo.enough)
  exact course.voted_unique (wonOne.voted v inOne).2 (wonTwo.voted v inTwo).2

end System.Course

namespace Assembly

-- At most one leader in each term, whenever the two are looked at.
theorem one_leader_per_term (addresses : (members.map Member.address).Nodup) (course : Course members a past)
    {b b' : Assembly} {n n' : Node} (moment : b ∈ a :: past) (moment' : b' ∈ a :: past)
    (lives : b.node i = some n) (lives' : b'.node j = some n') (leads : n.status.role = .leader)
    (leads' : n'.status.role = .leader) (same : n.status.term = n'.status.term) : i = j :=
  course.leader_unique addresses ⟨b,moment,n,lives,rfl,leads⟩ ⟨b',moment',n',lives',same.symm,leads'⟩

def trioBegun : Run trio := ⟨create 0 5 ⟨1,⟨5,10⟩,1⟩ trio,[],.begun (create_begun (by decide))⟩

-- The first of three members stands, has the vote of the second, and hears of it.
def trioElected : Run trio :=
  let stood := trioBegun.step (.own 0 5 (i := ⟨"a"⟩) rfl (.inl rfl))
  let asked := stood.step (.request 0 5 (i := ⟨"b"⟩)
    (l := ⟨⟨"a"⟩,⟨⟨"b"⟩,⟨"b",100⟩⟩,.vote ⟨.one,⟨"a"⟩⟩⟩) rfl (.head _) rfl)
  asked.step (.reply 0 5 rfl (.head _))

theorem one_leader_of_trio : Led (trioElected.now :: trioElected.past) ⟨"a"⟩ .one ∧
    ∀ j, Led (trioElected.now :: trioElected.past) j .one → ⟨"a"⟩ = j := by
  refine ⟨.now rfl ⟨rfl,rfl⟩,?_⟩
  rintro j ⟨b',moment',n',lives',same,leads'⟩
  exact one_leader_per_term (by decide) trioElected.course (.head _) moment' rfl lives' rfl leads' same.symm

end Assembly

variable {k : NodeId}

namespace System.Course

open Assembly

-- Heartbeats come from leaders of their term only.
theorem heartbeat_led (course : (system members).Course a past) (sent : l ∈ a.letters) (beat : l.request = .heartbeat h) :
    h.leader = l.sender ∧ Led (a :: past) l.sender h.term := by
  refine ⟨?_,?_⟩
  · have own := (course.letter sent).2.2
    rwa [beat] at own
  · induction course with
    | begun first =>
        rw [first.letters] at sent
        cases sent
    | step course step ih =>
        obtain ⟨i,n,d,does⟩ := step.does
        rcases does.letters l sent with old | ⟨now,draw,c,s,rfl,sends,rfl⟩
        · exact (ih old).later
        · obtain ⟨_,asks | beats⟩ := Node.apply_sends sends
          · cases asks.request.symm.trans beat
          · cases beats.request.symm.trans beat
            exact (Led.now does.lives ⟨rfl,beats.leads⟩).later

-- Whoever acts names itself as leader, or the leader it had, or one it has just heard from.
theorem acting_named (course : (system members).Course a past) (addresses : (members.map Member.address).Nodup)
    (does : Does a b i n d) (names : (n.does d).status.leader = some k)
    (before : n.status.leader = some k → Led (a :: past) k n.term ∧ (n.role ≠ .leader → k ≠ i)) :
    Led (b :: a :: past) k (n.does d).term ∧ ((n.does d).role ≠ .leader → k ≠ i) := by
  have permitted := does.permitted
  have own : (n.does d).me = i := by
    rw [Node.me,n.does_roster d]
    exact Roster.ofMembers_me (course.admitted does.lives).1
  by_cases leads : (n.does d).role = .leader
  · obtain ⟨beat,leading⟩ := Node.leader_exact.mp leads
    have mine : (n.does d).status.leader = some i := by simp [Node.status,Standing.leader,leading,own]
    cases Option.some.inj (mine.symm.trans names)
    exact ⟨.now does.self ⟨rfl,leads⟩,fun follows => absurd leads follows⟩
  · have busy : ∀ beat, (n.does d).standing.office ≠ .leader beat :=
      fun beat leading => leads (Node.leader_exact.mpr ⟨beat,leading⟩)
    have names : (n.does d).standing.leader (n.does d).me = some k := names
    cases n.does_shift d with
    | same term role leader _ =>
        have named : n.status.leader = some k := by
          refine leader.symm.trans ?_
          rw [← names,Node.me,Node.me,n.does_roster d]
        obtain ⟨led,other⟩ := before named
        exact ⟨term ▸ led.later,fun _ => other (role ▸ leads)⟩
    | followed office term =>
        rw [Standing.leader,office] at names
        obtain ⟨l,sent,beat,reached⟩ := permitted
        obtain ⟨leader,led⟩ := course.heartbeat_led sent beat
        cases (leader.symm.trans (Option.some.inj names))
        refine ⟨term ▸ led.later,fun _ same => ?_⟩
        exact (course.letter sent).2.1 ((course.receiver addresses does.lives sent reached).trans same.symm)
    | freed office => rw [Standing.leader,office] at names; cases names
    | stood office => rw [Standing.leader,office] at names; cases names
    | counted _ _ _ office => rw [Standing.leader,office] at names; cases names
    | sole office _ => exact absurd office (busy _)
    | elected _ _ _ office _ => exact absurd office (busy _)

-- Whom a node names has led the term the node is in, and is itself only if it leads.
theorem named_led (course : (system members).Course a past) (addresses : (members.map Member.address).Nodup)
    (lives : a.node i = some n) (names : n.status.leader = some k) :
    Led (a :: past) k n.term ∧ (n.role ≠ .leader → k ≠ i) := by
  induction course generalizing i n with
  | begun first =>
      obtain ⟨_,_,_,_,_,rfl⟩ := first.lived lives
      cases names
  | step course step ih =>
      obtain ⟨_,old,d,does⟩ := step.does
      rcases does.lived lives with ⟨rfl,rfl⟩ | before
      · exact course.acting_named addresses does names fun names => ih does.lives names
      · obtain ⟨led,other⟩ := ih before names
        exact ⟨led.later,other⟩

-- Nobody else leads a leader's term, so no heartbeat finds a rival.
theorem heartbeat_unrivalled (course : (system members).Course a past) (addresses : (members.map Member.address).Nodup)
    (lives : a.node i = some n) (sent : l ∈ a.letters) (beat : l.request = .heartbeat h)
    (reached : n.roster.address = l.peer.address) : (n.onHeartbeat now draw h).answer ≠ .error (.rival t) := by
  intro refused
  have own : Led (a :: past) i h.term := .now lives (Node.onHeartbeat_rivalled refused)
  have same := course.leader_unique addresses own (course.heartbeat_led sent beat).2
  exact (course.letter sent).2.1 ((course.receiver addresses lives sent reached).trans same)

end System.Course

namespace Assembly

theorem leaders_agree (addresses : (members.map Member.address).Nodup) (course : Course members a past) :
    (∀ b ∈ a :: past, ∀ i n k, b.node i = some n → n.status.leader = some k → Led (a :: past) k n.status.term) ∧
    (∀ b ∈ a :: past, ∀ b' ∈ a :: past, ∀ i j n n' k k', b.node i = some n → b'.node j = some n' →
      n.status.term = n'.status.term → n.status.leader = some k → n'.status.leader = some k' → k = k') ∧
    (∀ b ∈ a :: past, ∀ i n, b.node i = some n → n.status.role ≠ .leader → n.status.leader ≠ some i) ∧
    (∀ b ∈ a :: past, ∀ l ∈ b.letters, ∀ h, l.request = .heartbeat h → ∀ i n, b.node i = some n →
      n.roster.address = l.peer.address → ∀ now draw t, (n.onHeartbeat now draw h).answer ≠ .error (.rival t)) := by
  have led : ∀ b ∈ a :: past, ∀ i n k, b.node i = some n → n.status.leader = some k →
      Led (a :: past) k n.status.term := by
    intro b moment i n k lives names
    obtain ⟨before,course',within⟩ := course.moment moment
    obtain ⟨c,early,m,living,leads⟩ := (course'.named_led addresses lives names).1
    exact ⟨c,within c early,m,living,leads⟩
  refine ⟨led,?_,?_,?_⟩
  · intro b moment b' moment' i j n n' k k' lives lives' same names names'
    exact course.leader_unique addresses (led b moment i n k lives names)
      (same ▸ led b' moment' j n' k' lives' names')
  · intro b moment i n lives follows names
    obtain ⟨_,course',_⟩ := course.moment moment
    exact (course'.named_led addresses lives names).2 follows rfl
  · intro b moment l sent h beat i n lives reached now draw t
    obtain ⟨_,course',_⟩ := course.moment moment
    exact course'.heartbeat_unrivalled addresses lives sent beat reached

-- A heartbeat goes out, and the second member takes up the leader it has voted for.
def trioFollowed : Run trio :=
  let ticked := trioElected.step (.own 0 5 (i := ⟨"a"⟩) rfl (.inr (.inr ⟨.one,rfl⟩)))
  ticked.step (.request 0 5 (i := ⟨"b"⟩)
    (l := ⟨⟨"a"⟩,⟨⟨"b"⟩,⟨"b",100⟩⟩,.heartbeat ⟨.one,⟨"a"⟩⟩⟩) rfl (.head _) rfl)

theorem leaders_agree_of_trio : ∃ n, trioFollowed.now.node ⟨"b"⟩ = some n ∧ n.status.leader = some ⟨"a"⟩ ∧
    Led (trioFollowed.now :: trioFollowed.past) ⟨"a"⟩ n.status.term :=
  ⟨_,rfl,rfl,(leaders_agree (by decide) trioFollowed.course).1 _ (.head _) ⟨"b"⟩ _ _ rfl rfl⟩

end Assembly
end LeaderElection
