import LeaderElection.Proofs.Assembly.Leaders
import LeaderElection.Proofs.Node.Round
import LeaderElection.Proofs.Node.Run

namespace LeaderElection

namespace Node

variable {now draw : Nat} {n : Node} {t : Term} {c : NodeId}

-- Whose vote in term `t` the candidate has, and whose it has or can have for the asking.
def Pledged (t : Term) (c : NodeId) (n : Node) : Prop := n.ballot = ⟨t,some c⟩ ∧ n.role = .follower

def Willing (t : Term) (c : NodeId) (n : Node) : Prop := n.term < t ∨ n.Pledged t c

theorem Pledged.term (pledged : n.Pledged t c) : n.term = t := congrArg Ballot.term pledged.1

theorem Willing.reached (willing : n.Willing t c) : ¬ t < n.term := by
  rcases willing with earlier | pledged
  · exact Nat.lt_asymm earlier
  · rw [pledged.term]
    exact Term.lt_irrefl t

theorem Willing.met (now draw : Nat) (willing : n.Willing t c) : (n.met now draw t).role = .follower ∧
    ((n.met now draw t).ballot.vote = none ∨ (n.met now draw t).ballot.vote = some c) := by
  rcases willing with earlier | pledged
  · rw [met_later now draw earlier]
    exact ⟨rfl,.inl rfl⟩
  · rw [met_current now draw (by rw [pledged.term]; exact Term.lt_irrefl t),pledged.1]
    exact ⟨pledged.2,.inr rfl⟩

-- A peer with an earlier term gives its vote, and gives it again when it is asked again.
theorem Willing.gives (now draw : Nat) (willing : n.Willing t c) (known : n.roster.contains c = true) :
    (n.onVoteRequest now draw ⟨t,c⟩).answer = .ok ⟨true,t⟩ ∧ (n.onVoteRequest now draw ⟨t,c⟩).node.Pledged t c := by
  obtain ⟨follows,free⟩ := willing.met now draw
  have cast := Ballot.cast_exact.mpr ⟨(met_term now draw willing.reached).symm,free,rfl⟩
  rw [onVoteRequest_cast now draw (r := ⟨t,c⟩) known willing.reached cast]
  exact ⟨rfl,rfl,(Standing.defer_role ..).trans follows⟩

-- Whoever has voted for a candidate follows it at its first heartbeat.
theorem Pledged.heeds (now draw : Nat) (pledged : n.Pledged t c) (known : n.roster.contains c = true) :
    (n.onHeartbeat now draw ⟨t,c⟩).answer = .ok ⟨true,t⟩ ∧
      (n.onHeartbeat now draw ⟨t,c⟩).node.status = ⟨n.me,t,.follower,some c,some c⟩ := by
  have reached : ¬ t < n.term := Willing.reached (.inr pledged)
  have current : n.met now draw t = n := met_current now draw (by rw [pledged.term]; exact Term.lt_irrefl t)
  cases accepted : (n.met now draw t).accept now draw c with
  | none =>
      have leads := (accept_none now draw).mp accepted
      rw [current,pledged.2] at leads
      cases leads
  | some next =>
      obtain ⟨_,ballot,roster,⟨timer,standing⟩,_⟩ := accept_parts now draw accepted
      rw [current] at ballot roster standing
      rw [onHeartbeat_accepted now draw (h := ⟨t,c⟩) known reached accepted]
      have vote : next.ballot = ⟨t,some c⟩ := ballot.trans pledged.1
      refine ⟨?_,?_⟩
      · simp [Node.term,vote]
      · simp [status,Node.me,Node.term,role,roster,vote,standing,Standing.role,Standing.leader,Standing.defer]

theorem Coherent.status_leads (coherent : n.Coherent) (leads : n.Leads t) :
    n.status = ⟨n.me,t,.leader,some n.me,some n.me⟩ := by
  obtain ⟨term,vote⟩ := coherent.stands_shown ⟨leads.1,by rw [leads.2]; decide⟩
  have named := status_leader leads.2
  have role := leads.2
  simp only [status] at term vote named role ⊢
  rw [term,vote,named,role]

-- What the timer's task does is seen neither in the vote nor in the role.
theorem wake_kept (now draw : Nat) (n : Node) :
    (n.does (.wake now draw)).ballot = n.ballot ∧ (n.does (.wake now draw)).role = n.role := by
  obtain ⟨office,same,_,role,_⟩ := does_wake now draw n
  refine ⟨?_,role⟩
  rw [same]

theorem Pledged.wakes (pledged : n.Pledged t c) : (n.does (.wake now draw)).Pledged t c := by
  have kept := wake_kept now draw n
  exact ⟨kept.1.trans pledged.1,kept.2.trans pledged.2⟩

theorem Willing.wakes (willing : n.Willing t c) : (n.does (.wake now draw)).Willing t c := by
  refine willing.imp ?_ Pledged.wakes
  intro earlier
  rw [term,(wake_kept now draw n).1]
  exact earlier

end Node

namespace Assembly

-- The letter by which a candidate asks a peer for its vote, and what becomes of an answer to it.
def plea (i : NodeId) (t : Term) (peer : Member) : Letter NodeId := ⟨i,peer,.vote ⟨t,i⟩⟩

def plead (i : NodeId) (t : Term) (peer : NodeId) (reply : Reply) : Call :=
  (Request.vote ⟨t,i⟩).outcome peer (.ok reply)

-- The peers in `Q` are asked for their votes in term `t`, and the candidate `i` is told their answers.
-- Neither it nor they see to anything else, their timers' tasks apart. All others do as they please.
-- The candidate's own deeds are listed.
inductive Canvass (i : NodeId) (Q : Finset NodeId) (t : Term) (a : Assembly) : List Deed → Assembly → Prop where
  | begun : Canvass i Q t a [] a
  | asked (before : Canvass i Q t a deeds b) (now draw : Nat) (peer : Member) (lives : b.node q = some m) (chosen : q ∈ Q)
      (sent : plea i t peer ∈ b.letters) (reached : m.roster.address = peer.address) :
      Canvass i Q t a deeds {b.act q (m.apply now draw (.voteRequest ⟨t,i⟩)) with
        replies := ⟨plea i t peer,(m.apply now draw (.voteRequest ⟨t,i⟩)).answer.reply⟩ :: b.replies}
  | told (before : Canvass i Q t a deeds b) (now draw : Nat) (peer : Member) (lives : b.node i = some n)
      (chosen : peer.id ∈ Q) (given : ⟨plea i t peer,reply⟩ ∈ b.replies) :
      Canvass i Q t a (deeds ++ [.call now draw (plead i t peer.id reply)])
        (b.act i (n.apply now draw (plead i t peer.id reply)))
  | woken (before : Canvass i Q t a deeds b) (now draw : Nat) (lives : b.node i = some n)
      (woken : n.wake now draw = some (next,alarm)) : Canvass i Q t a (deeds ++ [.wake now draw]) (b.put i next)
  | elsewhere (before : Canvass i Q t a deeds b) (step : Step b c) (does : Does b c j m d) (other : j ≠ i)
      (idle : j ∉ Q ∨ ∃ now draw, d = .wake now draw) : Canvass i Q t a deeds c

-- How a canvass stands: the candidate has heard of nothing but answers of peers, all these answers
-- are votes for it, and no peer is lost to it.
structure Canvassed (members : List Member) (i : NodeId) (Q : Finset NodeId) (t : Term) (first : Node)
    (deeds : List Deed) (b : Assembly) : Prop where
  run : ∃ past, Course members b past
  own : b.node i = some (first.run deeds)
  steady : Node.Steady t first deeds
  heard : ∀ now draw q result, .call now draw (.voteReply q t result) ∈ deeds →
    ∃ peer reply, peer.id = q ∧ q ∈ Q ∧ ⟨plea i t peer,reply⟩ ∈ b.replies ∧ result = Delivery.asVote (.ok reply)
  given : ∀ peer reply, ⟨plea i t peer,reply⟩ ∈ b.replies → peer.id ∈ Q →
    reply = .vote ⟨true,t⟩ ∧ ∃ m, b.node peer.id = some m ∧ m.Pledged t i
  willing : ∀ q ∈ Q, ∃ m, b.node q = some m ∧ m.Willing t i

end Assembly

variable {members : List Member} {a b : Assembly} {past : List Assembly} {i q : NodeId} {t : Term} {Q : Finset NodeId}
  {deeds : List Deed}

namespace System.Course

open Assembly

theorem living (course : (system members).Course a past) (member : q ∈ members.map Member.id) : ∃ m, a.node q = some m := by
  induction course with
  | begun first =>
      obtain ⟨m,present,rfl⟩ := List.mem_map.mp member
      obtain ⟨_,_,_,_,_,lives⟩ := first.created m present
      exact ⟨_,lives⟩
  | step _ step ih =>
      obtain ⟨m,lives⟩ := ih
      obtain ⟨_,_,_,does⟩ := step.does
      obtain ⟨m',lives',_⟩ := does.onward lives
      exact ⟨m',lives'⟩

-- Nobody has sent anything for a term beyond its own, or been answered what it has not sent.
theorem letter_term (course : (system members).Course a past) (sent : l ∈ a.letters) :
    ∃ n, a.node l.sender = some n ∧ l.request.term ≤ n.term := by
  induction course with
  | begun first =>
      rw [first.letters] at sent
      cases sent
  | step course step ih =>
      obtain ⟨i,m,d,does⟩ := step.does
      rcases does.letters l sent with old | ⟨now,draw,c,s,rfl,sends,rfl⟩
      · obtain ⟨n,lives,reached⟩ := ih old
        obtain ⟨n',lives',onward⟩ := does.onward lives
        exact ⟨n',lives',Nat.le_trans reached onward.term_le⟩
      · refine ⟨_,does.self,?_⟩
        obtain ⟨_,asks | beats⟩ := Node.apply_sends sends
        · rw [asks.request]
          exact Term.le_refl _
        · rw [beats.request]
          exact (m.does_onward (.call now draw c)).term_le

theorem reply_letter (course : (system members).Course a past) (given : g ∈ a.replies) : g.letter ∈ a.letters := by
  induction course with
  | begun first =>
      rw [first.replies] at given
      cases given
  | step course step ih =>
      obtain ⟨_,_,_,does⟩ := step.does
      rcases does.replies g given with old | ⟨sent,_⟩
      · exact does.kept.1 _ (ih old)
      · exact does.kept.1 _ sent

end System.Course

namespace Assembly

theorem updated {P : Node → Prop} (lives : b.node j = some m) (keeps : P m → P m')
    (holds : ∃ m, b.node q = some m ∧ P m) : ∃ n, Function.update b.node j (some m') q = some n ∧ P n := by
  obtain ⟨n,present,holds⟩ := holds
  by_cases same : q = j
  · subst same
    cases Option.some.inj (present.symm.trans lives)
    exact ⟨m',Function.update_self ..,keeps holds⟩
  · exact ⟨n,(Function.update_of_ne same ..).trans present,holds⟩

namespace Canvassed

variable {first : Node}

theorem knows (canvassed : Canvassed members i Q t first deeds b) (lives : b.node q = some m) :
    m.roster.contains i = true := by
  obtain ⟨_,course⟩ := canvassed.run
  have self := Roster.ofMembers_self (course.admitted canvassed.own).1
  exact (Roster.ofMembers_contains (course.admitted lives).1 i).mpr (List.mem_map_of_mem self)

theorem asked (canvassed : Canvassed members i Q t first deeds b) (apart : i ∉ Q)
    (addresses : (members.map Member.address).Nodup) (lives : b.node q = some m) (chosen : q ∈ Q)
    (sent : plea i t peer ∈ b.letters) (reached : m.roster.address = peer.address) :
    Canvassed members i Q t first deeds {b.act q (m.apply now draw (.voteRequest ⟨t,i⟩)) with
      replies := ⟨plea i t peer,(m.apply now draw (.voteRequest ⟨t,i⟩)).answer.reply⟩ :: b.replies} := by
  obtain ⟨_,course⟩ := canvassed.run
  obtain ⟨m',lives',willing⟩ := canvassed.willing q chosen
  cases Option.some.inj (lives'.symm.trans lives)
  obtain ⟨answer,pledged⟩ := willing.gives now draw (canvassed.knows lives)
  have other : i ≠ q := fun same => apart (same ▸ chosen)
  refine ⟨⟨_,course.step (.request now draw lives sent reached)⟩,?_,canvassed.steady,?_,?_,?_⟩
  · exact (Function.update_of_ne other ..).trans canvassed.own
  · intro now' draw' q' result deed
    obtain ⟨peer',reply,same,member,given,said⟩ := canvassed.heard now' draw' q' result deed
    exact ⟨peer',reply,same,member,List.mem_cons_of_mem _ given,said⟩
  · intro peer' reply given member
    rcases List.mem_cons.mp given with new | old
    · cases new
      have receiver : peer.id = q := course.receiver addresses lives sent reached
      refine ⟨congrArg Reply.ofVote answer,_,?_,pledged⟩
      rw [receiver]
      exact Function.update_self ..
    · obtain ⟨said,holds⟩ := canvassed.given peer' reply old member
      exact ⟨said,updated lives (fun _ => pledged) holds⟩
  · intro q' member
    exact updated lives (fun _ => .inr pledged) (canvassed.willing q' member)

-- The candidate's own deeds: a vote comes in, or its timer's task goes round.
theorem deed (canvassed : Canvassed members i Q t first deeds b) (apart : i ∉ Q) (step : Step b c)
    (node : c.node = Function.update b.node i (some ((first.run deeds).does d))) (replies : c.replies = b.replies)
    (deaf : ¬ (first.run deeds).Heeds t d) (term : ((first.run deeds).does d).term = t)
    (heard : ∀ now draw q result, d = .call now draw (.voteReply q t result) →
      ∃ peer reply, peer.id = q ∧ q ∈ Q ∧ ⟨plea i t peer,reply⟩ ∈ b.replies ∧ result = Delivery.asVote (.ok reply)) :
    Canvassed members i Q t first (deeds ++ [d]) c := by
  obtain ⟨_,course⟩ := canvassed.run
  have others : ∀ q ∈ Q, c.node q = b.node q := by
    intro q member
    rw [node]
    exact Function.update_of_ne (fun same : q = i => apart (same ▸ member)) ..
  refine ⟨⟨_,course.step step⟩,?_,Node.steady_snoc.mpr ⟨canvassed.steady,deaf,term⟩,?_,?_,?_⟩
  · rw [node,Node.run_append]
    exact Function.update_self ..
  · intro now draw q result said
    rw [replies]
    rcases List.mem_append.mp said with old | new
    · exact canvassed.heard now draw q result old
    · exact heard now draw q result (List.mem_singleton.mp new).symm
  · intro peer reply given member
    rw [replies] at given
    rw [others peer.id member]
    exact canvassed.given peer reply given member
  · intro q member
    rw [others q member]
    exact canvassed.willing q member

theorem told (canvassed : Canvassed members i Q t first deeds b) (apart : i ∉ Q) (lives : b.node i = some n)
    (chosen : peer.id ∈ Q) (given : ⟨plea i t peer,reply⟩ ∈ b.replies) :
    Canvassed members i Q t first (deeds ++ [.call now draw (plead i t peer.id reply)])
      (b.act i (n.apply now draw (plead i t peer.id reply))) := by
  cases Option.some.inj (lives.symm.trans canvassed.own)
  have term : (first.run deeds).term = t := Node.steady_term canvassed.steady
  refine canvassed.deed apart (.reply now draw (g := ⟨plea i t peer,reply⟩) lives given) rfl rfl id ?_ ?_
  · have vote := (canvassed.given peer reply given chosen).1
    subst vote
    refine (Node.onVoteReply_term peer.id t).trans ?_
    rw [Node.met_current now draw (by rw [term]; exact Term.lt_irrefl t)]
    exact term
  · intro now' draw' q result same
    cases same
    exact ⟨peer,reply,rfl,chosen,given,rfl⟩

theorem woken (canvassed : Canvassed members i Q t first deeds b) (apart : i ∉ Q) (lives : b.node i = some n)
    (woken : n.wake now draw = some (next,alarm)) :
    Canvassed members i Q t first (deeds ++ [.wake now draw]) (b.put i next) := by
  cases Option.some.inj (lives.symm.trans canvassed.own)
  have after : (first.run deeds).does (.wake now draw) = next := by simp [Node.does,woken]
  refine canvassed.deed apart (.wake now draw lives woken) (by rw [after]; rfl) rfl id ?_ (by simp)
  rw [Node.term,(Node.wake_kept now draw _).1]
  exact Node.steady_term canvassed.steady

theorem elsewhere (canvassed : Canvassed members i Q t first deeds b)
    (addresses : (members.map Member.address).Nodup) (step : Step b c) (does : Does b c j m d) (other : j ≠ i)
    (idle : j ∉ Q ∨ ∃ now draw, d = .wake now draw) : Canvassed members i Q t first deeds c := by
  obtain ⟨_,course⟩ := canvassed.run
  have keeps : ∀ q ∈ Q, ∀ P : Node → Prop, (∀ now draw n, P n → P (Node.does (.wake now draw) n)) →
      (∃ m, b.node q = some m ∧ P m) → ∃ m, c.node q = some m ∧ P m := by
    intro q member P wakes holds
    rw [does.node]
    rcases idle with beyond | ⟨now,draw,rfl⟩
    · obtain ⟨n,living,holds⟩ := holds
      exact ⟨n,(Function.update_of_ne (fun same : q = j => beyond (same ▸ member)) ..).trans living,holds⟩
    · exact updated does.lives (wakes now draw m) holds
  refine ⟨⟨_,course.step step⟩,?_,canvassed.steady,?_,?_,?_⟩
  · rw [does.other other.symm]
    exact canvassed.own
  · intro now draw q result deed
    obtain ⟨peer,reply,same,member,given,said⟩ := canvassed.heard now draw q result deed
    exact ⟨peer,reply,same,member,does.kept.2 _ given,said⟩
  · intro peer reply given member
    rcases does.replies _ given with old | ⟨sent,reached,now,draw,called,_⟩
    · obtain ⟨said,holds⟩ := canvassed.given peer reply old member
      exact ⟨said,keeps peer.id member _ (fun _ _ _ => Node.Pledged.wakes) holds⟩
    · rcases idle with beyond | ⟨_,_,wakes⟩
      · have receiver : peer.id = j := course.receiver addresses does.lives sent reached
        exact absurd (receiver ▸ member) beyond
      · cases called.symm.trans wakes
  · intro q member
    exact keeps q member _ (fun _ _ _ => Node.Willing.wakes) (canvassed.willing q member)

end Canvassed

theorem Canvass.canvassed (canvass : Canvass i Q t a deeds b) (apart : i ∉ Q)
    (addresses : (members.map Member.address).Nodup) (begun : Canvassed members i Q t first [] a) :
    Canvassed members i Q t first deeds b := by
  induction canvass with
  | begun => exact begun
  | asked _ now draw peer lives chosen sent reached ih => exact ih.asked apart addresses lives chosen sent reached
  | told _ now draw peer lives chosen given ih => exact ih.told apart lives chosen given
  | woken _ now draw lives woken ih => exact ih.woken apart lives woken
  | elsewhere _ step does other idle ih => exact ih.elsewhere addresses step does other idle

end Assembly

open Assembly in
-- A canvass begins with nobody asked: what was sent before was for earlier terms.
theorem System.Course.canvassed (course : (system members).Course a past) (lives : a.node i = some n)
    (own : c = .candidacy ∨ c = .timeout) (begins : n.Begins t (.call now draw c)) (apart : i ∉ Q)
    (peers : ∀ q ∈ Q, ∃ m, a.node q = some m ∧ m.term < t) :
    Canvassed members i Q t (n.apply now draw c).node [] (a.act i (n.apply now draw c)) := by
  have later : n.term < t := Term.lt_next begins.2
  refine ⟨⟨_,course.step (.own now draw lives (own.imp_right .inl))⟩,Function.update_self ..,
    ?_,nofun,?_,?_⟩
  · rcases begins.parts with ⟨_,_,_,after⟩ | ⟨_,_,_,after⟩ <;> exact congrArg Node.term after
  · intro peer reply given _
    obtain ⟨m,living,reached⟩ := course.letter_term (course.reply_letter given)
    cases Option.some.inj (living.symm.trans lives)
    exact absurd reached (Nat.not_le_of_lt later)
  · intro q member
    obtain ⟨m,living,earlier⟩ := peers q member
    exact ⟨m,(Function.update_of_ne (fun same : q = i => apart (same ▸ member)) ..).trans living,.inl earlier⟩

namespace Assembly

-- Once all of `Q` are heard, their votes and the own one are a majority.
theorem Canvassed.wins {n : Node} (canvassed : Canvassed members i Q t (n.apply now draw c).node deeds b)
    (begins : n.Begins t (.call now draw c)) (coherent : n.Coherent) (own : n.me = i) (apart : i ∉ Q)
    (answered : ∀ q ∈ Q, ∃ now draw result, .call now draw (.voteReply q t result) ∈ deeds)
    (enough : n.roster.size/2 ≤ Q.card) : ((n.apply now draw c).node.run deeds).Leads t := by
  refine (begins.leads_exact coherent canvassed.steady).mpr (enough.trans (Finset.card_le_card ?_))
  intro q member
  obtain ⟨now,draw,result,told⟩ := answered q member
  obtain ⟨peer,reply,same,_,given,said⟩ := canvassed.heard now draw q result told
  have vote := (canvassed.given peer reply given (same ▸ member)).1
  subst vote said
  have other : q ≠ n.me := fun same => apart (own ▸ same ▸ member)
  refine List.mem_toFinset.mpr (List.mem_filterMap.mpr ⟨_,told,?_⟩)
  exact Node.backer_exact.mpr ⟨now,draw,⟨true,t⟩,rfl,rfl,Term.lt_irrefl t,other⟩

theorem Canvassed.pledged (canvassed : Canvassed members i Q t first deeds b) (member : q ∈ Q)
    (told : .call now draw (.voteReply q t result) ∈ deeds) : ∃ m, b.node q = some m ∧ m.Pledged t i := by
  obtain ⟨peer,reply,rfl,_,given,_⟩ := canvassed.heard now draw q result told
  exact (canvassed.given peer reply given member).2

-- A candidacy anywhere in a run, followed by a canvass of enough peers that were behind its term.
theorem uncontested_wins (addresses : (members.map Member.address).Nodup) (course : Course members a past)
    (lives : a.node i = some n) (own : c = .candidacy ∨ c = .timeout) (begins : n.Begins t (.call now draw c))
    (peers : ∀ q ∈ Q, q ∈ members.map Member.id ∧ q ≠ i)
    (earlier : ∀ q ∈ Q, ∀ m, a.node q = some m → m.status.term < t) (enough : members.length/2 ≤ Q.card)
    (canvass : Canvass i Q t (a.act i (n.apply now draw c)) deeds b)
    (answered : ∀ q ∈ Q, ∃ now draw result, .call now draw (.voteReply q t result) ∈ deeds) :
    (∀ peer reply, ⟨plea i t peer,reply⟩ ∈ b.replies → peer.id ∈ Q → reply = .vote ⟨true,t⟩) ∧
    (∃ n, b.node i = some n ∧ n.status = ⟨i,t,.leader,some i,some i⟩) ∧
    (∀ q ∈ Q, ∃ m, b.node q = some m ∧ ∀ now draw,
      Reply.ofHeartbeat (m.onHeartbeat now draw ⟨t,i⟩).answer = .heartbeat ⟨true,t⟩ ∧
      (m.onHeartbeat now draw ⟨t,i⟩).node.status = ⟨q,t,.follower,some i,some i⟩) := by
  have apart : i ∉ Q := fun member => (peers i member).2 rfl
  obtain ⟨accepted,coherent⟩ := course.admitted lives
  have me : n.me = i := Roster.ofMembers_me accepted
  have behind : ∀ q ∈ Q, ∃ m, a.node q = some m ∧ m.term < t := by
    intro q member
    obtain ⟨m,living⟩ := course.living (peers q member).1
    exact ⟨m,living,earlier q member m living⟩
  have canvassed := canvass.canvassed apart addresses (course.canvassed lives own begins apart behind)
  refine ⟨fun peer reply given member => (canvassed.given peer reply given member).1,?_,?_⟩
  · have size : members.length = n.roster.size := (Roster.ofMembers_size accepted).symm
    have leads := canvassed.wins begins coherent me apart answered (size ▸ enough)
    obtain ⟨_,course'⟩ := canvassed.run
    obtain ⟨accepted',coherent'⟩ := course'.admitted canvassed.own
    refine ⟨_,canvassed.own,?_⟩
    rw [coherent'.status_leads leads,show Node.me _ = i from Roster.ofMembers_me accepted']
  · intro q member
    obtain ⟨now,draw,result,told⟩ := answered q member
    obtain ⟨m,living,pledged⟩ := canvassed.pledged member told
    obtain ⟨_,course'⟩ := canvassed.run
    have me' : m.me = q := Roster.ofMembers_me (course'.admitted living).1
    refine ⟨m,living,fun now draw => ?_⟩
    obtain ⟨answer,status⟩ := pledged.heeds now draw (canvassed.knows living)
    exact ⟨congrArg Reply.ofHeartbeat answer,me' ▸ status⟩

-- The first two of three have stood for the first term. The first one stands again, and the second,
-- a candidate still, is asked for its vote.
def trioRivals : Run trio :=
  (trioBegun.step (.own 0 5 (i := ⟨"b"⟩) rfl (.inl rfl))).step (.own 0 5 (i := ⟨"a"⟩) rfl (.inl rfl))

theorem rival_gives_way : ∃ n m deeds b, trioRivals.now.node ⟨"a"⟩ = some n ∧ trioRivals.now.node ⟨"b"⟩ = some m ∧
    m.status = ⟨⟨"b"⟩,.one,.candidate,some ⟨"b"⟩,none⟩ ∧
    Canvass ⟨"a"⟩ {⟨"b"⟩} ⟨2,by decide⟩ (trioRivals.now.act ⟨"a"⟩ (n.apply 5 5 .candidacy)) deeds b ∧
    (∃ n, b.node ⟨"a"⟩ = some n ∧ n.status = ⟨⟨"a"⟩,⟨2,by decide⟩,.leader,some ⟨"a"⟩,some ⟨"a"⟩⟩) := by
  let b : Member := ⟨⟨"b"⟩,⟨"b",100⟩⟩
  refine ⟨_,_,_,_,rfl,rfl,rfl,.told (.asked .begun 6 5 b (q := b.id) rfl (by decide) (.head _) rfl) 7 5 b rfl
    (by decide) (.head _),?_⟩
  refine (uncontested_wins (Q := {b.id}) (by decide) trioRivals.course rfl (.inl rfl) ⟨True.intro,rfl⟩ ?_ ?_ (by decide)
    (.told (.asked .begun 6 5 b (q := b.id) rfl (by decide) (.head _) rfl) 7 5 b rfl (by decide) (.head _)) ?_).2.1
  · decide
  · intro q member m lives
    cases Finset.mem_singleton.mp member
    cases lives
    decide
  · intro q member
    cases Finset.mem_singleton.mp member
    exact ⟨7,5,_,.head _⟩

end Assembly
end LeaderElection
