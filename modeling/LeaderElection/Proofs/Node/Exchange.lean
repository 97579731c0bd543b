import LeaderElection.Proofs.Mailbox
import LeaderElection.Proofs.Node.Deadline
import LeaderElection.Proofs.Node.Run
import LeaderElection.Proofs.Node.Sends

namespace LeaderElection

-- The term a reply tells of. An error tells of none.
def Reply.told : Reply → Option Term
  | .vote r => some r.term
  | .heartbeat r => some r.term
  | .error _ => none

-- A reply of the kind its request asks for.
def Reply.Suits : Request → Reply → Prop
  | .vote _,.vote _ => True
  | .heartbeat _,.heartbeat _ => True
  | _,_ => False

namespace Node

-- A request a node makes in its present office.
def Speaks (n : Node) : Request → Prop
  | .vote r => r = ⟨n.term,n.me⟩ ∧ n.role = .candidate
  | .heartbeat h => h = ⟨n.term,n.me⟩ ∧ n.role = .leader

variable {now draw : Nat} {n : Node} {q : Request} {t : Term}

-- Granted or not, accepted or not, the answer tells the term the receiver is in after it.
theorem onVoteRequest_told (n : Node) (r : VoteRequest) :
    (Reply.ofVote (n.onVoteRequest now draw r).answer).told = some (n.onVoteRequest now draw r).node.term := by
  cases known : n.roster.contains r.candidate with
  | false => rw [onVoteRequest_stranger now draw known]; rfl
  | true =>
      by_cases stale : r.term < n.term
      · rw [onVoteRequest_stale now draw known stale]; rfl
      · cases cast : (n.met now draw r.term).ballot.cast r.term r.candidate with
        | some b => rw [onVoteRequest_cast now draw known stale cast]; rfl
        | none =>
            rw [onVoteRequest_taken now draw known stale cast]
            exact congrArg some (met_term now draw stale).symm

theorem onHeartbeat_told (n : Node) (h : Heartbeat) :
    (Reply.ofHeartbeat (n.onHeartbeat now draw h).answer).told = some (n.onHeartbeat now draw h).node.term := by
  cases known : n.roster.contains h.leader with
  | false => rw [onHeartbeat_stranger now draw known]; rfl
  | true =>
      by_cases stale : h.term < n.term
      · rw [onHeartbeat_stale now draw known stale]; rfl
      · cases accepted : (n.met now draw h.term).accept now draw h.leader with
        | some next => rw [onHeartbeat_accepted now draw known stale accepted]; rfl
        | none =>
            rw [onHeartbeat_rival now draw known stale accepted]
            exact congrArg some (met_term now draw stale).symm

theorem answer_told (now draw : Nat) (n : Node) (q : Request) :
    (n.apply now draw q.call).answer.reply.told = some (n.apply now draw q.call).node.term := by
  cases q with
  | vote r => exact onVoteRequest_told n r
  | heartbeat h => exact onHeartbeat_told n h

theorem answer_suits (now draw : Nat) (n : Node) (q : Request) :
    (n.apply now draw q.call).answer.reply.Suits q := by
  cases q with
  | vote r =>
      change (Reply.ofVote (n.onVoteRequest now draw r).answer).Suits _
      cases (n.onVoteRequest now draw r).answer <;> trivial
  | heartbeat h =>
      change (Reply.ofHeartbeat (n.onHeartbeat now draw h).answer).Suits _
      cases (n.onHeartbeat now draw h).answer <;> trivial

theorem Speaks.parts (speaks : n.Speaks q) : q.term = n.term ∧ q.sender = n.me := by
  cases q with
  | vote r =>
      obtain ⟨rfl,_⟩ := speaks
      exact ⟨rfl,rfl⟩
  | heartbeat h =>
      obtain ⟨rfl,_⟩ := speaks
      exact ⟨rfl,rfl⟩

theorem sends_speak {d : Dispatch} (sent : d ∈ (n.apply now draw c).sends) : (n.apply now draw c).node.Speaks d.request := by
  have own : (n.apply now draw c).node.me = n.me := congrArg Roster.me (apply_change now draw n c).roster
  obtain ⟨_,asks | beats⟩ := apply_sends sent
  · rw [asks.request]
    exact ⟨by rw [own],asks.running⟩
  · rw [beats.request,beats.same]
    exact ⟨rfl,beats.leads⟩

-- A member is asked in some term and ends where meeting that term ends.
theorem answer_term (known : n.roster.contains q.sender = true) :
    (n.apply now draw q.call).node.term = (n.met now draw q.term).term := by
  cases q with
  | vote r => exact onVoteRequest_term known
  | heartbeat h => exact onHeartbeat_term known

theorem answer_stale (known : n.roster.contains q.sender = true) (stale : q.term < n.term) :
    (n.apply now draw q.call).node = n := by
  cases q with
  | vote r => exact congrArg Step.node (onVoteRequest_stale now draw known stale)
  | heartbeat h => exact congrArg Step.node (onHeartbeat_stale now draw known stale)

-- Of any answer its sender hears the term, and of a later one nothing else.
theorem outcome_term (suits : reply.Suits q) (told : reply.told = some t) (peer : NodeId) :
    (n.apply now draw (q.outcome peer (.ok reply))).node.term = (n.met now draw t).term := by
  cases q with
  | vote r =>
      cases reply with
      | vote reply => cases told; exact onVoteReply_term peer r.term
      | _ => exact suits.elim
  | heartbeat h =>
      cases reply with
      | heartbeat reply => cases told; exact congrArg term (onHeartbeatReply_node peer h.term)
      | _ => exact suits.elim

theorem outcome_later (suits : reply.Suits q) (told : reply.told = some t) (later : n.term < t) (peer : NodeId) :
    (n.apply now draw (q.outcome peer (.ok reply))).node = n.met now draw t := by
  cases q with
  | vote r =>
      cases reply with
      | vote reply => cases told; exact congrArg Step.node (onVoteReply_later now draw peer r.term later)
      | _ => exact suits.elim
  | heartbeat h =>
      cases reply with
      | heartbeat reply => cases told; exact onHeartbeatReply_node peer h.term
      | _ => exact suits.elim

variable {members : List Member} {i j : NodeId} {roster roster' : Roster}

-- One member's request to another, the answer to it, and what its sender makes of the answer.
theorem exchange_levels (sender : Roster.ofMembers i members = .ok roster)
    (receiver : Roster.ofMembers j members = .ok roster') (timings timings' : Timings)
    (start first start' first' : Nat) (deeds deeds' : List Deed) :
    let s := (create start first roster timings).run deeds
    let r := (create start' first' roster' timings').run deeds'
    (∀ now draw c, ∀ d ∈ (s.apply now draw c).sends, (s.apply now draw c).node.Speaks d.request) ∧
    ∀ q, s.Speaks q → ∀ (now draw asker now' draw' sent timeout : Nat) (rest rest' : List (Event Nat)) (held held' : Bool),
      let asked := Mailbox.handle now draw r (q.event asker) rest held
      ∃ r' receipt, asked.mailbox = ⟨.running r',rest,held⟩ ∧ asked.receipts = [(asker,receipt)] ∧
        receipt.reply.Suits q ∧ receipt.reply.told = some r'.status.term ∧
        let told := Mailbox.handle now' draw' s ((Exchange.start sent timeout q).report j (.ok receipt.reply)) rest' held'
        ∃ s', told.mailbox = ⟨.running s',rest',held'⟩ ∧
          r'.status.term.number = max s.status.term.number r.status.term.number ∧
          s'.status.term.number = max s.status.term.number r.status.term.number ∧
          (s.status.term < r.status.term → s'.status = ⟨i,r.status.term,.follower,none,none⟩ ∧
            r'.status = r.status ∧ r'.deadline? = r.deadline?) := by
  intro s r
  refine ⟨fun now draw c d sent => sends_speak sent,?_⟩
  intro q speaks now draw asker now' draw' sent timeout rest rest' held held' asked
  obtain ⟨term,own⟩ := speaks.parts
  have same : s.roster = roster := run_roster deeds _
  have me : s.me = i := (congrArg Roster.me same).trans (Roster.ofMembers_me sender)
  have known : r.roster.contains q.sender = true := by
    rw [own,me,show r.roster = roster' from run_roster deeds' _]
    exact (Roster.ofMembers_contains receiver i).mpr (List.mem_map_of_mem (Roster.ofMembers_self sender))
  obtain ⟨mailbox,receipt,receipts,reply⟩ := Mailbox.handle_request now draw r q asker rest held
  have suits := answer_suits now draw r q
  have told := answer_told now draw r q
  have level : (r.apply now draw q.call).node.term.number = max s.term.number r.term.number := by
    rw [answer_term known,met_number,term]
    exact Nat.max_comm ..
  refine ⟨_,receipt,mailbox,receipts,reply ▸ suits,reply ▸ told,_,Mailbox.handle_report .., level, ?_, ?_⟩
  · rw [reply]
    change (s.apply now' draw' (q.outcome j _)).node.term.number = _
    rw [outcome_term suits told,met_number,level]
    exact Nat.max_eq_right (Nat.le_max_left ..)
  · intro behind
    have behind : s.term < r.term := behind
    have stays : (r.apply now draw q.call).node = r := answer_stale known (term ▸ behind)
    rw [reply,stays]
    rw [stays] at told
    refine ⟨?_,rfl,rfl⟩
    change (s.apply now' draw' (q.outcome j _)).node.status = _
    rw [outcome_later suits told behind,met_later now' draw' behind,← me]
    rfl

-- A candidate of the first term asks a member that has stood twice meanwhile.
theorem candidate_learns_later_term :
    let s := (create 0 5 ⟨⟨"a"⟩,⟨"a",100⟩,trio.tail⟩ ⟨1,⟨5,10⟩,1⟩).run [.call 5 5 .timeout]
    let r := (create 0 5 ⟨⟨"b"⟩,⟨"b",100⟩,[⟨⟨"a"⟩,⟨"a",100⟩⟩,⟨⟨"c"⟩,⟨"c",100⟩⟩]⟩ ⟨1,⟨5,10⟩,1⟩).run
      [.call 5 5 .timeout,.call 6 5 .candidacy]
    let q : Request := .vote ⟨.one,⟨"a"⟩⟩
    s.status = ⟨⟨"a"⟩,.one,.candidate,some ⟨"a"⟩,none⟩ ∧
    ∃ receipt s', (Mailbox.handle 7 5 r (q.event 0) [] true).receipts = [(0,receipt)] ∧
      (Mailbox.handle 8 5 s ((Exchange.start 5 1 q).report ⟨"b"⟩ (.ok receipt.reply)) ([] : List (Event Nat)) true).mailbox =
        ⟨.running s',[],true⟩ ∧ s'.status = ⟨⟨"a"⟩,⟨2,by decide⟩,.follower,none,none⟩ := by
  intro s r q
  have sender : Roster.ofMembers ⟨"a"⟩ trio = .ok ⟨⟨"a"⟩,⟨"a",100⟩,trio.tail⟩ := rfl
  have receiver : Roster.ofMembers ⟨"b"⟩ trio = .ok ⟨⟨"b"⟩,⟨"b",100⟩,[⟨⟨"a"⟩,⟨"a",100⟩⟩,⟨⟨"c"⟩,⟨"c",100⟩⟩]⟩ := rfl
  have speaks : s.Speaks q := ⟨rfl,rfl⟩
  obtain ⟨_,receipt,_,receipts,_,_,s',hears,_,_,stale⟩ := (exchange_levels sender receiver ⟨1,⟨5,10⟩,1⟩ ⟨1,⟨5,10⟩,1⟩
    0 5 0 5 [.call 5 5 .timeout] [.call 5 5 .timeout,.call 6 5 .candidacy]).2 q speaks 7 5 0 8 5 5 1 [] [] true true
  exact ⟨rfl,receipt,s',receipts,hears,(stale (by decide)).1⟩

end Node
end LeaderElection
