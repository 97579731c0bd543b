import LeaderElection.Proofs.Company
import LeaderElection.Proofs.Node.Run
import LeaderElection.Proofs.Node.Sends
import LeaderElection.Proofs.Roster

namespace LeaderElection

structure Given where
  letter : Letter NodeId
  reply : Reply

-- The nodes of one cluster with all they have ever said. What has been sent or answered stays,
-- so it may arrive late, out of turn, several times, or never.
structure Assembly extends Company NodeId (Letter NodeId) where
  replies : List Given

namespace Assembly

-- One node per member, each created with the same list of members, and nothing said so far.
structure Begun (members : List Member) (a : Assembly) : Prop where
  created : ∀ m ∈ members, ∃ roster timings now draw, Roster.ofMembers m.id members = .ok roster ∧
    a.node m.id = some (.create now draw roster timings)
  nobody : ∀ i, i ∉ members.map Member.id → a.node i = none
  letters : a.letters = []
  replies : a.replies = []

def create (now draw : Nat) (timings : Timings) (members : List Member) : Assembly :=
  ⟨⟨fun i => (Roster.ofMembers i members).toOption.map fun roster => .create now draw roster timings,[]⟩,[]⟩

theorem create_begun (distinct : (members.map Member.id).Nodup) :
    (create now draw timings members).Begun members := by
  refine ⟨?_,?_,rfl,rfl⟩
  · intro m present
    obtain ⟨roster,accepted⟩ := Roster.ofMembers_accepts distinct present
    refine ⟨roster,timings,now,draw,accepted,?_⟩
    simp only [create,accepted]
    rfl
  · intro i stranger
    cases result : Roster.ofMembers i members with
    | error e => simp only [create,result]; rfl
    | ok roster => exact absurd (List.mem_map_of_mem (Roster.ofMembers_self result)) stranger

def put (i : NodeId) (n : Node) (a : Assembly) : Assembly := {a with toCompany := a.toCompany.put i n}

def act (i : NodeId) (s : Step Answer) (a : Assembly) : Assembly := {a with toCompany := a.toCompany.act id i s}

-- One thing that happens to one node, at any time: it acts of its own accord or its timer's task
-- does, a request reaches the address it was sent to, or its sender learns of a reply that was
-- given to it, or of any failure.
inductive Step : Assembly → Assembly → Prop where
  | own (now draw : Nat) (lives : a.node i = some n) (own : c = .candidacy ∨ c = .timeout ∨ ∃ t, c = .tick t) :
      Step a (a.act i (n.apply now draw c))
  | wake (now draw : Nat) (lives : a.node i = some n) (woken : n.wake now draw = some (next,alarm)) :
      Step a (a.put i next)
  | request (now draw : Nat) (lives : a.node i = some n) (sent : l ∈ a.letters)
      (reached : n.roster.address = l.peer.address) :
      Step a {a.act i (n.apply now draw l.request.call) with
        replies := ⟨l,(n.apply now draw l.request.call).answer.reply⟩ :: a.replies}
  | reply (now draw : Nat) (lives : a.node g.letter.sender = some n) (given : g ∈ a.replies) :
      Step a (a.act g.letter.sender
        (n.apply now draw (g.letter.request.outcome g.letter.peer.id (.ok g.reply))))
  | failure (now draw : Nat) (lives : a.node i = some n) :
      Step a (a.act i (n.apply now draw (Request.outcome peer (.error e) request)))

abbrev system (members : List Member) : System Assembly := ⟨Begun members,Step⟩

abbrev Course (members : List Member) : Assembly → List Assembly → Prop := (system members).Course

abbrev Run (members : List Member) : Type := (system members).Run

-- What brings a deed about. No call comes out of nowhere, failures apart.
def Permits (a : Assembly) (i : NodeId) (n : Node) : Deed → Prop
  | .call _ _ (.voteRequest r) => ∃ l ∈ a.letters, l.request = .vote r ∧ n.roster.address = l.peer.address
  | .call _ _ (.heartbeat h) => ∃ l ∈ a.letters, l.request = .heartbeat h ∧ n.roster.address = l.peer.address
  | .call _ _ (.voteReply peer t (.ok reply)) => ∃ g ∈ a.replies, g.letter.sender = i ∧ g.letter.peer.id = peer ∧
      ∃ r, g.letter.request = .vote r ∧ r.term = t ∧ g.reply = .vote reply
  | .call _ _ (.heartbeatReply peer t (.ok reply)) => ∃ g ∈ a.replies, g.letter.sender = i ∧
      g.letter.peer.id = peer ∧ ∃ h, g.letter.request = .heartbeat h ∧ h.term = t ∧ g.reply = .heartbeat reply
  | .call _ _ (.term _) => False
  | _ => True

-- All that one step does: a permitted deed of one node, the requests that node sends, and where it
-- was asked, its reply.
structure Does (a b : Assembly) (i : NodeId) (n : Node) (d : Deed) : Prop where
  lives : a.node i = some n
  node : b.node = Function.update a.node i (some (n.does d))
  permitted : a.Permits i n d
  letters : ∀ l ∈ b.letters, l ∈ a.letters ∨ ∃ now draw c s, d = .call now draw c ∧
    s ∈ (n.apply now draw c).sends ∧ l = ⟨i,s.peer,s.request⟩
  replies : ∀ g ∈ b.replies, g ∈ a.replies ∨ g.letter ∈ a.letters ∧ n.roster.address = g.letter.peer.address ∧
    ∃ now draw, d = .call now draw g.letter.request.call ∧
      g.reply = (n.apply now draw g.letter.request.call).answer.reply
  kept : (∀ l ∈ a.letters, l ∈ b.letters) ∧ ∀ g ∈ a.replies, g ∈ b.replies

theorem act_letters (present : l ∈ (act i (Node.apply now draw n c) a).letters) :
    l ∈ a.letters ∨ ∃ now' draw' c' s, Deed.call now draw c = .call now' draw' c' ∧
      s ∈ (n.apply now' draw' c').sends ∧ l = ⟨i,s.peer,s.request⟩ := by
  rcases Company.act_letters present with ⟨s,sent,same⟩ | old
  · exact .inr ⟨now,draw,c,s,rfl,sent,same⟩
  · exact .inl old

theorem act_does (lives : a.node i = some n) (permitted : a.Permits i n (.call now draw c)) :
    Does a (a.act i (n.apply now draw c)) i n (.call now draw c) :=
  ⟨lives,rfl,permitted,fun _ => act_letters,fun _ => .inl,a.toCompany.act_kept,fun _ => id⟩

theorem Step.does (step : Step a b) : ∃ i n d, Does a b i n d := by
  cases step with
  | own now draw lives own =>
      refine ⟨_,_,_,act_does lives ?_⟩
      rcases own with rfl | rfl | ⟨t,rfl⟩ <;> exact True.intro
  | wake now draw lives woken =>
      refine ⟨_,_,.wake now draw,lives,?_,True.intro,fun _ => .inl,fun _ => .inl,fun _ => id,fun _ => id⟩
      simp only [Node.does,woken,Option.map_some,Option.getD_some]
      rfl
  | @request n l _ i now draw lives sent reached =>
      refine ⟨i,n,.call now draw l.request.call,lives,rfl,?_,fun _ => act_letters,?_,a.toCompany.act_kept,?_⟩
      · cases kind : l.request <;> exact ⟨l,sent,kind,reached⟩
      · intro g present
        rcases List.mem_cons.mp present with rfl | old
        · exact .inr ⟨sent,reached,now,draw,rfl,rfl⟩
        · exact .inl old
      · exact fun g old => List.mem_cons_of_mem _ old
  | @reply n g _ now draw lives given =>
      refine ⟨_,n,_,act_does lives ?_⟩
      cases kind : g.letter.request with
      | vote r =>
          cases said : g.reply with
          | vote reply => exact ⟨g,given,rfl,rfl,r,kind,rfl,said⟩
          | heartbeat reply => exact True.intro
          | error message => exact True.intro
      | heartbeat h =>
          cases said : g.reply with
          | vote reply => exact True.intro
          | heartbeat reply => exact ⟨g,given,rfl,rfl,h,kind,rfl,said⟩
          | error message => exact True.intro
  | @failure _ _ _ _ _ request now draw lives =>
      refine ⟨_,_,_,act_does lives ?_⟩
      cases request <;> exact True.intro

end Assembly
end LeaderElection
