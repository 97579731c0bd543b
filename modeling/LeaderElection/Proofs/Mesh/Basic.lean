import LeaderElection.Network
import LeaderElection.Proofs.Company
import LeaderElection.Proofs.Node.Exchange

namespace LeaderElection

-- A request of one life of a member, on its way from that member's address.
structure Trip extends Letter Nat where
  origin : Address

-- How far it has come: it is not on the network yet, in the hands of whoever serves the peer's address,
-- answered there, or at its end for its sender.
inductive Stage where
  | asked
  | admitted (receiver : Nat)
  | answered (reply : Reply)
  | ended (delivery : Delivery)

-- The request has been let through, and has not been lost since.
def Stage.Through : Stage → Prop
  | .admitted _ => True
  | .answered _ => True
  | .ended (.ok _) => True
  | _ => False

-- Lives of members, known by serial numbers, on one network. Every stage of every request stays on
-- record, so the next one may come late, out of turn, several times, or never.
structure Mesh extends Company Nat (Trip × Stage) where
  network : Network Nat
  count : Nat

namespace Mesh

def empty : Mesh := ⟨⟨fun _ => none,[]⟩,.empty,0⟩

def put (x : Nat) (n : Node) (a : Mesh) : Mesh := {a with toCompany := a.toCompany.put x n}

def note (l : Trip) (stage : Stage) (a : Mesh) : Mesh := {a with letters := (l,stage) :: a.letters}

def act (x : Nat) (s : Step Answer) (a : Mesh) : Mesh :=
  {a with toCompany := a.toCompany.act (fun letter => (⟨letter,s.node.roster.address⟩,.asked)) x s}

-- What the network makes of a request at first.
def forward (l : Trip) (a : Mesh) : Stage := match a.network.route l.origin l.peer.address with
  | .ok receiver => .admitted receiver
  | .error e => .ended (.error e)

-- One thing that happens: a node acts of its own accord or its timer's task does, a request comes to its
-- next stage, its sender learns of the end of it, the network is parted or healed, or a life begins, is no
-- longer served, or ends. Its number is one that has not been given before. A request may be given up at any
-- time, and a handler that has no answer of its node to give says so.
inductive Step (members : List Member) : Mesh → Mesh → Prop where
  | own (now draw : Nat) (lives : a.node x = some n) (own : c = .candidacy ∨ c = .timeout ∨ ∃ t, c = .tick t) :
      Step members a (a.act x (n.apply now draw c))
  | wake (now draw : Nat) (lives : a.node x = some n) (woken : n.wake now draw = some (next,alarm)) :
      Step members a (a.put x next)
  | send (asked : (l,.asked) ∈ a.letters) : Step members a (a.note l (a.forward l))
  | answer (now draw : Nat) (admitted : (l,.admitted x) ∈ a.letters) (lives : a.node x = some n) :
      Step members a ((a.act x (n.apply now draw l.request.call)).note l
        (.answered (n.apply now draw l.request.call).answer.reply))
  | decline (admitted : (l,.admitted x) ∈ a.letters) : Step members a (a.note l (.answered (.error stoppedMessage)))
  | bring (answered : (l,.answered reply) ∈ a.letters) :
      Step members a (a.note l (.ended (a.network.carry l.origin l.peer.address reply)))
  | lose (known : (l,stage) ∈ a.letters) (e : TransportError) : Step members a (a.note l (.ended (.error e)))
  | tell (now draw : Nat) (ended : (l,.ended delivery) ∈ a.letters) (lives : a.node l.sender = some n) :
      Step members a (a.act l.sender (n.apply now draw (l.request.outcome l.peer.id delivery)))
  | isolate (address : Address) : Step members a {a with network := a.network.isolate address}
  | cut (one other : Address) : Step members a {a with network := a.network.cut one other}
  | heal (address : Address) : Step members a {a with network := a.network.heal address}
  | start (now draw : Nat) (timings : Timings) (accepted : Roster.ofMembers i members = .ok roster)
      (fresh : a.count ≤ x) (served : a.network.register roster.address x = .ok (g,net)) :
      Step members a {a.put x (.create now draw roster timings) with network := net, count := x+1}
  | withdraw (guard : Guard) : Step members a {a with network := (guard.finish a.network).2}
  | stop (x : Nat) : Step members a {a with node := Function.update a.node x none}

abbrev system (members : List Member) : System Mesh := ⟨(· = empty),Step members⟩

-- The moments of a run, the latest first.
abbrev Course (members : List Member) : List Mesh → Prop := (system members).Moments

abbrev Run (members : List Member) : Type := (system members).Run

-- A vote a node hears of is one that has come back to it.
def Told (a : Mesh) (x : Nat) (d : Deed) : Prop := ∀ now draw peer t reply,
  d = .call now draw (.voteReply peer t (.ok reply)) →
    ∃ l, (l,.ended (.ok (.vote reply))) ∈ a.letters ∧ l.sender = x ∧ l.request.term = t ∧ l.peer.id = peer

-- All that one step does to a life, and all that it adds to the stages of a request.
inductive Lives (members : List Member) (a : Mesh) (count x : Nat) : Node → Prop where
  | kept (lived : a.node x = some n) : Lives members a count x n
  | does (lived : a.node x = some n) (told : a.Told x d) : Lives members a count x (n.does d)
  | born (fresh : a.count ≤ x) (counted : x < count) (accepted : Roster.ofMembers i members = .ok roster)
      (now draw : Nat) (timings : Timings) : Lives members a count x (.create now draw roster timings)

inductive Goes (a : Mesh) (node : Nat → Option Node) : Trip → Stage → Prop where
  | kept (known : (l,stage) ∈ a.letters) : Goes a node l stage
  | asked (lived : a.node x = some n) (lives : node x = some (n.apply now draw c).node)
      (sent : s ∈ (n.apply now draw c).sends) : Goes a node ⟨⟨x,s.peer,s.request⟩,n.roster.address⟩ .asked
  | onward (known : (l,early) ∈ a.letters)
      (passed : late.Through → early.Through ∨ a.network.partition.allows l.origin l.peer.address = true) :
      Goes a node l late

structure Moves (members : List Member) (a b : Mesh) : Prop where
  count : a.count ≤ b.count
  lives : ∀ x n, b.node x = some n → Lives members a b.count x n
  stages : ∀ l stage, (l,stage) ∈ b.letters → Goes a b.node l stage

variable {members : List Member} {a b : Mesh} {x : Nat} {n : Node}

theorem Told.silent (silent : ∀ now draw peer t reply, d ≠ .call now draw (.voteReply peer t (.ok reply))) :
    a.Told x d := fun now draw peer t reply same => absurd same (silent now draw peer t reply)

theorem told_outcome (ended : (l,.ended delivery) ∈ a.letters) :
    a.Told l.sender (.call now draw (l.request.outcome l.peer.id delivery)) := by
  intro now' draw' peer t reply same
  cases kind : l.request with
  | heartbeat h => rw [kind] at same; cases same
  | vote r =>
      rw [kind] at same
      cases delivery with
      | error e => cases same
      | ok answer =>
          cases answer with
          | vote reply' =>
              cases same
              exact ⟨l,ended,rfl,by rw [kind]; rfl,rfl⟩
          | heartbeat reply' => cases same
          | error message => cases same

-- The request passed the network's first check if it has been admitted at all.
theorem forward_allowed (through : (a.forward l).Through) :
    a.network.partition.allows l.origin l.peer.address = true := by
  unfold forward Network.route at through
  cases allowed : a.network.partition.allows l.origin l.peer.address with
  | true => rfl
  | false => rw [allowed] at through; exact through.elim

namespace Moves

theorem refl (a : Mesh) : Moves members a a :=
  ⟨Nat.le_refl _,fun _ _ lived => .kept lived,fun _ _ known => .kept known⟩

theorem network (a : Mesh) (net : Network Nat) : Moves members a {a with network := net} :=
  ⟨Nat.le_refl _,fun _ _ lived => .kept lived,fun _ _ known => .kept known⟩

theorem note (moves : Moves members a b) (known : (l,early) ∈ a.letters)
    (passed : late.Through → early.Through ∨ a.network.partition.allows l.origin l.peer.address = true) :
    Moves members a (b.note l late) := by
  refine ⟨moves.count,moves.lives,?_⟩
  intro l' stage present
  rcases List.mem_cons.mp present with same | before
  · cases same
    exact .onward known passed
  · exact moves.stages l' stage before

theorem put (next : Lives members a a.count x n) : Moves members a (a.put x n) := by
  refine ⟨Nat.le_refl _,?_,fun _ _ known => .kept known⟩
  intro y n' lives
  rcases Company.put_lived lives with ⟨rfl,rfl⟩ | lived
  · exact next
  · exact .kept lived

theorem act (lived : a.node x = some n) (told : a.Told x (.call now draw c)) :
    Moves members a (a.act x (n.apply now draw c)) := by
  refine ⟨Nat.le_refl _,(put (.does lived told)).lives,?_⟩
  intro l stage present
  rcases Company.act_letters present with ⟨s,sent,same⟩ | known
  · cases same
    rw [(Node.apply_change now draw n c).roster]
    exact .asked lived (a.toCompany.put_self x _) sent
  · exact .kept known

end Moves

theorem Step.moves (step : Step members a b) : Moves members a b := by
  cases step with
  | own now draw lives own =>
      refine .act lives (Told.silent ?_)
      intro _ _ _ _ _ same
      rcases own with rfl | rfl | ⟨t,rfl⟩ <;> cases same
  | @wake n next _ _ _ now draw lives woken =>
      have woke : n.does (.wake now draw) = next := by
        simp only [Node.does,woken,Option.map_some,Option.getD_some]
      rw [← woke]
      refine .put (.does lives (Told.silent ?_))
      intro _ _ _ _ _ same
      cases same
  | send asked => exact (Moves.refl a).note asked fun through => .inr (forward_allowed through)
  | answer now draw admitted lives =>
      refine (Moves.act lives (Told.silent ?_)).note admitted fun _ => .inl trivial
      intro _ _ _ _ _ same
      next l _ _ _ _ _ _ _ => cases kind : l.request <;> rw [kind] at same <;> cases same
  | decline admitted => exact (Moves.refl a).note admitted fun _ => .inl trivial
  | bring answered => exact (Moves.refl a).note answered fun _ => .inl trivial
  | lose known e => exact (Moves.refl a).note known fun through => through.elim
  | tell now draw ended lives => exact .act lives (told_outcome ended)
  | isolate address => exact .network a _
  | cut one other => exact .network a _
  | heal address => exact .network a _
  | withdraw g => exact .network a _
  | start now draw timings accepted fresh served =>
      refine ⟨Nat.le_succ_of_le fresh,?_,fun _ _ known => .kept known⟩
      intro y n lives
      rcases Company.put_lived lives with ⟨rfl,rfl⟩ | lived
      · exact .born fresh (Nat.lt_succ_self _) accepted now draw timings
      · exact .kept lived
  | stop x =>
      refine ⟨Nat.le_refl _,?_,fun _ _ known => .kept known⟩
      intro y n lives
      by_cases same : y = x
      · subst same
        cases (Function.update_self ..).symm.trans lives
      · exact .kept ((Function.update_of_ne same ..).symm.trans lives)

-- What holds at every moment of a run: the lives that have begun have their own numbers and the roster of
-- some member, and a request names its sender's address and one of its peers, and tells a term its sender
-- has reached.
structure Sound (members : List Member) (a : Mesh) : Prop where
  begun : ∀ x n, a.node x = some n → x < a.count
  admitted : ∀ x n, a.node x = some n → n.Coherent ∧ ∃ i, Roster.ofMembers i members = .ok n.roster
  asked : ∀ l stage, (l,stage) ∈ a.letters → l.sender < a.count
  sender : ∀ l stage, (l,stage) ∈ a.letters → ∀ n, a.node l.sender = some n →
    l.origin = n.roster.address ∧ l.peer ∈ n.roster.peers ∧ l.request.term ≤ n.term

theorem Sound.empty : Sound members empty := ⟨nofun,nofun,nofun,nofun⟩

-- What was known of a request before stays true of its sender.
theorem Sound.still (sound : Sound members a) (moves : Moves members a b) (known : (l,stage) ∈ a.letters)
    (lives : b.node l.sender = some n) :
    l.origin = n.roster.address ∧ l.peer ∈ n.roster.peers ∧ l.request.term ≤ n.term := by
  cases moves.lives l.sender n lives with
  | kept lived => exact sound.sender l stage known n lived
  | @does before d lived _ =>
      obtain ⟨origin,peer,reached⟩ := sound.sender l stage known before lived
      rw [before.does_roster]
      exact ⟨origin,peer,Nat.le_trans reached (before.does_onward d).term_le⟩
  | born fresh _ _ _ _ _ => exact absurd (sound.asked l stage known) (Nat.not_lt_of_le fresh)

theorem Sound.moves (sound : Sound members a) (moves : Moves members a b) : Sound members b := by
  refine ⟨?_,?_,?_,?_⟩
  · intro x n lives
    cases moves.lives x n lives with
    | kept lived => exact Nat.lt_of_lt_of_le (sound.begun x n lived) moves.count
    | does lived _ => exact Nat.lt_of_lt_of_le (sound.begun x _ lived) moves.count
    | born _ counted _ _ _ _ => exact counted
  · intro x n lives
    cases moves.lives x n lives with
    | kept lived => exact sound.admitted x n lived
    | @does before d lived _ =>
        obtain ⟨coherent,i,accepted⟩ := sound.admitted x before lived
        exact ⟨coherent.does d,i,(before.does_roster d).symm ▸ accepted⟩
    | born _ _ accepted now draw timings => exact ⟨.created now draw _ timings,_,accepted⟩
  · intro l stage present
    cases moves.stages l stage present with
    | kept known => exact Nat.lt_of_lt_of_le (sound.asked l stage known) moves.count
    | asked lived _ _ => exact Nat.lt_of_lt_of_le (sound.begun _ _ lived) moves.count
    | onward known _ => exact Nat.lt_of_lt_of_le (sound.asked l _ known) moves.count
  · intro l stage present n lives
    cases moves.stages l stage present with
    | kept known => exact sound.still moves known lives
    | onward known _ => exact sound.still moves known lives
    | @asked x before now draw c s lived after sent =>
        cases after.symm.trans lives
        have roster := (Node.apply_change now draw before c).roster
        refine ⟨by rw [roster],by rw [roster]; exact (Node.apply_sends sent).1,?_⟩
        rw [(Node.sends_speak sent).parts.1]
        exact Term.le_refl _

end Mesh

theorem System.Course.sound {past : List Mesh} (course : (Mesh.system members).Course a past) : Mesh.Sound members a := by
  induction course with
  | begun first =>
      subst first
      exact .empty
  | step _ step ih => exact ih.moves step.moves

end LeaderElection
