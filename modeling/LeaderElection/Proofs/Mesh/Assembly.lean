import LeaderElection.Proofs.Assembly.Leaders
import LeaderElection.Proofs.Mesh.Cluster

namespace LeaderElection

-- Somebody's life begins, with the node it begins with.
inductive Mesh.Birth : List Mesh → Nat → Node → Prop where
  | now (fresh : a.count ≤ x) (lives : b.node x = some n) : Mesh.Birth (b :: a :: past) x n
  | early (birth : Mesh.Birth past x n) : Mesh.Birth (a :: past) x n

variable {members : List Member} {name : Nat → NodeId} {a b : Mesh} {past moments : List Mesh} {first s s' : Assembly}
  {x y : Nat} {n m : Node} {l : Trip} {i : NodeId}

namespace Mesh

theorem Birth.moment (birth : Birth moments x n) : ∃ b ∈ moments, b.node x = some n := by
  induction birth with
  | now _ lives => exact ⟨_,List.mem_cons_self,lives⟩
  | early _ ih =>
      obtain ⟨b,present,lives⟩ := ih
      exact ⟨b,List.mem_cons_of_mem _ present,lives⟩

-- No member lives twice, and each life has its member's name.
structure Single (name : Nat → NodeId) (moments : List Mesh) : Prop where
  own : ∀ a ∈ moments, ∀ x n, a.node x = some n → n.me = name x
  once : ∀ a ∈ moments, ∀ b ∈ moments, ∀ x n y m, a.node x = some n → b.node y = some m → n.me = m.me → x = y

theorem Single.early (single : Single name (a :: moments)) : Single name moments :=
  ⟨fun a early => single.own a (List.mem_cons_of_mem _ early),fun a one b other =>
    single.once a (List.mem_cons_of_mem _ one) b (List.mem_cons_of_mem _ other)⟩

-- Whoever serves an address, or has a request in hand, has the address that is asked for.
structure Placed (a : Mesh) : Prop where
  served : ∀ address x, a.network.handlers.find? address = some x →
    x < a.count ∧ ∀ n, a.node x = some n → n.roster.address = address
  admitted : ∀ l x, (l,.admitted x) ∈ a.letters → x < a.count ∧ ∀ n, a.node x = some n → n.roster.address = l.peer.address

-- A number that has been given belongs to the address of its life for good.
theorem Moves.still (moves : Moves members a b) {address : Address}
    (before : x < a.count ∧ ∀ n, a.node x = some n → n.roster.address = address) :
    x < b.count ∧ ∀ n, b.node x = some n → n.roster.address = address := by
  refine ⟨Nat.lt_of_lt_of_le before.1 moves.count,?_⟩
  intro n lives
  cases moves.lives x n lives with
  | kept lived => exact before.2 n lived
  | @does m d lived _ =>
      rw [m.does_roster]
      exact before.2 m lived
  | born fresh _ _ _ _ _ => exact absurd before.1 (Nat.not_lt_of_le fresh)

theorem Step.serves (step : Step members a b) {address : Address} (serves : b.network.handlers.find? address = some x) :
    a.network.handlers.find? address = some x ∨ x < b.count ∧ ∀ n, b.node x = some n → n.roster.address = address := by
  cases step with
  | @start i roster x _ net g now draw timings accepted fresh served =>
      obtain ⟨_,rfl,rfl⟩ := Network.register_parts served
      dsimp only at serves
      rw [Directory.find?_put] at serves
      by_cases same : address = roster.address
      · subst same
        rw [Function.update_self] at serves
        cases serves
        refine .inr ⟨Nat.lt_succ_self x,?_⟩
        intro n lives
        cases (Company.put_self a.toCompany x _).symm.trans lives
        rfl
      · rw [Function.update_of_ne same] at serves
        exact .inl serves
  | withdraw guard =>
      dsimp only at serves
      rw [Guard.finish_exact] at serves
      dsimp only at serves
      split at serves
      · exact .inl (Directory.remove_some serves)
      · exact .inl serves
  | _ => exact .inl serves

theorem forward_served (admitted : a.forward l = .admitted x) : a.network.handlers.find? l.peer.address = some x := by
  unfold forward Network.route at admitted
  cases allowed : a.network.partition.allows l.origin l.peer.address with
  | false =>
      rw [allowed] at admitted
      cases admitted
  | true =>
      cases found : a.network.handlers.find? l.peer.address with
      | none =>
          rw [allowed,found] at admitted
          cases admitted
      | some receiver =>
          rw [allowed,found] at admitted
          cases admitted
          rfl

theorem act_stage {c : LeaderElection.Step Answer} (present : (l,stage) ∈ (a.act x c).letters) : (l,stage) ∈ a.letters ∨ stage = .asked := by
  rcases Company.act_letters present with ⟨d,_,same⟩ | known
  · cases same
    exact .inr rfl
  · exact .inl known

theorem note_stage (present : (l,stage) ∈ (a.note l' stage').letters) : (l,stage) ∈ a.letters ∨ l = l' ∧ stage = stage' := by
  rcases List.mem_cons.mp present with same | known
  · cases same
    exact .inr ⟨rfl,rfl⟩
  · exact .inl known

theorem Step.admits (step : Step members a b) (present : (l,.admitted x) ∈ b.letters) :
    (l,.admitted x) ∈ a.letters ∨ a.network.handlers.find? l.peer.address = some x := by
  have acted {y : Nat} {c : LeaderElection.Step Answer} (present : (l,.admitted x) ∈ (a.act y c).letters) :
      (l,.admitted x) ∈ a.letters := by
    rcases act_stage present with known | same
    · exact known
    · cases same
  cases step with
  | own => exact .inl (acted present)
  | tell => exact .inl (acted present)
  | send =>
      rcases note_stage present with known | ⟨rfl,same⟩
      · exact .inl known
      · exact .inr (forward_served same.symm)
  | answer =>
      rcases note_stage present with known | ⟨_,same⟩
      · exact .inl (acted known)
      · cases same
  | decline =>
      rcases note_stage present with known | ⟨_,same⟩
      · exact .inl known
      · cases same
  | bring =>
      rcases note_stage present with known | ⟨_,same⟩
      · exact .inl known
      · cases same
  | lose =>
      rcases note_stage present with known | ⟨_,same⟩
      · exact .inl known
      · cases same
  | _ => exact .inl present

theorem Placed.step (placed : Placed a) (step : Step members a b) : Placed b := by
  refine ⟨?_,?_⟩
  · intro address x serves
    rcases step.serves serves with before | new
    · exact step.moves.still (placed.served address x before)
    · exact new
  · intro l x present
    rcases step.admits present with before | served
    · exact step.moves.still (placed.admitted l x before)
    · exact step.moves.still (placed.served _ x served)

end Mesh

namespace System.Course

open Mesh

theorem placed (course : (Mesh.system members).Course a past) : Placed a := by
  induction course with
  | begun first =>
      subst first
      refine ⟨?_,fun _ _ present => absurd present List.not_mem_nil⟩
      intro address x serves
      cases serves
  | step _ step ih => exact ih.step step

theorem birth_numbered (course : (Mesh.system members).Course a past) (birth : Birth (a :: past) x n) : x < a.count := by
  induction course with
  | begun first =>
      cases birth with
      | early birth => cases birth
  | step course step ih =>
      cases birth with
      | now _ lives => exact (course.step step).sound.begun x n lives
      | early birth => exact Nat.lt_of_lt_of_le (ih birth) step.moves.count

-- A number is given once.
theorem birth_unique (course : (Mesh.system members).Course a past) (birth : Birth (a :: past) x n)
    (birth' : Birth (a :: past) x m) : n = m := by
  induction course with
  | begun first =>
      cases birth with
      | early birth => cases birth
  | step course step ih =>
      cases birth with
      | now fresh lives =>
          cases birth' with
          | now _ lives' => exact Option.some.inj (lives.symm.trans lives')
          | early birth' => exact absurd (course.birth_numbered birth') (Nat.not_lt_of_le fresh)
      | early birth =>
          cases birth' with
          | now fresh _ => exact absurd (course.birth_numbered birth) (Nat.not_lt_of_le fresh)
          | early birth' => exact ih birth birth'

theorem birth_created (course : (Mesh.system members).Course a past) (birth : Birth (a :: past) x n) :
    ∃ roster timings now draw, Roster.ofMembers n.me members = .ok roster ∧ n = .create now draw roster timings := by
  induction course with
  | begun first =>
      cases birth with
      | early birth => cases birth
  | step course step ih =>
      cases birth with
      | now fresh lives =>
          cases step.moves.lives x n lives with
          | kept lived => exact absurd (course.sound.begun x _ lived) (Nat.not_lt_of_le fresh)
          | does lived _ => exact absurd (course.sound.begun x _ lived) (Nat.not_lt_of_le fresh)
          | born _ _ accepted now draw timings =>
              have own := Roster.ofMembers_me accepted
              rw [← own] at accepted
              exact ⟨_,timings,now,draw,accepted,rfl⟩
      | early birth => exact ih birth

-- Every life has begun at some time, as its member's.
theorem born (course : (Mesh.system members).Course a past) (lives : a.node x = some n) :
    ∃ m, Birth (a :: past) x m ∧ m.me = n.me := by
  induction course generalizing n with
  | begun first =>
      subst first
      cases lives
  | step course step ih =>
      cases step.moves.lives x n lives with
      | kept lived =>
          obtain ⟨m,birth,same⟩ := ih lived
          exact ⟨m,.early birth,same⟩
      | @does before d lived _ =>
          obtain ⟨m,birth,same⟩ := ih lived
          exact ⟨m,.early birth,same.trans (congrArg Roster.me (before.does_roster d)).symm⟩
      | born fresh _ _ _ _ _ => exact ⟨_,.now fresh lives,rfl⟩

-- An assembly that begins with the nodes that the lives of a mesh are going to begin with. Of the members that
-- never live it has some node.
theorem prepared (course : (Mesh.system members).Course a past) (distinct : (members.map Member.id).Nodup)
    (single : Single name (a :: past)) :
    ∃ first : Assembly, first.Begun members ∧ ∀ x n, Birth (a :: past) x n → first.node n.me = some n := by
  have chosen : ∀ i, ∃ o : Option Node, (∀ x n, Birth (a :: past) x n → n.me = i → o = some n) ∧
      (∀ m ∈ members, m.id = i → ∃ roster timings now draw, Roster.ofMembers i members = .ok roster ∧
        o = some (.create now draw roster timings)) ∧ (i ∉ members.map Member.id → o = none) := by
    intro i
    by_cases lived : ∃ x n, Birth (a :: past) x n ∧ n.me = i
    · obtain ⟨x,n,birth,rfl⟩ := lived
      obtain ⟨roster,timings,now,draw,accepted,created⟩ := course.birth_created birth
      refine ⟨some n,?_,?_,?_⟩
      · intro y m birth' same
        obtain ⟨b,moment,lives⟩ := birth.moment
        obtain ⟨b',moment',lives'⟩ := birth'.moment
        cases single.once b' moment' b moment y m x n lives' lives same
        exact congrArg some (course.birth_unique birth birth')
      · exact fun _ _ _ => ⟨roster,timings,now,draw,accepted,congrArg some created⟩
      · exact fun stranger => absurd (List.mem_map_of_mem (Roster.ofMembers_self accepted)) stranger
    · have begun : (Assembly.create 0 5 ⟨1,⟨5,10⟩,1⟩ members).Begun members := Assembly.create_begun distinct
      refine ⟨(Assembly.create 0 5 ⟨1,⟨5,10⟩,1⟩ members).node i,?_,?_,begun.nobody i⟩
      · exact fun x n birth own => absurd ⟨x,n,birth,own⟩ lived
      · rintro m present rfl
        exact begun.created m present
  choose node lives member stranger using chosen
  refine ⟨⟨⟨node,[]⟩,[]⟩,⟨fun m present => member m.id m present rfl,stranger,rfl,rfl⟩,?_⟩
  exact fun x n birth => lives n.me x n birth rfl

end System.Course

namespace Mesh

-- A reply that has come, or a handler's word that its node has stopped.
def Heard (name : Nat → NodeId) (s : Assembly) (l : Trip) (reply : Reply) : Prop :=
  reply = .error stoppedMessage ∨ ⟨⟨name l.sender,l.peer,l.request⟩,reply⟩ ∈ s.replies

-- An assembly as far as a mesh has come. Members that have not begun yet are as they will be.
structure Tells (name : Nat → NodeId) (first : Assembly) (moments : List Mesh) (a : Mesh) (s : Assembly) : Prop where
  lives : ∀ x n, a.node x = some n → s.node n.me = some n
  unborn : ∀ i, (∀ x n, Birth moments x n → n.me ≠ i) → s.node i = first.node i
  letters : ∀ l stage, (l,stage) ∈ a.letters → ⟨name l.sender,l.peer,l.request⟩ ∈ s.letters
  answered : ∀ l reply, (l,.answered reply) ∈ a.letters → Heard name s l reply
  ended : ∀ l reply, (l,.ended (.ok reply)) ∈ a.letters → Heard name s l reply

theorem Heard.later (heard : Heard name s l reply) (kept : s.replies ⊆ s'.replies) : Heard name s' l reply :=
  heard.imp_right fun given => kept given

namespace Tells

variable {c : LeaderElection.Step Answer} {g : Given}

theorem more (tells : Tells name first moments a s) : Tells name first (b :: moments) a s :=
  ⟨tells.lives,fun i unborn => tells.unborn i fun x n birth => unborn x n (.early birth),tells.letters,tells.answered,tells.ended⟩

-- Where nothing happens to any node, and what is known of a request is not new or is in order.
theorem still (tells : Tells name first moments a s) (lives : ∀ x n, b.node x = some n → a.node x = some n)
    (letters : ∀ l stage, (l,stage) ∈ b.letters → (l,stage) ∈ a.letters ∨
      (∃ early, (l,early) ∈ a.letters) ∧ ∀ reply, stage = .answered reply ∨ stage = .ended (.ok reply) → Heard name s l reply) :
    Tells name first moments b s := by
  refine ⟨fun x n lived => tells.lives x n (lives x n lived),tells.unborn,?_,?_,?_⟩
  · intro l stage present
    rcases letters l stage present with before | ⟨⟨early,before⟩,_⟩
    · exact tells.letters l stage before
    · exact tells.letters l early before
  · intro l reply present
    rcases letters l _ present with before | ⟨_,heard⟩
    · exact tells.answered l reply before
    · exact heard reply (.inl rfl)
  · intro l reply present
    rcases letters l _ present with before | ⟨_,heard⟩
    · exact tells.ended l reply before
    · exact heard reply (.inr rfl)

theorem notes (tells : Tells name first moments a s) (known : (l,early) ∈ a.letters)
    (heard : ∀ reply, stage = .answered reply ∨ stage = .ended (.ok reply) → Heard name s l reply) :
    Tells name first moments (a.note l stage) s := by
  refine tells.still (fun _ _ lived => lived) ?_
  intro l' stage' present
  rcases note_stage present with before | ⟨rfl,rfl⟩
  · exact .inl before
  · exact .inr ⟨⟨early,known⟩,heard⟩

-- What one node does is done by the same member of the assembly.
theorem acts (tells : Tells name first (a :: past) a s) (course : (Mesh.system members).Course a past)
    (single : Single name (a :: past)) (lives : a.node x = some n) (roster : c.node.roster = n.roster)
    (node : s'.node = Function.update s.node n.me (some c.node)) (letters : s'.letters = (s.act n.me c).letters)
    (replies : s.replies ⊆ s'.replies) : Tells name first (a :: past) (a.act x c) s' := by
  have own : n.me = name x := single.own a List.mem_cons_self x n lives
  have posted : ∀ l stage, (l,stage) ∈ (a.act x c).letters → ⟨name l.sender,l.peer,l.request⟩ ∈ s'.letters := by
    intro l stage present
    rw [letters]
    rcases Company.act_letters present with ⟨d,sent,same⟩ | known
    · cases same
      exact own ▸ Company.act_sent sent s.toCompany
    · exact s.toCompany.act_kept _ (tells.letters l stage known)
  refine ⟨?_,?_,posted,?_,?_⟩
  · intro y m lived
    rw [node]
    rcases Company.put_lived lived with ⟨rfl,rfl⟩ | before
    · have same : c.node.me = n.me := congrArg Roster.me roster
      rw [same,Function.update_self]
    · by_cases same : m.me = n.me
      · cases single.once a List.mem_cons_self a List.mem_cons_self y m x n before lives same
        have acted : c.node = m := by
          exact Option.some.inj ((Company.put_self a.toCompany x c.node).symm.trans lived)
        rw [same,Function.update_self,acted]
      · rw [Function.update_of_ne same]
        exact tells.lives y m before
  · intro i unborn
    obtain ⟨m,birth,same⟩ := course.born lives
    have differ : i ≠ n.me := fun equal => unborn x m birth (same.trans equal.symm)
    rw [node,Function.update_of_ne differ]
    exact tells.unborn i unborn
  · intro l reply present
    rcases act_stage present with known | asked
    · exact (tells.answered l reply known).later replies
    · cases asked
  · intro l reply present
    rcases act_stage present with known | asked
    · exact (tells.ended l reply known).later replies
    · cases asked

theorem calls (tells : Tells name first (a :: past) a s) (course : (Mesh.system members).Course a past)
    (single : Single name (a :: past)) (lives : a.node x = some n) (now draw : Nat) (c : Call) :
    Tells name first (a :: past) (a.act x (n.apply now draw c)) (s.act n.me (n.apply now draw c)) :=
  tells.acts course single lives (Node.apply_change now draw n c).roster rfl rfl (List.Subset.refl _)

-- A handler's reply is the member's.
theorem answers (tells : Tells name first (a :: past) a s) (course : (Mesh.system members).Course a past)
    (single : Single name (a :: past)) (admitted : (l,.admitted x) ∈ a.letters) (lives : a.node x = some n) (now draw : Nat) :
    ∃ s', Assembly.Step s s' ∧ Tells name first (a :: past) ((a.act x (n.apply now draw l.request.call)).note l
      (.answered (n.apply now draw l.request.call).answer.reply)) s' := by
  have reached := (course.placed.admitted l x admitted).2 n lives
  let after : Assembly := {s.act n.me (n.apply now draw l.request.call) with
    replies := ⟨⟨name l.sender,l.peer,l.request⟩,(n.apply now draw l.request.call).answer.reply⟩ :: s.replies}
  have acted : Tells name first (a :: past) (a.act x (n.apply now draw l.request.call)) after :=
    tells.acts course single lives (Node.apply_change now draw n l.request.call).roster rfl rfl (List.subset_cons_self _ _)
  refine ⟨_,.request now draw (tells.lives x n lives) (tells.letters l _ admitted) reached,
    acted.notes (a.toCompany.act_kept _ admitted) ?_⟩
  intro reply same
  rcases same with same | same
  · cases same
    exact .inr List.mem_cons_self
  · cases same

-- What a sender hears of is a reply of the member it has asked, or a failure.
theorem hears (tells : Tells name first (a :: past) a s) (course : (Mesh.system members).Course a past)
    (single : Single name (a :: past)) (ended : (l,.ended delivery) ∈ a.letters) (lives : a.node l.sender = some n)
    (now draw : Nat) : ∃ s', Assembly.Step s s' ∧ Tells name first (a :: past)
      (a.act l.sender (n.apply now draw (l.request.outcome l.peer.id delivery))) s' := by
  have living : s.node n.me = some n := tells.lives l.sender n lives
  have told := tells.calls course single lives now draw
  cases delivery with
  | error e => exact ⟨_,.failure now draw living,told _⟩
  | ok reply =>
      rcases tells.ended l reply ended with rfl | given
      · have failed : l.request.outcome l.peer.id (.ok (.error stoppedMessage)) =
            l.request.outcome l.peer.id (.error (unexpected (.error stoppedMessage))) := by
          cases l.request <;> rfl
        rw [failed]
        exact ⟨_,.failure now draw living,told _⟩
      · have own : n.me = name l.sender := single.own a List.mem_cons_self l.sender n lives
        rw [own] at living told
        exact ⟨_,.reply now draw living given,told _⟩

-- Who begins has been foreseen.
theorem starts (tells : Tells name first (a :: past) a s) (course : (Mesh.system members).Course a past)
    (begun : b.node = (a.put x n).node) (letters : b.letters = a.letters) (numbered : b.count = x+1) (fresh : a.count ≤ x)
    (single : Single name (b :: a :: past)) (foreseen : first.node n.me = some n) :
    Tells name first (b :: a :: past) b s := by
  have lived : b.node x = some n := by
    rw [begun]
    exact a.toCompany.put_self x n
  have unborn : s.node n.me = first.node n.me := by
    refine tells.unborn n.me ?_
    intro y m birth same
    obtain ⟨b',moment,lived'⟩ := birth.moment
    have equal := single.once b' (List.mem_cons_of_mem _ moment) b List.mem_cons_self y m x n lived' lived same
    exact absurd (equal ▸ course.birth_numbered birth) (Nat.not_lt_of_le fresh)
  refine ⟨?_,tells.more.unborn,letters ▸ tells.letters,letters ▸ tells.answered,letters ▸ tells.ended⟩
  intro y m lives
  rw [begun] at lives
  rcases Company.put_lived lives with ⟨rfl,rfl⟩ | before
  · exact unborn.trans foreseen
  · exact tells.lives y m before

-- What each step of the mesh is to the assembly: a step of one of its nodes, or nothing.
theorem step (tells : Tells name first (a :: past) a s) (course : (Mesh.system members).Course a past)
    (step : Mesh.Step members a b) (single : Single name (b :: a :: past))
    (foreseen : ∀ x n, Birth (b :: a :: past) x n → first.node n.me = some n) :
    ∃ s', (s' = s ∨ Assembly.Step s s') ∧ Tells name first (b :: a :: past) b s' := by
  have moved {net : Network Nat} : Tells name first ({a with network := net} :: a :: past) {a with network := net} s :=
    (tells.still (b := {a with network := net}) (fun _ _ lived => lived) fun _ _ known => .inl known).more
  cases step with
  | own now draw lives own =>
      exact ⟨_,.inr (.own now draw (tells.lives _ _ lives) own),(tells.calls course single.early lives now draw _).more⟩
  | @wake n next _ _ _ now draw lives woken =>
      have woke : n.does (.wake now draw) = next := by simp only [Node.does,woken,Option.map_some,Option.getD_some]
      refine ⟨_,.inr (.wake now draw (tells.lives _ _ lives) woken),more ?_⟩
      exact tells.acts (c := .only .done next []) course single.early lives (woke ▸ n.does_roster _) rfl rfl
        (List.Subset.refl _)
  | send asked =>
      refine ⟨s,.inl rfl,(tells.notes asked ?_).more⟩
      intro reply same
      unfold forward at same
      split at same <;> rcases same with same | same <;> cases same
  | answer now draw admitted lives =>
      obtain ⟨s',step,tells⟩ := tells.answers course single.early admitted lives now draw
      exact ⟨s',.inr step,tells.more⟩
  | decline admitted =>
      refine ⟨s,.inl rfl,(tells.notes admitted ?_).more⟩
      intro reply same
      rcases same with same | same
      · cases same
        exact .inl rfl
      · cases same
  | @bring l _ reply answered =>
      refine ⟨s,.inl rfl,(tells.notes answered ?_).more⟩
      intro reply' same
      unfold Network.carry at same
      split at same <;> rcases same with same | same <;> cases same
      exact tells.answered l reply answered
  | lose known e =>
      refine ⟨s,.inl rfl,(tells.notes known ?_).more⟩
      intro reply same
      rcases same with same | same <;> cases same
  | tell now draw ended lives =>
      obtain ⟨s',step,tells⟩ := tells.hears course single.early ended lives now draw
      exact ⟨s',.inr step,tells.more⟩
  | isolate address => exact ⟨s,.inl rfl,moved⟩
  | cut one other => exact ⟨s,.inl rfl,moved⟩
  | heal address => exact ⟨s,.inl rfl,moved⟩
  | withdraw guard => exact ⟨s,.inl rfl,moved⟩
  | start now draw timings accepted fresh served =>
      have begins := foreseen _ _ (.now fresh (a.toCompany.put_self _ _))
      exact ⟨s,.inl rfl,tells.starts course rfl rfl rfl fresh single begins⟩
  | stop x =>
      refine ⟨s,.inl rfl,(tells.still (b := {a with node := Function.update a.node x none}) ?_ fun _ _ known => .inl known).more⟩
      intro y m lived
      by_cases same : y = x
      · subst same
        cases (Function.update_self ..).symm.trans lived
      · exact (Function.update_of_ne same ..).symm.trans lived

end Tells

-- The nodes of a mesh are those of the members in the assembly.
def Seats (a : Mesh) (s : Assembly) : Prop := ∀ x n, a.node x = some n → s.node n.me = some n

-- A run of the mesh is followed by one that begins as has been foreseen.
theorem followed (course : (system members).Course a past) (begun : first.Begun members) (single : Single name (a :: past))
    (foreseen : ∀ x n, Birth (a :: past) x n → first.node n.me = some n) :
    ∃ s earlier, (Assembly.system members).Course s earlier ∧ Tells name first (a :: past) a s ∧
      ∀ b ∈ a :: past, ∃ s' ∈ s :: earlier, Seats b s' := by
  induction course with
  | begun empty =>
      subst empty
      have tells : Tells name first [.empty] .empty first := by
        refine ⟨?_,fun _ _ => rfl,?_,?_,?_⟩
        · intro x n lives
          cases lives
        · exact fun _ _ present => absurd present List.not_mem_nil
        · exact fun _ _ present => absurd present List.not_mem_nil
        · exact fun _ _ present => absurd present List.not_mem_nil
      exact ⟨first,[],.begun begun,tells,List.forall_mem_singleton.mpr ⟨first,List.mem_cons_self,tells.lives⟩⟩
  | step course step ih =>
      obtain ⟨s,earlier,course',tells,seated⟩ := ih single.early fun x n birth => foreseen x n (.early birth)
      obtain ⟨s',reached,tells'⟩ := tells.step course step single foreseen
      rcases reached with rfl | next
      · exact ⟨s',earlier,course',tells',List.forall_mem_cons.mpr ⟨⟨s',List.mem_cons_self,tells'.lives⟩,seated⟩⟩
      · refine ⟨s',_,course'.step next,tells',List.forall_mem_cons.mpr ⟨⟨s',List.mem_cons_self,tells'.lives⟩,?_⟩⟩
        intro b moment
        obtain ⟨t,present,seats⟩ := seated b moment
        exact ⟨t,List.mem_cons_of_mem _ present,seats⟩

end Mesh

open Mesh

-- Where no member lives twice, whatever happens in a mesh happens in an assembly.
theorem System.Course.assembled (course : (Mesh.system members).Course a past) (distinct : (members.map Member.id).Nodup)
    (single : Single name (a :: past)) : ∃ s earlier, (Assembly.system members).Course s earlier ∧
      ∀ b ∈ a :: past, ∃ s' ∈ s :: earlier, Seats b s' := by
  obtain ⟨first,begun,foreseen⟩ := course.prepared distinct single
  obtain ⟨s,earlier,course',_,seated⟩ := followed course begun single foreseen
  exact ⟨s,earlier,course',seated⟩

namespace Cluster

variable {c : Cluster} {before : List Cluster}

-- No member has been started twice.
def Once (c : Cluster) : Prop :=
  ∀ s r t q, c.residents.find? s = some r → c.residents.find? t = some q → r.id = q.id → s = t

-- The members of a cluster that are started once and have it to themselves make an assembly.
theorem assembled (course : (system members).Course c before) (distinct : (members.map Member.id).Nodup) (once : c.Once) :
    ∃ s earlier, (Assembly.system members).Course s earlier ∧ ∀ d ∈ c :: before, ∃ s' ∈ s :: earlier,
      ∀ x r n, d.residents.find? x = some r → r.station.mailbox.node? = some n → s'.node n.me = some n := by
  obtain ⟨a,past,meshed⟩ := course.meshed
  let name (x : Nat) : NodeId := ((c.residents.find? x).map Resident.id).getD ⟨""⟩
  have single : Single name (a :: past) := by
    refine ⟨?_,?_⟩
    · intro b moment x n lives
      obtain ⟨r,present,id⟩ := meshed.known b moment x n lives
      simp only [name,present,Option.map_some,Option.getD_some]
      exact id.symm
    · intro b moment b' moment' x n y m lives lives' same
      obtain ⟨r,present,id⟩ := meshed.known b moment x n lives
      obtain ⟨q,present',id'⟩ := meshed.known b' moment' y m lives'
      exact once x r y q present present' (id.trans (same.trans id'.symm))
  obtain ⟨s,earlier,course',seated⟩ := meshed.course.assembled distinct single
  refine ⟨s,earlier,course',?_⟩
  intro d moment
  obtain ⟨b,moment,pictures⟩ := meshed.moment moment
  obtain ⟨s',present,seats⟩ := seated b moment
  refine ⟨s',present,?_⟩
  intro x r n lives running
  refine seats x n ?_
  rw [pictures.node,lives]
  exact running

-- So no two of them lead in one term, at whatever times.
theorem leads_alone (course : (system members).Course c before) (ids : (members.map Member.id).Nodup)
    (addresses : (members.map Member.address).Nodup) (once : c.Once) (moment : d ∈ c :: before) (moment' : d' ∈ c :: before)
    (lives : d.residents.find? x = some r) (running : r.station.mailbox.node? = some n)
    (lives' : d'.residents.find? y = some q) (running' : q.station.mailbox.node? = some m)
    (leads : n.role = .leader) (leads' : m.role = .leader) (same : n.term = m.term) : n.me = m.me := by
  obtain ⟨s,earlier,course',seated⟩ := assembled course ids once
  obtain ⟨s',present,seats⟩ := seated d moment
  obtain ⟨t',present',seats'⟩ := seated d' moment'
  exact course'.leader_unique addresses ⟨s',present,n,seats x r n lives running,rfl,leads⟩
    ⟨t',present',m,seats' y q m lives' running',same.symm,leads'⟩

end Cluster
end LeaderElection
