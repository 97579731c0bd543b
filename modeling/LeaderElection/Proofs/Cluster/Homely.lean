import LeaderElection.Proofs.Cluster.Shutdown
import LeaderElection.Proofs.Company
import LeaderElection.Proofs.Network

namespace LeaderElection

open Relation

-- A running node was there before, with the same roster.
theorem Loop.Goes.roster {l : Loop} {n : Node} (goes : Loop.Goes l (.running n)) :
    ∃ before, l = .running before ∧ n.roster = before.roster := by
  generalize last : Loop.running n = l' at goes
  cases goes with
  | same => exact ⟨n,last.symm,rfl⟩
  | does d =>
      cases l with
      | running before =>
          cases last
          exact ⟨before,rfl,before.does_roster d⟩
      | exited feed => cases last
  | stop => cases l <;> cases last

namespace Resident

variable {r r' : Resident}

theorem Goes.loop (goes : r.Goes r') : Loop.Goes r.station.mailbox.loop r'.station.mailbox.loop := by
  cases goes with
  | posted posted => exact Mailbox.post_goes posted
  | took took =>
      obtain ⟨taken,mailbox⟩ := Station.take_parts took
      rw [mailbox]
      exact Mailbox.take_goes taken
  | woken woken => exact Mailbox.wake_goes woken
  | polled => exact .same
  | fell running =>
      rw [Mailbox.node_exact.mp running]
      exact .stop
  | heard => exact .same

theorem Goes.id (goes : r.Goes r') : r'.id = r.id := by cases goes <;> rfl

-- A node is its member's, and at the address that member is served at.
def Homed (r : Resident) : Prop :=
  ∀ n, r.station.mailbox.node? = some n → n.me = r.id ∧ n.roster.address = r.guard.address

theorem Goes.homed (goes : r.Goes r') (homed : r.Homed) : r'.Homed := by
  intro n running
  have went := goes.loop
  rw [Mailbox.node_exact.mp running] at went
  obtain ⟨before,loop,same⟩ := went.roster
  have ran : r.station.mailbox.node? = some before := by rw [Mailbox.node?,loop]
  rw [Node.me,same,goes.kept.1,goes.id]
  exact homed before ran

end Resident

namespace Cluster

variable {members : List Member} {c next : Cluster} {s : Nat} {r : Resident} {x : Act} {config : Config}

def Homed (c : Cluster) : Prop := ∀ s r, c.residents.find? s = some r → r.Homed

theorem Homed.goes (homed : c.Homed) (goes : c.Goes next) : next.Homed := by
  intro s r lives
  obtain ⟨before,lived,chain⟩ := goes.back lives
  have first := homed s before lived
  clear lives
  induction chain with
  | refl => exact first
  | tail _ goes ih => exact goes.homed ih

theorem Homed.put (homed : c.Homed) (residents : next.residents = c.residents.put s r) (own : r.Homed) : next.Homed := by
  intro t q lives
  rw [residents] at lives
  by_cases same : t = s
  · subst same
    cases (Directory.find?_put_self ..).symm.trans lives
    exact own
  · exact homed t q ((Directory.find?_put_other _ same _).symm.trans lives)

theorem Homed.does (homed : c.Homed) (x : Act) : (c.does x).Homed := by
  have effect := does_effect x c
  generalize c.does x = after at effect ⊢
  cases effect with
  | goes goes => exact homed.goes goes
  | occupied => exact homed
  | vacated => exact homed
  | adjusted lives => exact homed.put rfl fun n running => homed _ _ lives n running
  | founded accepted free held home =>
      refine homed.put rfl fun n running => ?_
      have same := home n running
      exact ⟨(congrArg Roster.me same).trans (Roster.ofMembers_me accepted),congrArg Roster.address same⟩
  | @closed s r lives =>
      rw [close_exact lives]
      refine Homed.goes ?_ (post_goes ..)
      exact homed.put (s := s) (r := {r with guard := ⟨r.guard.address,false⟩}) rfl fun n running => homed _ _ lives n running
  | abandoned lives =>
      rw [abandon_exact lives]
      exact homed.put rfl fun n running => homed _ _ lives n running

-- Whoever has been there still is, under its number and id.
def Lasts (c next : Cluster) : Prop :=
  ∀ s r, c.residents.find? s = some r → ∃ r', next.residents.find? s = some r' ∧ r'.id = r.id

theorem Lasts.refl (c : Cluster) : c.Lasts c := fun _ r lives => ⟨r,lives,rfl⟩

theorem Lasts.trans {mid : Cluster} (first : c.Lasts mid) (second : mid.Lasts next) : c.Lasts next := by
  intro s r lives
  obtain ⟨r',lives',id'⟩ := first s r lives
  obtain ⟨last,lives,id⟩ := second s r' lives'
  exact ⟨last,lives,id.trans id'⟩

theorem Goes.lasts (goes : c.Goes next) : c.Lasts next := by
  intro s r lives
  obtain ⟨after,lives',chain⟩ := goes.forth lives
  refine ⟨after,lives',?_⟩
  clear lives'
  induction chain with
  | refl => rfl
  | tail _ goes ih => exact goes.id.trans ih

theorem Lasts.put (residents : next.residents = c.residents.put s r)
    (same : ∀ q, c.residents.find? s = some q → r.id = q.id) : c.Lasts next := by
  intro t q lives
  rw [residents]
  by_cases own : t = s
  · subst own
    exact ⟨r,Directory.find?_put_self ..,same q lives⟩
  · exact ⟨q,(Directory.find?_put_other _ own _).trans lives,rfl⟩

theorem does_lasts (orderly : c.Orderly) (x : Act) : c.Lasts (c.does x) := by
  have effect := does_effect x c
  generalize c.does x = after at effect ⊢
  have still {s : Nat} {q r : Resident} (lives : c.residents.find? s = some q) (id : r.id = q.id) :
      ∀ p, c.residents.find? s = some p → r.id = p.id := by
    intro p lives'
    cases lives.symm.trans lives'
    exact id
  cases effect with
  | goes goes => exact goes.lasts
  | occupied => exact .refl c
  | vacated => exact .refl c
  | adjusted lives => exact .put rfl (still lives rfl)
  | founded => exact .put rfl fun q lives => absurd (orderly.numbered _ q lives) (Nat.lt_irrefl _)
  | @closed s r lives =>
      rw [close_exact lives]
      refine Lasts.trans ?_ (post_goes ..).lasts
      exact .put (s := s) (r := {r with guard := ⟨r.guard.address,false⟩}) rfl (still lives rfl)
  | abandoned lives =>
      rw [abandon_exact lives]
      exact .put rfl (still lives rfl)

-- What members and their owners do. Nobody else posts to them or uses their network.
def Act.Homely (members : List Member) : Act → Prop
  | .post .. => False
  | .send .. => False
  | .answer _ => False
  | .occupy _ => False
  | .sever f => ∃ o : Partition.Order, f = fun p => p.obey o
  | .found config => config.members = members
  | _ => True

-- One thing that happens in a cluster that its members have to themselves. Its clock may be set, and whoever
-- only looks changes nothing.
inductive Homely (members : List Member) (c : Cluster) : Cluster → Prop where
  | does (x : Act) (allowed : x.Homely members) : Homely members c (c.does x)
  | clock (instant : Nat) : Homely members c {c with now := instant}
  | aside {after : Cluster} (network : after.network = c.network) (counter : after.counter = c.counter)
      (passages : after.passages = c.passages) (residents : ∀ s, (after.residents.find? s).map (fun r => (r.id,r.guard,r.station)) =
        (c.residents.find? s).map fun r => (r.id,r.guard,r.station)) : Homely members c after

abbrev system (members : List Member) : System Cluster := ⟨fun c => ∃ draws, c = create draws,Homely members⟩

theorem aside_parts (residents : (next.residents.find? s).map (fun r => (r.id,r.guard,r.station)) =
      (c.residents.find? s).map fun r => (r.id,r.guard,r.station)) (lives : next.residents.find? s = some r) :
    ∃ q, c.residents.find? s = some q ∧ r.id = q.id ∧ r.guard = q.guard ∧ r.station = q.station := by
  rw [lives] at residents
  obtain ⟨q,lived,same⟩ := Option.map_eq_some_iff.mp residents.symm
  obtain ⟨id,rest⟩ := Prod.mk.inj same
  obtain ⟨guard,station⟩ := Prod.mk.inj rest
  exact ⟨q,lived,id.symm,guard.symm,station.symm⟩

theorem Homely.homed (homely : Homely members c next) (homed : c.Homed) : next.Homed := by
  cases homely with
  | does x _ => exact homed.does x
  | clock => exact homed
  | aside _ _ _ residents =>
      intro s r lives
      obtain ⟨q,lived,id,guard,station⟩ := aside_parts (residents s) lives
      intro n running
      rw [id,guard]
      exact homed s q lived n (station ▸ running)

theorem Homely.lasts (homely : Homely members c next) (orderly : c.Orderly) : c.Lasts next := by
  cases homely with
  | does x _ => exact does_lasts orderly x
  | clock => exact .refl c
  | aside _ _ _ residents =>
      intro s r lives
      obtain ⟨q,lived,id,_⟩ := aside_parts (residents s).symm lives
      exact ⟨q,lived,id.symm⟩

theorem Homely.orderly (homely : Homely members c next) (orderly : c.Orderly) : next.Orderly := by
  cases homely with
  | does x _ => exact orderly.does x
  | clock => exact ⟨orderly.numbered,orderly.serves,orderly.tickets⟩
  | aside network counter passages residents =>
      refine ⟨?_,?_,?_⟩
      · intro s r lives
        obtain ⟨q,lived,_⟩ := aside_parts (residents s) lives
        exact counter ▸ orderly.numbered s q lived
      · intro s r lives armed
        obtain ⟨q,lived,_,guard,station⟩ := aside_parts (residents s) lives
        rw [guard,station,network]
        exact orderly.serves s q lived (guard ▸ armed)
      · intro p present
        rw [passages] at present
        exact counter ▸ orderly.tickets p present

end Cluster

theorem System.Course.orderly {past : List Cluster} (course : (Cluster.system members).Course c past) : c.Orderly ∧ c.Homed := by
  induction course with
  | begun first =>
      obtain ⟨draws,rfl⟩ := first
      exact ⟨.created draws,fun s r lives => nomatch lives⟩
  | step _ step ih => exact ⟨step.orderly ih.1,step.homed ih.2⟩

namespace Cluster

variable {members : List Member} {c next : Cluster} {config : Config}

theorem move_homely {m : Move} (performed : perform m c = some next) : Homely members c next := by
  have does : c.does (.move m) = next := by rw [does,performed]; rfl
  exact does ▸ .does (.move m) trivial

-- The members do what is to be done, as the clock goes on or not.
theorem moves_homely (moves : Schedule.Moves c next) : ReflTransGen (Homely members) c next := by
  induction moves with
  | rest => exact .refl
  | move performed _ ih => exact .head (move_homely performed) ih

theorem settle_homely (c : Cluster) : ReflTransGen (Homely members) c (Schedule.settle c) := moves_homely (Schedule.settle_moves c)

theorem run_homely (ms : Nat) (c : Cluster) : ReflTransGen (Homely members) c (c.run ms) := by
  have reaches := Schedule.run_reaches ms c
  unfold run
  generalize Schedule.run ms c = last at reaches
  induction reaches with
  | rest => exact .refl
  | move _ performed ih => exact ih.tail (move_homely performed)
  | pass _ t ih => exact ih.tail (.clock t)

-- Owners begin, end and let go of members.
theorem start_homely (orderly : c.Orderly) (same : config.members = members) :
    ReflTransGen (Homely members) c (c.start config).2 := by
  cases launched : c.launch config with
  | error e =>
      rw [start_failed launched]
  | ok made =>
      obtain ⟨roster,station,guard,network⟩ := made
      rw [start_found orderly launched]
      refine ReflTransGen.trans ?_ (settle_homely _)
      refine ReflTransGen.tail (b := (c.serial? config.me).elim c c.abandon) ?_ (.does (.found config) same)
      cases c.serial? config.me with
      | none => exact .refl
      | some old => exact .single (.does (.abandon old) trivial)

theorem shutdown_homely {id : NodeId} (shut : c.shutdown id = some next) : ReflTransGen (Homely members) c next := by
  cases owned : c.owned? id with
  | none =>
      rw [shutdown,owned] at shut
      cases shut
  | some found =>
      obtain ⟨s,r⟩ := found
      have last := Option.some.inj ((shutdown_closes owned).symm.trans shut)
      rw [← last]
      have closes : Homely members c (c.close s) := .does (.close s) trivial
      have rests : Homely members (Schedule.settle (c.close s)) ((Schedule.settle (c.close s)).rest s) :=
        .does (.adjust s fun kept => kept.stop.1.clear) trivial
      exact .head closes ((settle_homely _).trans (.head rests (settle_homely _)))

theorem drop_homely (id : NodeId) (c : Cluster) : ReflTransGen (Homely members) c (c.drop id) := by
  unfold drop
  split
  · exact .refl
  · next s r owned => exact .head (.does (.abandon s) trivial) (settle_homely _)

theorem tend_homely (id : NodeId) (f : Detector → Detector) (c : Cluster) :
    ReflTransGen (Homely members) c (c.tend id f) := by
  unfold tend
  split
  · exact .refl
  · next s r owned =>
      have lives : c.residents.find? s = some r := by
        simp only [owned?,Option.bind_eq_bind,Option.bind_eq_some_iff] at owned
        obtain ⟨t,_,q,lives,same⟩ := owned
        split at same
        · cases same
          exact lives
        · cases same
      have adjusts : Homely members c (c.does (.adjust s f)) := .does (.adjust s f) trivial
      rw [does,adjust,change_exact lives] at adjusts
      rw [setStation,change_exact lives]
      exact .head adjusts (settle_homely _)

theorem reshape_homely (o : Partition.Order) (c : Cluster) : ReflTransGen (Homely members) c (c.reshape fun net => net.obey o) := by
  have severs : Homely members c (c.does (.sever fun p => p.obey o)) := .does _ ⟨o,rfl⟩
  have same : c.does (.sever fun p => p.obey o) = {c with network := c.network.obey o} := by cases o <;> rfl
  exact .head (same ▸ severs) (settle_homely _)

theorem told_homely (c : Cluster) : Homely members c c.told := .aside rfl rfl rfl fun _ => rfl

theorem hear_homely {id : NodeId} (heard : c.nextChange id = some (reading,latest,next)) : Homely members c next := by
  simp only [nextChange,Option.bind_eq_bind,Option.bind_eq_some_iff] at heard
  obtain ⟨s,_,r,lives,same⟩ := heard
  cases same
  rw [change_exact lives]
  refine .aside rfl rfl rfl ?_
  intro t
  dsimp only
  rw [Directory.find?_put]
  by_cases own : t = s
  · rw [own,Function.update_self,lives]
    rfl
  · rw [Function.update_of_ne own]

-- What is asked of a cluster from one time to the next.
inductive Order where
  | start (config : Config)
  | shutdown (id : NodeId)
  | drop (id : NodeId)
  | part (o : Partition.Order)
  | run (ms : Nat)
  | hear (id : NodeId)
  | tend (id : NodeId) (f : Detector → Detector)
  | tell

def Order.Proper (members : List Member) : Order → Prop
  | .start config => config.members = members
  | _ => True

def obey (c : Cluster) : Order → Cluster
  | .start config => (c.start config).2
  | .shutdown id => (c.shutdown id).getD c
  | .drop id => c.drop id
  | .part o => c.reshape fun net => net.obey o
  | .run ms => c.run ms
  | .hear id => ((c.nextChange id).map fun heard => heard.2.2).getD c
  | .tend id f => c.tend id f
  | .tell => c.told

theorem obey_homely (orderly : c.Orderly) {o : Order} (proper : o.Proper members) :
    ReflTransGen (Homely members) c (c.obey o) := by
  cases o with
  | start config => exact start_homely orderly proper
  | shutdown id =>
      cases shut : c.shutdown id with
      | none =>
          rw [obey,shut]
          exact .refl
      | some next =>
          rw [obey,shut]
          exact shutdown_homely shut
  | drop id => exact drop_homely id c
  | part o => exact reshape_homely o c
  | run ms => exact run_homely ms c
  | hear id =>
      cases heard : c.nextChange id with
      | none =>
          rw [obey,heard]
          exact .refl
      | some parts =>
          rw [obey,heard]
          exact .single (hear_homely heard)
  | tend id f => exact tend_homely id f c
  | tell => exact .single (told_homely c)

-- Any orders to a new cluster make a run of what its members and their owners do.
theorem orders_homely (draws : Draws) (os : List Order) (proper : ∀ o ∈ os, o.Proper members) :
    ∃ past, (system members).Course (os.foldl obey (create draws)) past := by
  induction os using List.reverseRecOn with
  | nil => exact ⟨[],.begun ⟨draws,rfl⟩⟩
  | append_singleton before o ih =>
      obtain ⟨past,course⟩ := ih fun o present => proper o (List.mem_append_left _ present)
      rw [List.foldl_concat]
      have steps := obey_homely course.orderly.1 (proper o (List.mem_append_right _ (List.mem_singleton_self o)))
      obtain ⟨since,later,_⟩ := course.extend (fun _ _ => id) (fun c => .clock c.now) steps
      exact ⟨_,later⟩

end Cluster
end LeaderElection
