import LeaderElection.Proofs.Mesh.Basic
import LeaderElection.Proofs.Node.Round
import LeaderElection.Proofs.Node.Vote

namespace LeaderElection

namespace Node

variable {n : Node} {d : Deed} {t : Term} {peers : List NodeId}

-- In term `t` a node does not lead, and as a candidate it has no vote beyond its own and those of `peers`.
def Short (t : Term) (peers : List NodeId) (n : Node) : Prop := n.term = t → n.role ≠ .leader ∧
  ∀ votes timer, n.standing.office = .candidate votes timer → votes ⊆ n.me :: peers

theorem follower_short (idle : n.standing.office = .follower leader timer) : n.Short t peers := by
  unfold Short role Standing.role
  rw [idle]
  exact fun _ => ⟨nofun,nofun⟩

theorem candidate_short (running : n.standing.office = .candidate votes timer) (within : votes ⊆ n.me :: peers) :
    n.Short t peers := by
  unfold Short role Standing.role
  rw [running]
  refine fun _ => ⟨nofun,?_⟩
  intro votes' timer' same
  cases same
  exact within

theorem Short.counted (short : n.Short n.term peers) (running : n.standing.office = .candidate votes timer)
    (known : peer ∈ peers) : tally peer votes ⊆ n.me :: peers := by
  intro v present
  rcases tally_mem.mp present with rfl | before
  · exact List.mem_cons_of_mem _ known
  · exact (short rfl).2 votes timer running before

-- So few peers are no majority together with the node itself.
theorem few_short {votes : List NodeId} (distinct : votes.Nodup) (within : votes ⊆ n.me :: peers)
    (few : peers.length < n.roster.size/2) : votes.length < quorum n.roster.size := by
  have count := (List.subperm_of_subset distinct within).length_le
  rw [List.length_cons] at count
  unfold quorum
  omega

theorem few_accompanied (few : peers.length < n.roster.size/2) : ¬ quorum n.roster.size ≤ 1 := by
  unfold quorum
  omega

theorem Short.does (short : n.Short t peers) (coherent : n.Coherent) (few : peers.length < n.roster.size/2)
    (told : ∀ now draw peer reply, d = .call now draw (.voteReply peer t (.ok reply)) → peer ∈ peers) :
    (n.does d).Short t peers := by
  have own : (n.does d).me = n.me := congrArg Roster.me (does_roster d n)
  have shift := does_shift d n
  generalize n.does d = next at own shift ⊢
  cases shift with
  | same term role _ votes =>
      intro current
      obtain ⟨yet,within⟩ := short (term.symm.trans current)
      refine ⟨role ▸ yet,?_⟩
      intro votes' timer running
      obtain ⟨timer',before⟩ := votes votes' timer running
      exact own ▸ within votes' timer' before
  | freed office => exact follower_short office
  | followed office _ => exact follower_short office
  | stood office => exact candidate_short office (own ▸ List.cons_subset_cons _ (List.nil_subset peers))
  | sole _ alone => exact absurd alone (few_accompanied few)
  | counted running _ term office =>
      intro current
      obtain rfl : n.term = t := term.symm.trans current
      exact candidate_short office (own ▸ short.counted running (told _ _ _ _ rfl)) current
  | elected running _ term office enough =>
      intro current
      obtain rfl : n.term = t := term.symm.trans current
      have within := short.counted running (told _ _ _ _ rfl)
      have distinct := (coherent.votes _ _ running).2.1
      exact absurd enough (Nat.not_le_of_lt (few_short (tally_nodup _ distinct) within few))

theorem Begins.short (begins : n.Begins t d) (few : peers.length < n.roster.size/2) : (n.does d).Short t peers := by
  rcases begins.parts with ⟨alone,_⟩ | ⟨_,now,draw,after⟩
  · exact absurd alone (few_accompanied few)
  · rw [after]
    exact candidate_short rfl (List.cons_subset_cons _ (List.nil_subset peers))

end Node

namespace Mesh

variable {members : List Member} {a b : Mesh} {since past : List Mesh} {x y : Nat} {n : Node} {t : Term} {peers : List NodeId}

-- Of the requests of a life in term `t` none but those to `peers` has been let through.
def Lets (peers : List NodeId) (t : Term) (x : Nat) (a : Mesh) : Prop := ∀ l stage, (l,stage) ∈ a.letters →
  l.sender = x → l.request.term = t → stage.Through → l.peer.id ∈ peers

-- Nor has any other vote come in.
structure Confined (peers : List NodeId) (t : Term) (a : Mesh) (x : Nat) (n : Node) : Prop where
  lets : a.Lets peers t x
  short : n.Short t peers

-- Whatever the network lets through at this moment is one of `peers`.
def Within (peers : List NodeId) (roster : Roster) (a : Mesh) : Prop :=
  ∀ p ∈ roster.peers, a.network.partition.allows roster.address p.address = true → p.id ∈ peers

theorem Moves.lets (moves : Moves members a b) (sound : Sound members a) (lived : a.node x = some n)
    (within : a.Within peers n.roster) (before : a.Lets peers t x) : b.Lets peers t x := by
  rintro l stage present rfl term through
  cases moves.stages l stage present with
  | kept known => exact before l stage known rfl term through
  | asked _ _ _ => exact through.elim
  | onward known passed =>
      rcases passed through with early | allowed
      · exact before l _ known rfl term early
      · obtain ⟨origin,peer,_⟩ := sound.sender l _ known n lived
        exact within l.peer peer (origin ▸ allowed)

-- What is asked for in one step has not been let through in it.
theorem Moves.unsent (moves : Moves members a b)
    (unsent : ∀ l stage, (l,stage) ∈ a.letters → l.sender = x → l.request.term ≠ t) : b.Lets peers t x := by
  intro l stage present asker term through
  cases moves.stages l stage present with
  | kept known => exact absurd term (unsent l stage known asker)
  | asked _ _ _ => exact through.elim
  | onward known _ => exact absurd term (unsent l _ known asker)

-- One step, for a life that goes on and for one that begins.
theorem Confined.moves (moves : Moves members a b) (sound : Sound members a)
    (before : ∀ n, a.node x = some n → n.me = i → Confined peers t a x n)
    (within : ∀ roster, Roster.ofMembers i members = .ok roster → a.Within peers roster)
    (few : peers.length < members.length/2) (lives : b.node x = some n) (own : n.me = i) :
    Confined peers t b x n := by
  have settled : ∀ n, a.node x = some n → n.me = i → n.roster.size = members.length ∧ a.Within peers n.roster := by
    intro n lived own
    obtain ⟨_,j,accepted⟩ := sound.admitted x n lived
    have same : j = i := (Roster.ofMembers_me accepted).symm.trans own
    exact ⟨Roster.ofMembers_size accepted,within n.roster (same ▸ accepted)⟩
  cases moves.lives x n lives with
  | kept lived =>
      have confined := before n lived own
      exact ⟨moves.lets sound lived (settled n lived own).2 confined.lets,confined.short⟩
  | @does n d lived told =>
      have own : n.me = i := (congrArg Roster.me (n.does_roster d)).symm.trans own
      have confined := before n lived own
      obtain ⟨size,within⟩ := settled n lived own
      refine ⟨moves.lets sound lived within confined.lets,?_⟩
      refine confined.short.does (sound.admitted x n lived).1 (size ▸ few) ?_
      intro now draw peer reply same
      obtain ⟨l,ended,asker,term,rfl⟩ := told now draw peer t reply same
      exact confined.lets l _ ended asker term trivial
  | born fresh _ accepted now draw timings =>
      refine ⟨moves.unsent ?_,Node.follower_short rfl⟩
      rintro l stage known rfl
      exact absurd (sound.asked l stage known) (Nat.not_lt_of_le fresh)

-- At its outset a candidacy has asked for votes, but none of the requests has been let through.
theorem Confined.begun (moves : Moves members a b) (sound : Sound members a) (lived : a.node x = some n)
    (begins : n.Begins t d) (few : peers.length < n.roster.size/2) : Confined peers t b x (n.does d) := by
  refine ⟨moves.unsent ?_,begins.short few⟩
  rintro l stage known rfl rfl
  have reached : l.request.term.number ≤ n.term.number := (sound.sender l stage known n lived).2.2
  have next := begins.next_number
  omega

-- The life that stands, and every later one of the same member.
def Confines (peers : List NodeId) (t : Term) (i : NodeId) (x count : Nat) (a : Mesh) : Prop :=
  ∀ y, y = x ∨ count ≤ y → ∀ n, a.node y = some n → n.me = i → Confined peers t a y n

-- The peers whose addresses a member could send to at one of these moments.
def reached (roster : Roster) (moments : List Mesh) : List Member :=
  roster.peers.filter fun p => moments.any fun m => m.network.partition.allows roster.address p.address

theorem reached_within {moments : List Mesh} (present : m ∈ moments) (roster : Roster) :
    m.Within ((reached roster moments).map Member.id) roster := by
  intro p peer allowed
  exact List.mem_map_of_mem (List.mem_filter.mpr ⟨peer,List.any_eq_true.mpr ⟨m,present,allowed⟩⟩)

-- From the moment of a candidacy on, neither the life that stands nor any that the same member begins later
-- leads in its term.
theorem minority_cannot_elect (course : Course members (since ++ b :: a :: past)) (lives : a.node x = some n)
    (begins : n.Begins t (.call now draw c)) (stood : b = a.act x (n.apply now draw c))
    (few : (reached n.roster (since ++ [b])).length < members.length/2) :
    ∀ m ∈ since ++ [b], ∀ y n', y = x ∨ b.count ≤ y → m.node y = some n' → n'.me = n.me → ¬ n'.Leads t := by
  obtain ⟨earlier,step⟩ : (system members).Course a past ∧ Step members a b := by
    cases course.before with
    | step course step => exact ⟨course,step⟩
  have sound := earlier.sound
  obtain ⟨_,i,accepted⟩ := sound.admitted x n lives
  have own : n.me = i := Roster.ofMembers_me accepted
  have few : ((reached n.roster (since ++ [b])).map Member.id).length < members.length/2 := by
    rwa [List.length_map]
  have first : b.Confines ((reached n.roster (since ++ [b])).map Member.id) t i x b.count := by
    rintro y (rfl | fresh) n' lives' _
    · have self : b.node y = some (n.does (.call now draw c)) := by
        rw [stood]
        exact Function.update_self ..
      cases self.symm.trans lives'
      exact .begun step.moves sound lives begins (Roster.ofMembers_size accepted ▸ few)
    · exact absurd ((sound.moves step.moves).begun y n' lives') (Nat.not_lt_of_le fresh)
  have confined := course.along first fun m present m' early step before y later n' lives' own' => by
    obtain ⟨_,early⟩ := early
    refine Confined.moves step.moves early.sound (before y later) ?_ few lives' own'
    intro roster accepted'
    cases accepted.symm.trans accepted'
    exact reached_within present n.roster
  intro m present y n' later lives' own' leads
  exact ((confined m present y later n' lives' (own'.trans own)).short leads.1).1 leads.2

-- The first of three members stands, and the vote of the second comes back to it before it is cut off. It
-- stands again, and then hears of that vote.
def trioParted : Run trio :=
  let nobody : Run trio := ⟨empty,[],.begun rfl⟩
  let first := nobody.step (.start 0 5 (x := 0) (i := ⟨"a"⟩) ⟨1,⟨5,10⟩,1⟩ rfl (Nat.le_refl _) rfl)
  let second := first.step (.start 0 5 (x := 1) (i := ⟨"b"⟩) ⟨1,⟨5,10⟩,1⟩ rfl (Nat.le_refl _) rfl)
  let stood := second.step (.own 5 5 (x := 0) rfl (.inl rfl))
  let sent := stood.step (.send (.head _))
  let answered := sent.step (.answer 5 5 (x := 1) (.head _) rfl)
  let back := answered.step (.bring (.head _))
  back.step (.isolate ⟨"a",100⟩)

def trioStood : Run trio := trioParted.step (.own 6 5 (x := 0) rfl (.inl rfl))

def trioLate : Run trio := trioStood.step (.tell 7 5 (.tail _ (.tail _ (.head _))) rfl)

theorem late_vote_wins_nothing : ∃ n, trioLate.now.node 0 = some n ∧ n.status.term.number = 2 ∧ n.status.role ≠ .leader := by
  refine ⟨_,rfl,rfl,fun leads => ?_⟩
  have course : Course trio ([trioLate.now] ++ trioStood.now :: trioParted.now :: trioParted.past) := trioLate.course
  have lives : trioParted.now.node 0 = some _ := rfl
  exact minority_cannot_elect (c := .candidacy) course lives ⟨trivial,rfl⟩ rfl (by decide)
    _ (.head _) 0 _ (.inl rfl) rfl rfl ⟨rfl,leads⟩

end Mesh
end LeaderElection
