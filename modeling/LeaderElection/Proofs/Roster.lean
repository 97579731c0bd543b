import LeaderElection.Member
import Mathlib.Data.Finset.Card

namespace LeaderElection

namespace Roster

variable {me : NodeId} {members : List Member} {r : Roster}

theorem firstRepeat_none (seen ids : List NodeId) :
    firstRepeat seen ids = none ↔ ids.Nodup ∧ ∀ id ∈ ids, id ∉ seen := by
  induction ids generalizing seen with
  | nil => simp [firstRepeat]
  | cons id rest ih =>
      by_cases repeated : id ∈ seen
      · simp [firstRepeat,repeated]
      · simp only [firstRepeat,repeated,if_false,ih,List.nodup_cons,List.mem_cons]
        constructor
        · rintro ⟨distinct,new⟩
          refine ⟨⟨fun again => new id again (.inl rfl),distinct⟩,?_⟩
          rintro other (rfl | later)
          · exact repeated
          · exact fun old => new other later (.inr old)
        · rintro ⟨⟨single,distinct⟩,new⟩
          refine ⟨distinct,?_⟩
          rintro other later (rfl | old)
          · exact single later
          · exact new other (.inr later) old

-- What it takes to be admitted, and what a roster then holds.
theorem ofMembers_exact : ofMembers me members = .ok r ↔
    (members.map Member.id).Nodup ∧ ∃ self, members.find? (fun m => m.id == me) = some self ∧
      r = ⟨me,self.address,members.filter (fun m => m.id != me)⟩ := by
  unfold ofMembers
  cases repeated : firstRepeat [] (members.map Member.id) with
  | some id =>
      have notDistinct : ¬ (members.map Member.id).Nodup := by
        intro distinct
        have none := (firstRepeat_none [] _).mpr ⟨distinct,by simp⟩
        rw [repeated] at none
        cases none
      simp [notDistinct]
  | none =>
      have distinct := ((firstRepeat_none [] _).mp repeated).1
      cases found : members.find? (fun m => m.id == me) with
      | none => simp
      | some self => simp [distinct,eq_comm]

theorem ofMembers_accepts (distinct : (members.map Member.id).Nodup) (self : m ∈ members) :
    ∃ r, ofMembers m.id members = .ok r := by
  cases found : members.find? (fun m' => m'.id == m.id) with
  | none => simpa using List.find?_eq_none.mp found m self
  | some self => exact ⟨_,ofMembers_exact.mpr ⟨distinct,self,found,rfl⟩⟩

theorem ofMembers_me (accepted : ofMembers me members = .ok r) : r.me = me := by
  obtain ⟨_,self,_,rfl⟩ := ofMembers_exact.mp accepted
  rfl

theorem ofMembers_self (accepted : ofMembers me members = .ok r) : ⟨me,r.address⟩ ∈ members := by
  obtain ⟨_,self,found,rfl⟩ := ofMembers_exact.mp accepted
  have own : self.id = me := by simpa using List.find?_some found
  have present := List.mem_of_find?_eq_some found
  rw [← own]
  exact present

theorem ofMembers_peers (accepted : ofMembers me members = .ok r) (m : Member) :
    m ∈ r.peers ↔ m ∈ members ∧ m.id ≠ me := by
  obtain ⟨_,self,_,rfl⟩ := ofMembers_exact.mp accepted
  simp

-- Its members are those of the list, neither more nor fewer.
theorem ofMembers_contains (accepted : ofMembers me members = .ok r) (id : NodeId) :
    r.contains id = true ↔ id ∈ members.map Member.id := by
  have self := ofMembers_self accepted
  simp only [contains,List.contains_iff_mem,ids,List.mem_cons,List.mem_map,ofMembers_peers accepted,
    ofMembers_me accepted]
  constructor
  · rintro (rfl | ⟨m,⟨present,_⟩,rfl⟩)
    · exact ⟨_,self,rfl⟩
    · exact ⟨m,present,rfl⟩
  · rintro ⟨m,present,rfl⟩
    by_cases own : m.id = me
    · exact .inl own
    · exact .inr ⟨m,⟨present,own⟩,rfl⟩

-- Nobody is left out and nobody is counted twice.
theorem filter_length (distinct : (members.map Member.id).Nodup) (self : m ∈ members) :
    (members.filter (fun m' => m'.id != m.id)).length+1 = members.length := by
  induction members with
  | nil => cases self
  | cons head rest ih =>
      obtain ⟨new,distinct⟩ := List.nodup_cons.mp distinct
      rcases List.mem_cons.mp self with rfl | later
      · have others : rest.filter (fun m' => m'.id != m.id) = rest := by
          refine List.filter_eq_self.mpr ?_
          intro other present
          have differ : other.id ≠ m.id := fun same => new (same ▸ List.mem_map_of_mem present)
          simpa using differ
        simp [others]
      · have differ : head.id ≠ m.id := fun same => new (same ▸ List.mem_map_of_mem later)
        simp [differ,ih distinct later]

theorem ofMembers_size (accepted : ofMembers me members = .ok r) : r.size = members.length := by
  have self := ofMembers_self accepted
  obtain ⟨distinct,_,_,rfl⟩ := ofMembers_exact.mp accepted
  exact filter_length distinct self

theorem ofMembers_distinct (accepted : ofMembers me members = .ok r) :
    (r.peers.map Member.id).Nodup ∧ me ∉ r.peers.map Member.id := by
  refine ⟨?_,?_⟩
  · obtain ⟨distinct,_,_,rfl⟩ := ofMembers_exact.mp accepted
    exact (List.filter_sublist.map Member.id).nodup distinct
  · intro own
    obtain ⟨m,present,same⟩ := List.mem_map.mp own
    exact ((ofMembers_peers accepted m).mp present).2 same

end Roster

-- Any two majorities of the same members have a member in common.
theorem quorums_meet {ids one two : List NodeId} (distinctOne : one.Nodup) (distinctTwo : two.Nodup)
    (membersOne : ∀ id ∈ one, id ∈ ids) (membersTwo : ∀ id ∈ two, id ∈ ids)
    (largeOne : quorum ids.length ≤ one.length) (largeTwo : quorum ids.length ≤ two.length) :
    ∃ id, id ∈ one ∧ id ∈ two := by
  have countOne := List.toFinset_card_of_nodup distinctOne
  have countTwo := List.toFinset_card_of_nodup distinctTwo
  have countAll := List.toFinset_card_le ids
  have crowded : ids.toFinset.card < one.toFinset.card + two.toFinset.card := by
    unfold quorum at largeOne largeTwo
    omega
  have withinOne : one.toFinset ⊆ ids.toFinset := by
    intro id present
    simpa using membersOne id (by simpa using present)
  have withinTwo : two.toFinset ⊆ ids.toFinset := by
    intro id present
    simpa using membersTwo id (by simpa using present)
  obtain ⟨id,common⟩ := Finset.inter_nonempty_of_card_lt_card_add_card withinOne withinTwo crowded
  obtain ⟨inOne,inTwo⟩ := Finset.mem_inter.mp common
  exact ⟨id,List.mem_toFinset.mp inOne,List.mem_toFinset.mp inTwo⟩

def trio : List Member := [⟨⟨"a"⟩,⟨"a",100⟩⟩,⟨⟨"b"⟩,⟨"b",100⟩⟩,⟨⟨"c"⟩,⟨"c",100⟩⟩]

end LeaderElection
