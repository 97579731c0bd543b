import LeaderElection.Proofs.Roster
import Mathlib.Data.List.Perm.Basic

namespace LeaderElection

namespace Roster

-- An id stands where it has occurred further left, and no id does so before it.
def Recurs (id : NodeId) (ids : List NodeId) : Prop :=
  ∃ before after, ids = before ++ id :: after ∧ id ∈ before ∧ before.Nodup

variable {me id : NodeId} {members : List Member} {r : Roster}

theorem firstRepeat_some (seen ids : List NodeId) : firstRepeat seen ids = some id ↔
    ∃ before after, ids = before ++ id :: after ∧ (id ∈ seen ∨ id ∈ before) ∧ before.Nodup ∧
      ∀ x ∈ before, x ∉ seen := by
  induction ids generalizing seen with
  | nil => simp [firstRepeat]
  | cons head rest ih =>
      by_cases repeated : head ∈ seen
      · rw [firstRepeat,if_pos repeated]
        constructor
        · intro same
          cases same
          exact ⟨[],rest,rfl,.inl repeated,List.nodup_nil,fun _ present => absurd present List.not_mem_nil⟩
        · rintro ⟨before,after,split,_,_,new⟩
          cases before with
          | nil =>
              cases split
              rfl
          | cons first before =>
              cases split
              exact absurd repeated (new head List.mem_cons_self)
      · rw [firstRepeat,if_neg repeated,ih]
        constructor
        · rintro ⟨before,after,rfl,occurred,distinct,new⟩
          refine ⟨head :: before,after,rfl,?_,?_,?_⟩
          · rcases occurred with old | earlier
            · rcases List.mem_cons.mp old with rfl | old
              · exact .inr List.mem_cons_self
              · exact .inl old
            · exact .inr (List.mem_cons_of_mem _ earlier)
          · exact List.nodup_cons.mpr ⟨fun again => new head again List.mem_cons_self,distinct⟩
          · intro x present old
            rcases List.mem_cons.mp present with rfl | later
            · exact repeated old
            · exact new x later (List.mem_cons_of_mem _ old)
        · rintro ⟨before,after,split,occurred,distinct,new⟩
          cases before with
          | nil =>
              cases split
              exact absurd (occurred.resolve_right List.not_mem_nil) repeated
          | cons first before =>
              cases split
              obtain ⟨single,distinct⟩ := List.nodup_cons.mp distinct
              refine ⟨before,after,rfl,?_,distinct,?_⟩
              · rcases occurred with old | earlier
                · exact .inl (List.mem_cons_of_mem _ old)
                · rcases List.mem_cons.mp earlier with rfl | earlier
                  · exact .inl List.mem_cons_self
                  · exact .inr earlier
              · intro x present old
                rcases List.mem_cons.mp old with rfl | old
                · exact single present
                · exact new x (List.mem_cons_of_mem _ present) old

theorem firstRepeat_recurs (ids : List NodeId) : firstRepeat [] ids = some id ↔ Recurs id ids := by
  simp [firstRepeat_some,Recurs]

-- Some id comes first to be repeated where any is.
theorem recurs_exists {ids : List NodeId} : (∃ id, Recurs id ids) ↔ ¬ ids.Nodup := by
  have fresh : firstRepeat [] ids = none ↔ ids.Nodup := by simp [firstRepeat_none]
  rw [← fresh,← Ne,← Option.isSome_iff_ne_none,Option.isSome_iff_exists]
  exact exists_congr fun id => (firstRepeat_recurs ids).symm

-- A repeated id is what is wrong with a list, whatever else is.
theorem ofMembers_repeated : ofMembers me members = .error (.repeated id) ↔ Recurs id (members.map Member.id) := by
  rw [← firstRepeat_recurs]
  unfold ofMembers
  cases firstRepeat [] (members.map Member.id) with
  | some other => simp
  | none => cases members.find? (fun m => m.id == me) <;> simp

theorem find_none : members.find? (fun m => m.id == me) = none ↔ me ∉ members.map Member.id := by
  simp [List.find?_eq_none]

theorem ofMembers_missing (distinct : (members.map Member.id).Nodup) (absent : me ∉ members.map Member.id) :
    ofMembers me members = .error (.meMissing me) := by
  have fresh : firstRepeat [] (members.map Member.id) = none := (firstRepeat_none [] _).mpr ⟨distinct,by simp⟩
  unfold ofMembers
  rw [fresh,find_none.mpr absent]

theorem ofMembers_accepted : (∃ r, ofMembers me members = .ok r) ↔
    (members.map Member.id).Nodup ∧ me ∈ members.map Member.id := by
  constructor
  · rintro ⟨r,accepted⟩
    exact ⟨(ofMembers_exact.mp accepted).1,List.mem_map_of_mem (ofMembers_self accepted)⟩
  · rintro ⟨distinct,present⟩
    obtain ⟨m,listed,rfl⟩ := List.mem_map.mp present
    exact ofMembers_accepts distinct listed

-- The order of a list decides about nothing but the order of the peers.
theorem ofMembers_perm {listed : List Member} (same : listed.Perm members) (accepted : ofMembers me members = .ok r) :
    ∃ r', ofMembers me listed = .ok r' ∧ r'.me = r.me ∧ r'.address = r.address ∧ r'.peers.Perm r.peers := by
  have distinct := (ofMembers_exact.mp accepted).1
  have own := ofMembers_self accepted
  obtain ⟨r',accepted'⟩ : ∃ r', ofMembers me listed = .ok r' :=
    ofMembers_accepts ((same.map Member.id).nodup_iff.mpr distinct) (same.mem_iff.mpr own)
  have own' := same.mem_iff.mp (ofMembers_self accepted')
  have address : r'.address = r.address :=
    congrArg Member.address (List.inj_on_of_nodup_map distinct own' own rfl)
  refine ⟨r',accepted',(ofMembers_me accepted').trans (ofMembers_me accepted).symm,address,?_⟩
  obtain ⟨_,_,_,rfl⟩ := ofMembers_exact.mp accepted
  obtain ⟨_,_,_,rfl⟩ := ofMembers_exact.mp accepted'
  exact same.filter _

theorem ofMembers_once (accepted : ofMembers me members = .ok r) : r.peers.Nodup :=
  (ofMembers_distinct accepted).1.of_map

end Roster

theorem quorum_le (size : Nat) (inhabited : 0 < size) : quorum size ≤ size := by
  unfold quorum
  omega

namespace Roster

-- Who is admitted, what is wrong with any other list, and that majorities of those admitted meet.
theorem admission_exact (me : NodeId) (members : List Member) :
    ((∃ r, ofMembers me members = .ok r) ↔ (members.map Member.id).Nodup ∧ me ∈ members.map Member.id) ∧
    (∀ id, ofMembers me members = .error (.repeated id) ↔ Recurs id (members.map Member.id)) ∧
    (¬ (members.map Member.id).Nodup → ∃ id, ofMembers me members = .error (.repeated id)) ∧
    ((members.map Member.id).Nodup → me ∉ members.map Member.id → ofMembers me members = .error (.meMissing me)) ∧
    ∀ r, ofMembers me members = .ok r →
      r.size = members.length ∧ (∀ id, r.contains id = true ↔ id ∈ members.map Member.id) ∧
      r.me = me ∧ ⟨me,r.address⟩ ∈ members ∧ r.peers.Nodup ∧ (∀ m, m ∈ r.peers ↔ m ∈ members ∧ m ≠ ⟨me,r.address⟩) ∧
      (∀ listed, listed.Perm members → ∃ r', ofMembers me listed = .ok r' ∧
        r'.me = r.me ∧ r'.address = r.address ∧ r'.peers.Perm r.peers) ∧
      quorum r.size ≤ r.size ∧
      ∀ one two : Finset NodeId, (∀ id ∈ one, r.contains id = true) → (∀ id ∈ two, r.contains id = true) →
        quorum r.size ≤ one.card → quorum r.size ≤ two.card → ∃ id, id ∈ one ∧ id ∈ two := by
  refine ⟨ofMembers_accepted,fun id => ofMembers_repeated,?_,ofMembers_missing,?_⟩
  · intro repeated
    obtain ⟨id,recurs⟩ := recurs_exists.mpr repeated
    exact ⟨id,ofMembers_repeated.mpr recurs⟩
  · intro r accepted
    have contained := ofMembers_contains accepted
    have size := ofMembers_size accepted
    have own := ofMembers_self accepted
    refine ⟨size,contained,ofMembers_me accepted,own,ofMembers_once accepted,?_,
      fun listed same => ofMembers_perm same accepted,quorum_le r.size (Nat.succ_pos _),?_⟩
    · intro m
      rw [ofMembers_peers accepted]
      refine and_congr_right fun listed => not_congr ?_
      constructor
      · exact fun same => List.inj_on_of_nodup_map (ofMembers_exact.mp accepted).1 listed own same
      · rintro rfl
        rfl
    · intro one two oneListed twoListed largeOne largeTwo
      rw [size,← List.length_map Member.id] at largeOne largeTwo
      rw [← Finset.length_toList] at largeOne largeTwo
      obtain ⟨id,inOne,inTwo⟩ := quorums_meet one.nodup_toList two.nodup_toList
        (fun id present => (contained id).mp (oneListed id (Finset.mem_toList.mp present)))
        (fun id present => (contained id).mp (twoListed id (Finset.mem_toList.mp present))) largeOne largeTwo
      exact ⟨id,Finset.mem_toList.mp inOne,Finset.mem_toList.mp inTwo⟩

-- Two ids are repeated and the own one is missing. The first place to repeat any is the third.
example : ofMembers ⟨"a"⟩ [⟨⟨"b"⟩,⟨"b",1⟩⟩,⟨⟨"c"⟩,⟨"c",2⟩⟩,⟨⟨"c"⟩,⟨"c",3⟩⟩,⟨⟨"b"⟩,⟨"b",4⟩⟩] =
    .error (.repeated ⟨"c"⟩) := by decide

end Roster
end LeaderElection
