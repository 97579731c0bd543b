import LeaderElection.Basic
import Mathlib.Data.List.Induction
import Mathlib.Data.List.Nodup
import Mathlib.Data.List.Perm.Basic
import Mathlib.Logic.Function.Basic
import Mathlib.Order.Bounds.Defs

namespace LeaderElection

namespace Term

-- Terms are compared by their numbers, so their order is left to arithmetic.
theorem ext {a b : Term} (same : a.number = b.number) : a = b := by
  cases a
  cases b
  cases same
  rfl

theorem lt_iff {a b : Term} : a < b ↔ a.number < b.number := Iff.rfl

theorem le_refl (a : Term) : a ≤ a := Nat.le_refl a.number

theorem lt_irrefl (a : Term) : ¬ a < a := Nat.lt_irrefl a.number

theorem lt_or_eq_of_le {a b : Term} (ab : a ≤ b) : a < b ∨ a = b :=
  (Nat.lt_or_eq_of_le ab).imp id ext

theorem eq_of_not_lt {a b : Term} (ab : a ≤ b) (current : ¬ a < b) : a = b :=
  (lt_or_eq_of_le ab).resolve_left current

theorem not_lt_iff {a b : Term} : ¬ a < b ↔ b ≤ a := Nat.not_lt

-- The successor is one more, and there is one everywhere but at the end.
theorem next_number {a b : Term} (began : a.next = some b) : b.number = a.number+1 := by
  unfold next ofNat? at began
  split at began
  · cases began; rfl
  · cases began

theorem lt_next {a b : Term} (began : a.next = some b) : a < b := by
  rw [lt_iff,next_number began]
  exact Nat.lt_succ_self _

def one : Term := ⟨1,by decide⟩

def last : Term := ⟨UInt64.size-1,by decide⟩

end Term

namespace Time

theorem le_wake (deadline : Nat) : deadline ≤ wake deadline := by
  unfold wake millisecond
  omega

theorem wake_dvd (deadline : Nat) : millisecond ∣ wake deadline := Nat.dvd_mul_left _ _

theorem wake_mono {t t' : Nat} (order : t ≤ t') : wake t ≤ wake t' :=
  Nat.mul_le_mul_right _ (Nat.div_le_div_right (Nat.add_le_add_right order _))

theorem passed_exact {deadline now : Nat} : passed deadline now = true ↔ wake deadline ≤ now := decide_eq_true_iff

-- Nobody is woken later than necessary.
theorem wake_le {deadline now : Nat} (whole : millisecond ∣ now) (reached : deadline ≤ now) : wake deadline ≤ now := by
  unfold wake millisecond at *
  omega

theorem wake_least (deadline : Nat) : IsLeast {instant | millisecond ∣ instant ∧ deadline ≤ instant} (wake deadline) :=
  ⟨⟨wake_dvd deadline,le_wake deadline⟩,fun _ later => wake_le later.1 later.2⟩

theorem wake_whole {deadline : Nat} (whole : millisecond ∣ deadline) : wake deadline = deadline :=
  Nat.le_antisymm (wake_le whole (Nat.le_refl _)) (le_wake deadline)

theorem wake_add (t : Nat) {span : Nat} (whole : millisecond ∣ span) : wake (t+span) = wake t+span := by
  unfold wake millisecond at *
  omega

-- When something is due that is done at the start, and again whenever an interval has passed since.
def beat (start interval : Nat) : Nat → Nat
  | 0 => start
  | k+1 => wake (beat start interval k+interval)

theorem beat_lt {start interval : Nat} (positive : 0 < interval) (k : Nat) :
    beat start interval k < beat start interval (k+1) :=
  Nat.lt_of_lt_of_le (Nat.lt_add_of_pos_right positive) (le_wake _)

-- An interval of whole milliseconds is rounded once, at the first of them.
theorem beat_later {interval : Nat} (whole : millisecond ∣ interval) (start k : Nat) :
    beat start interval (k+1) = wake (start+(k+1)*interval) := by
  induction k with
  | zero => rw [beat,beat,Nat.one_mul]
  | succ k ih =>
      rw [beat,ih,wake_add _ whole,wake_whole (wake_dvd _),Nat.succ_mul (k+1),← Nat.add_assoc,wake_add _ whole]

theorem beat_whole {start interval : Nat} (begins : millisecond ∣ start) (whole : millisecond ∣ interval) (k : Nat) :
    beat start interval k = start+k*interval := by
  cases k with
  | zero => rw [beat,Nat.zero_mul,Nat.add_zero]
  | succ k => rw [beat_later whole,wake_whole (Nat.dvd_add begins (Nat.dvd_trans whole (Nat.dvd_mul_left _ _)))]

end Time

-- Something began in the past, and nothing has ended it since.
def Since {α : Type} (begins ends : α → Prop) (past : List α) : Prop :=
  ∃ early x late, past = early ++ x :: late ∧ begins x ∧ ∀ y ∈ late, ¬ ends y

theorem not_since_nil {α : Type} {begins ends : α → Prop} : ¬ Since begins ends [] := by
  rintro ⟨early,x,late,split,_⟩
  cases early <;> cases split

theorem since_snoc {α : Type} {begins ends : α → Prop} {past : List α} {x : α} :
    Since begins ends (past ++ [x]) ↔ begins x ∨ ¬ ends x ∧ Since begins ends past := by
  constructor
  · rintro ⟨early,y,late,split,begun,lasting⟩
    rcases List.eq_nil_or_concat late with rfl | ⟨late,z,rfl⟩
    · obtain ⟨_,same⟩ := List.append_inj' split rfl
      cases same
      exact .inl begun
    · rw [List.concat_eq_append,← List.cons_append,← List.append_assoc] at split
      obtain ⟨rfl,same⟩ := List.append_inj' split rfl
      cases same
      rw [List.concat_eq_append] at lasting
      refine .inr ⟨lasting x (List.mem_append_right _ (List.mem_singleton_self x)),early,y,late,rfl,begun,?_⟩
      intro z later
      exact lasting z (List.mem_append_left _ later)
  · rintro (begun | ⟨lasts,early,y,late,rfl,begun,lasting⟩)
    · exact ⟨past,x,[],rfl,begun,nofun⟩
    · refine ⟨early,y,late ++ [x],by simp,begun,?_⟩
      intro z later
      rcases List.mem_append.mp later with before | now
      · exact lasting z before
      · cases List.mem_singleton.mp now
        exact lasts

namespace Directory

variable {κ α : Type} [DecidableEq κ]

theorem find?_remove (d : Directory κ α) {key other : κ} (differ : other ≠ key) :
    (d.remove key).find? other = d.find? other := by
  unfold find? remove
  rw [List.find?_filter]
  congr 2
  funext e
  by_cases same : e.1 = other <;> simp [same,differ]

theorem find?_remove_self (d : Directory κ α) (key : κ) : (d.remove key).find? key = none := by
  simp [find?,remove]

-- What is put is found under its key, and everything else as before.
theorem find?_put (d : Directory κ α) (key : κ) (value : α) :
    (d.put key value).find? = Function.update d.find? key (some value) := by
  funext other
  by_cases same : other = key
  · subst same
    simp [find?,put]
  · rw [Function.update_of_ne same,← find?_remove d same]
    have differ : ¬ key = other := fun same' => same same'.symm
    simp [find?,put,differ]

theorem find?_put_self (d : Directory κ α) (key : κ) (value : α) : (d.put key value).find? key = some value := by
  rw [find?_put,Function.update_self]

theorem find?_put_other (d : Directory κ α) {key other : κ} (differ : other ≠ key) (value : α) :
    (d.put key value).find? other = d.find? other := by
  rw [find?_put,Function.update_of_ne differ]

theorem find?_mem {d : Directory κ α} {key : κ} {value : α} (found : d.find? key = some value) :
    (key,value) ∈ d.entries := by
  obtain ⟨e,first,rfl⟩ := Option.map_eq_some_iff.mp found
  have same : e.1 = key := by simpa using List.find?_some first
  rw [← same]
  exact List.mem_of_find?_eq_some first

theorem remove_keys_mem {d : Directory κ α} {key other : κ} :
    other ∈ (d.remove key).keys ↔ other ≠ key ∧ other ∈ d.keys := by
  simp only [keys,remove,List.mem_map,List.mem_filter,decide_eq_true_eq]
  constructor
  · rintro ⟨e,⟨present,differ⟩,rfl⟩
    exact ⟨differ,e,present,rfl⟩
  · rintro ⟨differ,e,present,rfl⟩
    exact ⟨e,⟨present,differ⟩,rfl⟩

theorem put_keys (d : Directory κ α) (key : κ) (value : α) :
    (d.put key value).keys = key :: d.keys.filter (· ≠ key) := by
  simp only [keys,put,remove,List.map_cons,List.filter_map]
  rfl

theorem put_keys_mem {d : Directory κ α} {key other : κ} {value : α} :
    other ∈ (d.put key value).keys ↔ other = key ∨ other ∈ d.keys := by
  rw [put_keys]
  by_cases same : other = key <;> simp [same]

theorem put_keys_nodup {d : Directory κ α} (proper : d.keys.Nodup) (key : κ) (value : α) :
    (d.put key value).keys.Nodup := by
  rw [put_keys]
  exact List.nodup_cons.mpr ⟨by simp,proper.filter _⟩

theorem find?_removed (d : Directory κ α) (key : κ) : (d.remove key).find? = Function.update d.find? key none := by
  funext other
  by_cases same : other = key
  · rw [same,Function.update_self,find?_remove_self]
  · rw [Function.update_of_ne same,find?_remove d same]

theorem remove_put (d : Directory κ α) {key other : κ} (differ : other ≠ key) (value : α) :
    (d.put key value).remove other = (d.remove other).put key value := by
  have kept : ¬ key = other := fun same => differ same.symm
  simp [put,remove,kept,List.filter_filter,Bool.and_comm]

theorem remove_free {d : Directory κ α} {key other : κ} (free : d.find? other = none) : (d.remove key).find? other = none := by
  by_cases same : other = key
  · rw [same,find?_remove_self]
  · rw [find?_remove d same,free]

theorem remove_some {d : Directory κ α} {key other : κ} (found : (d.remove key).find? other = some value) :
    d.find? other = some value := by
  by_cases same : other = key
  · rw [same,find?_remove_self] at found
    cases found
  · rwa [find?_remove d same] at found

-- What is put under a free key and taken away again leaves everything as it was.
theorem put_remove {d : Directory κ α} {key : κ} (free : d.find? key = none) (value : α) :
    (d.put key value).remove key = d := by
  obtain ⟨entries⟩ := d
  have others : ∀ e ∈ entries, e.1 ≠ key := by simpa [find?] using free
  simpa [put,remove,List.filter_filter] using others

theorem remove_keys_nodup {d : Directory κ α} (proper : d.keys.Nodup) (key : κ) : (d.remove key).keys.Nodup :=
  (List.filter_sublist.map Prod.fst).nodup proper

theorem contains_false {d : Directory κ α} {key : κ} : d.contains key = false ↔ d.find? key = none :=
  Option.isSome_eq_false_iff.trans Option.isNone_iff_eq_none

-- Under a key that occurs once, the entry is what is found.
theorem entries_exact {d : Directory κ α} (proper : d.keys.Nodup) {key : κ} {value : α} :
    (key,value) ∈ d.entries ↔ d.find? key = some value := by
  constructor
  · intro present
    have found : (d.entries.find? fun e => e.1 = key).isSome := by
      rw [List.find?_isSome]
      exact ⟨_,present,decide_eq_true rfl⟩
    obtain ⟨e,first⟩ := Option.isSome_iff_exists.mp found
    have same : e.1 = key := by simpa using List.find?_some first
    have only := List.inj_on_of_nodup_map proper (List.mem_of_find?_eq_some first) present same
    rw [find?,first,only]
    rfl
  · exact find?_mem

-- A directory by serial numbers that holds a list of values, each under a number of its own.
structure Tracks (d : Directory Nat α) (next : Nat) (serials : List Nat) (values : List α) : Prop where
  under : serials.map d.find? = values.map some
  distinct : serials.Nodup
  keys : ∀ k ∈ d.keys, k ∈ serials
  below : ∀ k ∈ serials, k < next

variable {d : Directory Nat α} {next i : Nat} {serials : List Nat} {values : List α}

theorem Tracks.begun (next : Nat) : (empty : Directory Nat α).Tracks next [] [] := ⟨rfl,List.nodup_nil,nofun,nofun⟩

theorem Tracks.number (tracks : d.Tracks next serials values) {x : α} (found : values[i]? = some x) :
    ∃ k, serials[i]? = some k ∧ d.find? k = some x := by
  have same := congrArg (fun l => l[i]?) tracks.under
  simpa [found,Option.map_eq_some_iff] using same

theorem Tracks.value (tracks : d.Tracks next serials values) (present : k ∈ d.keys) :
    ∃ x ∈ values, d.find? k = some x := by
  have known : d.find? k ∈ serials.map d.find? := List.mem_map_of_mem (tracks.keys k present)
  rw [tracks.under] at known
  obtain ⟨x,held,found⟩ := List.mem_map.mp known
  exact ⟨x,held,found.symm⟩

theorem Tracks.put (tracks : d.Tracks next serials values) (x : α) :
    (d.put next x).Tracks (next+1) (serials ++ [next]) (values ++ [x]) := by
  have fresh : ∀ k ∈ serials, k ≠ next := fun k known => Nat.ne_of_lt (tracks.below k known)
  refine ⟨?_,?_,?_,?_⟩
  · have others : ∀ k ∈ serials, (d.put next x).find? k = d.find? k := by
      intro k known
      rw [find?_put,Function.update_of_ne (fresh k known)]
    rw [List.map_append,List.map_congr_left others,tracks.under]
    simp [find?_put]
  · refine List.nodup_append.mpr ⟨tracks.distinct,by simp,?_⟩
    intro k known j last
    rw [List.mem_singleton.mp last]
    exact fresh k known
  · intro k present
    rcases put_keys_mem.mp present with rfl | earlier
    · exact List.mem_append_right _ (List.mem_singleton_self _)
    · exact List.mem_append_left _ (tracks.keys k earlier)
  · intro k known
    rcases List.mem_append.mp known with earlier | last
    · exact Nat.lt_succ_of_lt (tracks.below k earlier)
    · cases List.mem_singleton.mp last
      exact Nat.lt_succ_self _

-- A value that is gone: its number is not used any more.
theorem Tracks.drop (tracks : d.Tracks next serials values) (numbered : serials[i]? = some gone) {d' : Directory Nat α}
    (others : ∀ k, k ≠ gone → d'.find? k = d.find? k) (keys : ∀ k ∈ d'.keys, k ≠ gone ∧ k ∈ d.keys) :
    d'.Tracks next (serials.eraseIdx i) (values.eraseIdx i) := by
  obtain ⟨short,rfl⟩ := List.getElem?_eq_some_iff.mp numbered
  have all := List.getElem_cons_eraseIdx_perm short
  obtain ⟨absent,distinct⟩ := List.nodup_cons.mp (all.nodup_iff.mpr tracks.distinct)
  refine ⟨?_,distinct,?_,?_⟩
  · have same : ∀ k ∈ serials.eraseIdx i, d'.find? k = d.find? k := by
      intro k known
      refine others k ?_
      rintro rfl
      exact absent known
    rw [List.map_congr_left same,← List.eraseIdx_map,tracks.under,List.eraseIdx_map]
  · intro k present
    obtain ⟨differ,earlier⟩ := keys k present
    exact (List.mem_cons.mp (all.mem_iff.mpr (tracks.keys k earlier))).resolve_left differ
  · intro k known
    exact tracks.below k (all.mem_iff.mp (List.mem_cons_of_mem _ known))

theorem Tracks.remove (tracks : d.Tracks next serials values) (numbered : serials[i]? = some gone) :
    (d.remove gone).Tracks next (serials.eraseIdx i) (values.eraseIdx i) :=
  tracks.drop numbered (fun _ differ => find?_remove d differ) fun _ => remove_keys_mem.mp

end Directory
end LeaderElection
