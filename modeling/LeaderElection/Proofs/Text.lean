import LeaderElection.Text.Basic
import Mathlib.Data.List.DropRight
import Mathlib.Data.List.Infix

namespace LeaderElection.Text

variable {mark c : Char} {s left right : List Char}

theorem separate_cons (differ : c ≠ mark) : ∃ first others,
    separate mark s = first :: others ∧ separate mark (c :: s) = (c :: first) :: others := by
  rw [separate,if_neg differ]
  cases s with
  | nil => exact ⟨[],[],rfl,rfl⟩
  | cons d rest =>
      rw [separate]
      split
      · exact ⟨_,_,rfl,rfl⟩
      · split <;> exact ⟨_,_,rfl,rfl⟩

-- A mark between two texts ends the last part of one and begins the first of the other.
theorem separate_append (mark : Char) (s u : List Char) :
    separate mark (s ++ mark :: u) = separate mark s ++ separate mark u := by
  induction s with
  | nil => exact if_pos rfl
  | cons c rest ih =>
      by_cases same : c = mark
      · rw [List.cons_append,separate,if_pos same,ih,separate,if_pos same,List.cons_append]
      · obtain ⟨first,others,parts,whole⟩ := separate_cons (s := rest) same
        obtain ⟨first',others',parts',whole'⟩ := separate_cons (s := rest ++ mark :: u) same
        rw [ih,parts,List.cons_append] at parts'
        cases parts'
        rw [List.cons_append,whole,whole',List.cons_append]

theorem separate_whole (absent : mark ∉ s) : separate mark s = [s] := by
  induction s with
  | nil => rfl
  | cons c rest ih =>
      obtain ⟨differ,absent⟩ := not_or.mp (mt List.mem_cons.mpr absent)
      rw [separate,if_neg (Ne.symm differ),ih absent]

theorem separate_free {part : List Char} (present : part ∈ separate mark s) : mark ∉ part := by
  induction s generalizing part with
  | nil =>
      rw [List.mem_singleton.mp present]
      exact List.not_mem_nil
  | cons c rest ih =>
      by_cases same : c = mark
      · rw [separate,if_pos same] at present
        rcases List.mem_cons.mp present with rfl | later
        · exact List.not_mem_nil
        · exact ih later
      · obtain ⟨first,others,parts,whole⟩ := separate_cons (s := rest) same
        rw [whole] at present
        rw [parts] at ih
        rcases List.mem_cons.mp present with rfl | later
        · rintro (_ | ⟨_,later⟩)
          · exact same rfl
          · exact ih List.mem_cons_self later
        · exact ih (List.mem_cons_of_mem _ later)

-- Parts without marks, joined by marks.
theorem separate_joined {parts : List (List Char)} (some : parts ≠ []) (free : ∀ part ∈ parts, mark ∉ part) :
    separate mark (List.intercalate [mark] parts) = parts := by
  induction parts with
  | nil => exact absurd rfl some
  | cons part rest ih =>
      have whole := separate_whole (free part List.mem_cons_self)
      cases rest with
      | nil => rwa [List.intercalate_singleton]
      | cons next rest =>
          have later := ih nofun fun p present => free p (List.mem_cons_of_mem _ present)
          rw [List.intercalate_cons_cons,List.append_assoc,List.singleton_append,separate_append,whole,later]
          rfl

theorem trim_blank : trim s = [] ↔ ∀ c ∈ s, isBlank c = true := by
  change (s.dropWhile isBlank).rdropWhile isBlank = [] ↔ _
  constructor
  · intro none c present
    by_contra solid
    have lasting := List.rdropWhile_eq_nil_iff.mp none
    have all : s.dropWhile isBlank = [] := by
      cases rest : s.dropWhile isBlank with
      | nil => rfl
      | cons d rest' =>
          have first := List.head?_dropWhile_not isBlank s
          rw [rest] at first lasting
          cases (lasting d List.mem_cons_self).symm.trans first
    exact solid (List.dropWhile_eq_nil_iff.mp all c present)
  · intro blank
    rw [List.dropWhile_eq_nil_iff.mpr blank,List.rdropWhile_nil]

theorem dropWhile_solid (solid : ∀ c ∈ s.head?, isBlank c = false) : s.dropWhile isBlank = s := by
  cases s with
  | nil => rfl
  | cons c rest => exact List.dropWhile_cons_of_neg (Bool.eq_false_iff.mp (solid c rfl))

-- What stands between blanks and is not blank at either end.
theorem trim_around (before : ∀ c ∈ left, isBlank c = true) (behind : ∀ c ∈ right, isBlank c = true)
    (first : ∀ c ∈ s.head?, isBlank c = false) (last : ∀ c ∈ s.getLast?, isBlank c = false) :
    trim (left ++ s ++ right) = s := by
  have behind' : ∀ c ∈ right.reverse, isBlank c = true := fun c present => behind c (List.mem_reverse.mp present)
  unfold trim
  rw [List.append_assoc,List.dropWhile_append_of_pos before]
  cases s with
  | nil =>
      rw [List.nil_append,List.dropWhile_eq_nil_iff.mpr behind]
      rfl
  | cons c rest =>
      rw [dropWhile_solid (s := c :: rest ++ right) first,List.reverse_append,List.dropWhile_append_of_pos behind',
        dropWhile_solid,List.reverse_reverse]
      rwa [List.head?_reverse]

theorem trim_begins (s : List Char) : trim s <+: s.dropWhile isBlank := List.rdropWhile_prefix isBlank _

theorem trim_first (s : List Char) : ∀ c ∈ (trim s).head?, isBlank c = false := by
  intro c starts
  obtain ⟨behind,whole⟩ := trim_begins s
  have first := List.head?_dropWhile_not isBlank s
  rw [← whole,List.head?_append,starts] at first
  exact first

theorem trim_subset (s : List Char) : trim s ⊆ s :=
  fun _ present => List.dropWhile_subset _ ((trim_begins s).subset present)

theorem digit_bounds (digit : c.isDigit = true) : 48 ≤ c.toNat ∧ c.toNat ≤ 57 := by
  simpa [Char.isDigit,UInt32.le_iff_toNat_le] using digit

theorem digit_found (digit : c.isDigit = true) : digit? c = some (c.toNat - '0'.toNat) := if_pos (digit_bounds digit)

theorem digit_solid (digit : c.isDigit = true) : isBlank c = false := by
  have bounds := digit_bounds digit
  simp only [isBlank,Bool.or_eq_false_iff,Bool.and_eq_false_iff,decide_eq_false_iff_not]
  omega

theorem readDigits_value (digits : ∀ c ∈ s, c.isDigit = true) (n : Nat)
    (fits : Nat.ofDigitChars 10 s n < UInt16.size) : readDigits n s = .ok (Nat.ofDigitChars 10 s n).toUInt16 := by
  induction s generalizing n with
  | nil => rfl
  | cons c rest ih =>
      have digit := digit_found (digits c List.mem_cons_self)
      rw [Nat.ofDigitChars_cons] at fits ⊢
      have early : 10*n+(c.toNat - '0'.toNat) ≤ Nat.ofDigitChars 10 rest (10*n+(c.toNat - '0'.toNat)) := by
        rw [Nat.ofDigitChars_eq_ofDigitChars_zero]
        exact Nat.le_add_right_of_le (Nat.le_mul_of_pos_left _ (Nat.pow_pos (by decide)))
      rw [readDigits,digit]
      dsimp only
      rw [if_pos (Nat.lt_of_le_of_lt early fits)]
      exact ih (fun d later => digits d (List.mem_cons_of_mem _ later)) _ fits

theorem numeral_digits (n : Nat) : ∀ c ∈ (toString n).toList, c.isDigit = true := by
  rw [Nat.toString_eq_ofList_toDigits,String.toList_ofList]
  exact fun c present => Nat.isDigit_of_mem_toDigits (by decide) (by decide) present

theorem numeral_nonempty (n : Nat) : (toString n).toList ≠ [] := by
  rw [Nat.toString_eq_ofList_toDigits,String.toList_ofList]
  exact Nat.toDigits_ne_nil

theorem readNumber_digits (digits : ∀ c ∈ s, c.isDigit = true) (some : s ≠ []) : readNumber s = readDigits 0 s := by
  have unsigned : ¬ '+'.isDigit = true := by decide
  unfold readNumber
  split
  · exact absurd rfl some
  · exact absurd (digits _ List.mem_cons_self) unsigned
  · exact absurd (digits _ List.mem_cons_self) unsigned
  · rfl

-- A number is read as it is written.
theorem readNumber_numeral (n : UInt16) : readNumber (toString n.toNat).toList = .ok n := by
  have value : Nat.ofDigitChars 10 (toString n.toNat).toList 0 = n.toNat := by
    rw [Nat.toString_eq_ofList_toDigits,String.toList_ofList,Nat.ofDigitChars_ten_toDigits]
  rw [readNumber_digits (numeral_digits _) (numeral_nonempty _),readDigits_value (numeral_digits _),value]
  · simp
  · rw [value]
    exact n.toNat_lt

end LeaderElection.Text
