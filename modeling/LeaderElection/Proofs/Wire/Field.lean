import LeaderElection.Wire.Field
import Mathlib.Algebra.Group.Nat.Defs

namespace LeaderElection

namespace Wire

theorem writeVarint_small (small : n < 128) : writeVarint n = [n.toUInt8] := by
  rw [writeVarint,if_pos small]

theorem writeVarint_large (large : ¬ n < 128) :
    writeVarint n = (n%128+128).toUInt8 :: writeVarint (n/128) := by
  rw [writeVarint,if_neg large]

theorem byte_toNat {n : Nat} (byte : n < 256) : n.toUInt8.toNat = n := by
  rw [Nat.toUInt8_eq,UInt8.toNat_ofNat',Nat.mod_eq_of_lt byte]

theorem readVarintWithin_small {n : Nat} (small : n < 128) (limit : Nat) (rest : List UInt8) :
    readVarintWithin (limit+1) (writeVarint n ++ rest) = some (n,rest) := by
  have byte : n.toUInt8.toNat = n := byte_toNat (Nat.lt_trans small (by decide))
  have last : n.toUInt8 < 128 := by
    rw [UInt8.lt_iff_toNat_lt,byte]
    exact small
  rw [writeVarint_small small,List.singleton_append,readVarintWithin,if_pos last,byte]

-- A number is read from its own bytes, whatever follows, if it needs no more than are looked at.
theorem readVarintWithin_write {limit n : Nat} (needed : n < 128^(limit+1)) (rest : List UInt8) :
    readVarintWithin (limit+1) (writeVarint n ++ rest) = some (n,rest) := by
  induction limit generalizing n with
  | zero => exact readVarintWithin_small needed 0 rest
  | succ limit ih =>
      by_cases small : n < 128
      · exact readVarintWithin_small small (limit+1) rest
      · have byte : (n%128+128).toUInt8.toNat = n%128+128 := byte_toNat (by omega)
        have goes : ¬ (n%128+128).toUInt8 < 128 := by
          rw [UInt8.lt_iff_toNat_lt,byte]
          exact Nat.not_lt.mpr (Nat.le_add_left ..)
        have high : n/128 < 128^(limit+1) := by
          rw [Nat.pow_succ,Nat.mul_comm] at needed
          exact Nat.div_lt_of_lt_mul needed
        have whole : (n%128+128)%128+128*(n/128) = n := by omega
        rw [writeVarint_large small,List.cons_append,readVarintWithin,if_neg goes,ih high,byte]
        simp only [Option.map_some,whole]

theorem readVarint_write {n : Nat} (bounded : n < UInt64.size) (rest : List UInt8) :
    readVarint (writeVarint n ++ rest) = some (n,rest) := by
  have needed : n < 128^(9+1) := Nat.lt_trans bounded (by decide)
  rw [readVarint,readVarintWithin_write needed]
  simp only [Option.map_some,Nat.mod_eq_of_lt bounded]

-- What is read of a number does not depend on what follows it.
theorem readVarintWithin_append {limit n : Nat} {bytes rest : List UInt8}
    (read : readVarintWithin limit bytes = some (n,rest)) (more : List UInt8) :
    readVarintWithin limit (bytes ++ more) = some (n,rest ++ more) := by
  induction limit generalizing bytes n rest with
  | zero => cases bytes <;> cases read
  | succ limit ih =>
      cases bytes with
      | nil => cases read
      | cons b later =>
          rw [List.cons_append]
          simp only [readVarintWithin] at read ⊢
          split at read
          · next last =>
              cases read
              rw [if_pos last]
          · next goes =>
              obtain ⟨⟨high,tail⟩,inner,same⟩ := Option.map_eq_some_iff.mp read
              cases same
              rw [if_neg goes,ih inner]
              rfl

theorem readVarint_append {n : Nat} {bytes rest : List UInt8} (read : readVarint bytes = some (n,rest))
    (more : List UInt8) : readVarint (bytes ++ more) = some (n,rest ++ more) := by
  obtain ⟨⟨m,tail⟩,inner,same⟩ := Option.map_eq_some_iff.mp read
  cases same
  rw [readVarint,readVarintWithin_append inner more]
  rfl

theorem writeVarint_within {limit n : Nat} (needed : n < 128^(limit+1)) : (writeVarint n).length ≤ limit+1 := by
  induction limit generalizing n with
  | zero =>
      rw [writeVarint_small needed]
      exact Nat.le_refl _
  | succ limit ih =>
      by_cases small : n < 128
      · rw [writeVarint_small small]
        exact Nat.le_add_left ..
      · have high : n/128 < 128^(limit+1) := by
          rw [Nat.pow_succ,Nat.mul_comm] at needed
          exact Nat.div_lt_of_lt_mul needed
        rw [writeVarint_large small]
        exact Nat.succ_le_succ (ih high)

theorem writeVarint_length {n : Nat} (bounded : n < UInt64.size) : (writeVarint n).length ≤ 10 :=
  writeVarint_within (Nat.lt_trans bounded (by decide))

-- Contents that are written as they are read: numbers of 64 bits, and blocks that a number of 64 bits
-- can measure.
def Payload.Fits : Payload → Prop
  | .number n => n < UInt64.size
  | .block bytes => bytes.length < UInt64.size
  | .other => False

structure Field.Fits (f : Field) : Prop where
  named : f.tag ≠ 0
  short : f.tag*8+7 < UInt32.size
  payload : f.payload.Fits

variable {depth : Nat} {closing : Option Nat} {bytes body contents block rest : List UInt8} {tag n : Nat}

theorem takeBlock_append (block rest : List UInt8) : takeBlock block.length (block ++ rest) = some (block,rest) := by
  rw [takeBlock,if_pos (by simp),List.take_left,List.drop_left]

theorem takeBlock_parts {length : Nat} (taken : takeBlock length bytes = some (block,rest)) :
    bytes = block ++ rest := by
  unfold takeBlock at taken
  split at taken
  · cases taken
    exact (List.take_append_drop ..).symm
  · cases taken

theorem takeBlock_room {length : Nat} (taken : takeBlock length bytes = some (block,rest)) :
    length ≤ bytes.length := by
  unfold takeBlock at taken
  split at taken
  · assumption
  · cases taken

-- The key a field is written with, and what stands behind it.
theorem Field.key_number (n : Nat) (short : tag*8+7 < UInt32.size) :
    readVarint (write ⟨tag,.number n⟩) = some (tag*8,writeVarint n) := by
  have room : UInt32.size < UInt64.size := by decide
  exact readVarint_write (n := tag*8) (by omega) _

theorem Field.key_block (block : List UInt8) (short : tag*8+7 < UInt32.size) :
    readVarint (write ⟨tag,.block block⟩) = some (tag*8+2,writeVarint block.length ++ block) := by
  have room : UInt32.size < UInt64.size := by decide
  simp only [write,writeKey,List.append_assoc]
  exact readVarint_write (n := tag*8+2) (by omega) _

-- What is read after a key of either kind that is written.
theorem readFields_number (named : tag ≠ 0) (short : tag*8 < UInt32.size) (deep : depth ≠ 0)
    (key : readVarint bytes = some (tag*8,body)) (value : readVarint body = some (n,rest)) :
    readFields depth closing bytes =
      (readFields depth closing rest).map fun read => (⟨tag,.number n⟩ :: read.1,read.2) := by
  have present : bytes ≠ [] := by
    rintro rfl
    cases key
  have tag' : tag*8/8 = tag := by omega
  have kind : tag*8%8 = 0 := by omega
  have proper : ¬ (UInt32.size ≤ tag*8 ∨ tag = 0) := by omega
  have goes : ¬ (0 : Nat) = 4 := by decide
  rw [readFields,if_neg present]
  split
  · next missing => cases missing.symm.trans key
  · next read =>
      cases read.symm.trans key
      simp only [tag',kind,if_neg proper,if_neg goes,if_neg deep]
      split
      · next missing => cases missing.symm.trans value
      · next read =>
          cases read.symm.trans value
          rfl

theorem readFields_block (named : tag ≠ 0) (short : tag*8+2 < UInt32.size) (deep : depth ≠ 0)
    (key : readVarint bytes = some (tag*8+2,body)) (size : readVarint body = some (n,contents))
    (taken : takeBlock n contents = some (block,rest)) :
    readFields depth closing bytes =
      (readFields depth closing rest).map fun read => (⟨tag,.block block⟩ :: read.1,read.2) := by
  have present : bytes ≠ [] := by
    rintro rfl
    cases key
  have tag' : (tag*8+2)/8 = tag := by omega
  have kind : (tag*8+2)%8 = 2 := by omega
  have proper : ¬ (UInt32.size ≤ tag*8+2 ∨ tag = 0) := by omega
  have goes : ¬ (2 : Nat) = 4 := by decide
  rw [readFields,if_neg present]
  split
  · next missing => cases missing.symm.trans key
  · next read =>
      cases read.symm.trans key
      simp only [tag',kind,if_neg proper,if_neg goes,if_neg deep]
      split
      · next missing => cases missing.symm.trans size
      · next read =>
          cases read.symm.trans size
          split
          · next missing => cases missing.symm.trans taken
          · next read =>
              cases read.symm.trans taken
              rfl

theorem readFields_nil (depth : Nat) : readFields depth none [] = some ([],[]) := by
  rw [readFields]
  rfl

-- A field is read from its own bytes, whatever follows.
theorem readFields_write {f : Field} (fits : f.Fits) (deep : depth ≠ 0) (rest : List UInt8) :
    readFields depth closing (f.write ++ rest) =
      (readFields depth closing rest).map fun read => (f :: read.1,read.2) := by
  obtain ⟨tag,payload⟩ := f
  obtain ⟨named,short,within⟩ := fits
  dsimp only at named short within
  cases payload with
  | other => exact within.elim
  | number n =>
      have key := readVarint_append (Field.key_number n short) rest
      exact readFields_number named (by omega) deep key (readVarint_write within rest)
  | block bytes =>
      have key := readVarint_append (Field.key_block bytes short) rest
      rw [List.append_assoc] at key
      exact readFields_block named (by omega) deep key (readVarint_write within _) (takeBlock_append bytes rest)

theorem readFields_writeFields {fields : List Field} (fits : ∀ f ∈ fields, f.Fits) (deep : depth ≠ 0) :
    readFields depth none (writeFields fields) = some (fields,[]) := by
  induction fields with
  | nil => exact readFields_nil depth
  | cons f rest ih =>
      have later := ih fun g present => fits g (List.mem_cons_of_mem f present)
      rw [writeFields,List.flatMap_cons,readFields_write (fits f List.mem_cons_self) deep,← writeFields,later]
      rfl

-- A field whose contents are no longer than `size` bytes.
def Field.Within (size : Nat) (f : Field) : Prop := ∀ block, f.payload = .block block → block.length ≤ size

theorem Field.Within.mono {f : Field} (within : f.Within size) (order : size ≤ size') : f.Within size' :=
  fun block same => Nat.le_trans (within block same) order

theorem cons_within {f : Field} {inner : Option (List Field × List UInt8)} {fields : List Field}
    (read : inner.map (fun read => (f :: read.1,read.2)) = some (fields,rest)) (first : f.Within size)
    (later : ∀ {rest fields}, inner = some (fields,rest) → ∀ g ∈ fields, g.Within small) (order : small ≤ size) :
    ∀ g ∈ fields, g.Within size := by
  obtain ⟨⟨others,tail⟩,inner,same⟩ := Option.map_eq_some_iff.mp read
  cases same
  intro g present
  rcases List.mem_cons.mp present with rfl | other
  · exact first
  · exact (later inner g other).mono order

-- Nothing that is read is longer than what it is read from.
theorem readFields_within {fields : List Field} (read : readFields depth closing bytes = some (fields,rest)) :
    ∀ f ∈ fields, f.Within bytes.length := by
  fun_induction readFields depth closing bytes generalizing fields rest
  case case9 | case11 | case16 | case19 => exact cons_within read nofun (by assumption) (by omega)
  case case14 taken shorter later =>
    refine cons_within read ?_ later (by omega)
    intro block same
    cases same
    have parts := congrArg List.length (takeBlock_parts taken)
    rw [List.length_append] at parts
    omega
  all_goals cases read
  all_goals exact nofun

end Wire
end LeaderElection
