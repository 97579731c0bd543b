namespace LeaderElection

namespace Wire

-- Seven bits a byte, lowest first, the high bit set on all bytes but the last.
def writeVarint (n : Nat) : List UInt8 :=
  if n < 128 then [n.toUInt8] else (n%128+128).toUInt8 :: writeVarint (n/128)
termination_by n

-- A number of at most `limit` bytes. Needless bytes at its end are read like any other.
def readVarintWithin : Nat → List UInt8 → Option (Nat × List UInt8)
  | 0,_ => none
  | _,[] => none
  | limit+1,b :: rest =>
    if b < 128 then some (b.toNat,rest)
    else (readVarintWithin limit rest).map fun (high,tail) => (b.toNat%128+128*high,tail)

-- Ten bytes hold any 64-bit number. Bits above the 64th are dropped.
def readVarint (bytes : List UInt8) : Option (Nat × List UInt8) :=
  (readVarintWithin 10 bytes).map fun (n,tail) => (n%UInt64.size,tail)

theorem readVarintWithin_shorter {limit : Nat} {bytes tail : List UInt8} {n : Nat}
    (read : readVarintWithin limit bytes = some (n,tail)) : tail.length < bytes.length := by
  induction limit generalizing bytes n tail with
  | zero => simp [readVarintWithin] at read
  | succ limit ih =>
      cases bytes with
      | nil => simp [readVarintWithin] at read
      | cons b rest =>
          simp only [readVarintWithin] at read
          split at read
          · simp only [Option.some.injEq,Prod.mk.injEq] at read
            simp [read.2]
          · obtain ⟨⟨high,after⟩,inner,equal⟩ := Option.map_eq_some_iff.mp read
            obtain ⟨_,rfl⟩ := Prod.mk.inj equal
            have bound := ih inner
            simp only [List.length_cons]
            omega

theorem readVarint_shorter {bytes tail : List UInt8} {n : Nat}
    (read : readVarint bytes = some (n,tail)) : tail.length < bytes.length := by
  obtain ⟨⟨m,after⟩,inner,equal⟩ := Option.map_eq_some_iff.mp read
  obtain ⟨_,rfl⟩ := Prod.mk.inj equal
  exact readVarintWithin_shorter inner

-- What a field carries. Contents no message has a use for are only checked for their form.
inductive Payload where
  | number (n : Nat)
  | block (bytes : List UInt8)
  | other
  deriving DecidableEq

structure Field where
  tag : Nat
  payload : Payload
  deriving DecidableEq

-- A field opens with its tag and the kind of its contents in one number.
def writeKey (tag kind : Nat) : List UInt8 := writeVarint (tag*8+kind)

def Field.write (f : Field) : List UInt8 := match f.payload with
  | .number n => writeKey f.tag 0 ++ writeVarint n
  | .block bytes => writeKey f.tag 2 ++ writeVarint bytes.length ++ bytes
  | .other => []

def writeFields (fields : List Field) : List UInt8 := fields.flatMap Field.write

def takeBlock (length : Nat) (bytes : List UInt8) : Option (List UInt8 × List UInt8) :=
  if length ≤ bytes.length then some (bytes.take length,bytes.drop length) else none

theorem takeBlock_rest {length : Nat} {bytes block rest : List UInt8}
    (taken : takeBlock length bytes = some (block,rest)) : rest.length ≤ bytes.length := by
  simp only [takeBlock] at taken
  split at taken
  · simp only [Option.some.injEq,Prod.mk.injEq] at taken
    rw [← taken.2,List.length_drop]
    omega
  · simp at taken

-- The fields up to the end of the bytes, or up to the end of the group `closing` where one is
-- open. Groups nest at most `depth` deep and what they hold is dropped.
def readFields (depth : Nat) (closing : Option Nat) (bytes : List UInt8) :
    Option (List Field × List UInt8) :=
  if bytes = [] then (if closing = none then some ([],[]) else none)
  else match keyed : readVarint bytes with
    | none => none
    | some (key,body) =>
      have := readVarint_shorter keyed
      let tag := key/8
      if UInt32.size ≤ key ∨ tag = 0 then none
      else if key%8 = 4 then (if closing = some tag then some ([],body) else none)
      else if depth = 0 then none
      else match key%8 with
        | 0 => match numbered : readVarint body with
          | none => none
          | some (n,rest) =>
            have := readVarint_shorter numbered
            (readFields depth closing rest).map fun (fields,tail) => (⟨tag,.number n⟩ :: fields,tail)
        | 1 => match taken : takeBlock 8 body with
          | none => none
          | some (_,rest) =>
            have := takeBlock_rest taken
            (readFields depth closing rest).map fun (fields,tail) => (⟨tag,.other⟩ :: fields,tail)
        | 2 => match sized : readVarint body with
          | none => none
          | some (length,contents) =>
            have := readVarint_shorter sized
            match taken : takeBlock length contents with
            | none => none
            | some (block,rest) =>
              have := takeBlock_rest taken
              (readFields depth closing rest).map fun (fields,tail) => (⟨tag,.block block⟩ :: fields,tail)
        | 3 => match readFields (depth-1) (some tag) body with
          | none => none
          | some (_,rest) =>
            if rest.length < bytes.length then
              (readFields depth closing rest).map fun (fields,tail) => (⟨tag,.other⟩ :: fields,tail)
            else none
        | 5 => match taken : takeBlock 4 body with
          | none => none
          | some (_,rest) =>
            have := takeBlock_rest taken
            (readFields depth closing rest).map fun (fields,tail) => (⟨tag,.other⟩ :: fields,tail)
        | _ => none
termination_by bytes.length

end Wire
end LeaderElection
