namespace LeaderElection

-- Instants and spans of time are whole nanoseconds, instants counted from the clock's start.
def millisecond : Nat := 1000000

namespace Time

-- Sleepers are woken on whole milliseconds only, never early.
def wake (deadline : Nat) : Nat := (deadline+(millisecond-1))/millisecond*millisecond

def passed (deadline now : Nat) : Bool := decide (wake deadline ≤ now)

def milliseconds (t : Nat) : Nat := t/millisecond

-- Whoever is told to wait for a span waits for thirty years of 365 days at most.
def wait (span : Nat) : Nat := min span (30*365*24*60*60*1000*millisecond)

-- Nobody is put to sleep beyond this instant, and at it nobody sleeps any more.
def horizon : Nat := (UInt64.size-3)*millisecond

-- The clock counts seconds in 63 bits.
def last : Nat := UInt64.size/2*1000*millisecond-1

end Time

-- A range a draw is taken from: the start belongs to it, the stop does not. An empty range
-- yields its start.
structure Range where
  start : Nat
  stop : Nat
  deriving DecidableEq, Repr

def Range.Holds (r : Range) (d : Nat) : Prop :=
  if r.stop ≤ r.start then d = r.start else r.start ≤ d ∧ d < r.stop

-- Where timeouts are drawn from: any numbers whatever, one after the other.
structure Draws where
  source : Nat → Nat
  used : Nat

namespace Draws

def next (d : Draws) : Draws := {d with used := d.used+1}

def within (r : Range) (d : Draws) : Nat :=
  if r.stop ≤ r.start then r.start else r.start+d.source d.used%(r.stop-r.start)

theorem within_holds (r : Range) (d : Draws) : r.Holds (d.within r) := by
  unfold Range.Holds within
  split
  · rfl
  · next proper =>
      have below := Nat.mod_lt (d.source d.used) (show 0 < r.stop-r.start by omega)
      omega

def scramble (n : Nat) : Nat := (6364136223846793005*n+1442695040888963407)%UInt64.size

def scattered (seed : Nat) : Draws :=
  ⟨fun i => scramble (scramble (scramble seed+i))/1048576,0⟩

end Draws

-- A term numbers one round of leadership. Terms run out: the last one has no successor.
structure Term where
  number : Nat
  bounded : number < UInt64.size
  deriving DecidableEq

namespace Term

def zero : Term := ⟨0,by decide⟩

def ofNat? (n : Nat) : Option Term := if h : n < UInt64.size then some ⟨n,h⟩ else none

def next (t : Term) : Option Term := ofNat? (t.number+1)

instance : Inhabited Term := ⟨zero⟩
instance : LE Term := ⟨fun a b => a.number ≤ b.number⟩
instance : LT Term := ⟨fun a b => a.number < b.number⟩
instance (a b : Term) : Decidable (a ≤ b) := inferInstanceAs (Decidable (a.number ≤ b.number))
instance (a b : Term) : Decidable (a < b) := inferInstanceAs (Decidable (a.number < b.number))
instance : Ord Term := ⟨fun a b => compare a.number b.number⟩
instance : ToString Term := ⟨fun t => toString t.number⟩

end Term

-- At most one entry per key, in no particular order.
structure Directory (κ α : Type) where
  entries : List (κ × α)

namespace Directory
variable {κ α : Type} [DecidableEq κ]

def empty : Directory κ α := ⟨[]⟩

instance : Inhabited (Directory κ α) := ⟨⟨[]⟩⟩

def find? (d : Directory κ α) (key : κ) : Option α :=
  (d.entries.find? (fun e => e.1 = key)).map Prod.snd

def remove (d : Directory κ α) (key : κ) : Directory κ α :=
  ⟨d.entries.filter (fun e => e.1 ≠ key)⟩

def put (d : Directory κ α) (key : κ) (value : α) : Directory κ α :=
  ⟨(key,value) :: (d.remove key).entries⟩

def keys (d : Directory κ α) : List κ := d.entries.map Prod.fst

def contains (d : Directory κ α) (key : κ) : Bool := (d.find? key).isSome

end Directory
end LeaderElection
