namespace LeaderElection

-- Everything published so far, newest first. A reader is shown the newest only.
structure Feed (α : Type) where
  latest : α
  earlier : List α
  closed : Bool
  deriving DecidableEq

namespace Feed
variable {α : Type}

def opened (first : α) : Feed α := ⟨first,[],false⟩

def publish (value : α) (f : Feed α) : Feed α := {f with latest := value, earlier := f.latest :: f.earlier}

def close (f : Feed α) : Feed α := {f with closed := true}

def count (f : Feed α) : Nat := f.earlier.length+1

def history (f : Feed α) : List α := (f.latest :: f.earlier).reverse

end Feed

structure Reader where
  seen : Nat
  deriving DecidableEq

inductive Reading (α : Type) where
  | fresh (value : α)
  | nothing
  | ended
  deriving DecidableEq

namespace Reader
variable {α : Type}

-- A reader that joins counts what is there as seen.
def join (f : Feed α) : Reader := ⟨f.count⟩

-- The first step of a reading: if there is anything new, all that is there counts as seen.
def notice (f : Feed α) (r : Reader) : Option Reader := if r.seen < f.count then some ⟨f.count⟩ else none

-- A reading whose second step, to fetch what is there, follows on the first at once. What was published
-- last comes before the end.
def read (r : Reader) (f : Feed α) : Reading α × Reader :=
  match r.notice f with
  | some noticed => (.fresh f.latest,noticed)
  | none => (if f.closed then .ended else .nothing,r)

end Reader
end LeaderElection
