import LeaderElection.Proofs.Mailbox
import Mathlib.Logic.Function.Basic
import Mathlib.Logic.Relation

namespace LeaderElection

open Relation

-- A request of one of several nodes, which are known by keys, to a peer.
structure Letter (κ : Type) where
  sender : κ
  peer : Member
  request : Request

-- Nodes under their keys, with all they have ever asked. What has been asked stays on record.
structure Company (κ ρ : Type) where
  node : κ → Option Node
  letters : List ρ

namespace Company

variable {κ ρ : Type} [DecidableEq κ] {c : Company κ ρ} {k k' : κ} {n m : Node} {s : Step Answer}
  {record : Letter κ → ρ}

def put (k : κ) (n : Node) (c : Company κ ρ) : Company κ ρ := {c with node := Function.update c.node k (some n)}

def posted (k : κ) (sends : List Dispatch) : List (Letter κ) := sends.map fun d => ⟨k,d.peer,d.request⟩

-- What a call comes to, with the form in which its requests go on record.
def act (record : Letter κ → ρ) (k : κ) (s : Step Answer) (c : Company κ ρ) : Company κ ρ :=
  {c.put k s.node with letters := (posted k s.sends).map record ++ c.letters}

theorem put_self (c : Company κ ρ) (k : κ) (n : Node) : (c.put k n).node k = some n := Function.update_self ..

theorem put_other (differ : k' ≠ k) (n : Node) (c : Company κ ρ) : (c.put k n).node k' = c.node k' :=
  Function.update_of_ne differ ..

theorem put_lived (lives : (c.put k n).node k' = some m) : k' = k ∧ m = n ∨ c.node k' = some m := by
  by_cases same : k' = k
  · subst same
    exact .inl ⟨rfl,Option.some.inj (lives.symm.trans (c.put_self k' n))⟩
  · exact .inr ((put_other same n c).symm.trans lives)

theorem act_letters {l : ρ} (present : l ∈ (c.act record k s).letters) :
    (∃ d ∈ s.sends, l = record ⟨k,d.peer,d.request⟩) ∨ l ∈ c.letters := by
  rcases List.mem_append.mp present with new | old
  · obtain ⟨letter,posted,rfl⟩ := List.mem_map.mp new
    obtain ⟨d,sent,rfl⟩ := List.mem_map.mp posted
    exact .inl ⟨d,sent,rfl⟩
  · exact .inr old

theorem act_sent {d : Dispatch} (sent : d ∈ s.sends) (c : Company κ ρ) :
    record ⟨k,d.peer,d.request⟩ ∈ (c.act record k s).letters :=
  List.mem_append_left _ (List.mem_map_of_mem (List.mem_map_of_mem sent))

theorem act_kept (c : Company κ ρ) : ∀ l ∈ c.letters, l ∈ (c.act record k s).letters :=
  fun _ old => List.mem_append_right _ old

end Company

-- How things can begin, and how they can go on from one moment to the next.
structure System (σ : Type) where
  first : σ → Prop
  next : σ → σ → Prop

namespace System

variable {σ : Type}

-- A run up to some moment, with the moments before it, the latest first.
inductive Course (S : System σ) : σ → List σ → Prop where
  | begun (first : S.first a) : Course S a []
  | step (course : Course S a past) (step : S.next a b) : Course S b (a :: past)

structure Run (S : System σ) where
  now : σ
  past : List σ
  course : S.Course now past

variable {S : System σ} {a b : σ} {past since : List σ}

def Run.step (r : S.Run) (step : S.next r.now b) : S.Run := ⟨b,r.now :: r.past,r.course.step step⟩

-- The moments of a run, in one list.
def Moments (S : System σ) : List σ → Prop
  | [] => False
  | now :: past => S.Course now past

-- Every moment of a run is the end of a run.
theorem Course.moment (course : S.Course a past) (moment : b ∈ a :: past) :
    ∃ before, S.Course b before ∧ ∀ c ∈ b :: before, c ∈ a :: past := by
  induction course with
  | begun first =>
      cases List.mem_singleton.mp moment
      exact ⟨[],.begun first,fun _ => id⟩
  | @step _ _ past course step ih =>
      rcases List.mem_cons.mp moment with rfl | early
      · exact ⟨_,course.step step,fun _ => id⟩
      · obtain ⟨before,course',within⟩ := ih early
        exact ⟨before,course',fun c present => List.mem_cons_of_mem _ (within c present)⟩

-- A run goes on by any number of steps of some kind. Standing still is one of them, so there is at least one.
theorem Course.extend {R : σ → σ → Prop} (course : S.Course a past) (within : ∀ c d, R c d → S.next c d) (idle : ∀ c, R c c)
    (steps : ReflTransGen R a b) : ∃ since, S.Course b (since ++ a :: past) ∧ ∀ m ∈ since, ReflTransGen R a m := by
  induction steps with
  | refl => exact ⟨[],course.step (within _ _ (idle a)),fun _ present => absurd present List.not_mem_nil⟩
  | @tail m last reached next ih =>
      obtain ⟨since,course',between⟩ := ih
      exact ⟨m :: since,course'.step (within _ _ next),List.forall_mem_cons.mpr ⟨reached,between⟩⟩

namespace Moments

-- The last of several moments comes from the one before it.
theorem parts {before : List σ} (moments : S.Moments (last :: before ++ b :: past)) : S.Moments (before ++ b :: past) ∧
    ∃ m ∈ before ++ [b], (∃ early, S.Course m early) ∧ S.next m last := by
  obtain ⟨m,rest,split,earlier⟩ : ∃ m rest, before ++ b :: past = m :: rest ∧ m ∈ before ++ [b] := by
    cases before with
    | nil => exact ⟨b,past,rfl,List.mem_singleton_self b⟩
    | cons m before => exact ⟨m,_,rfl,List.mem_cons_self⟩
  rw [List.cons_append,split] at moments
  rw [split]
  cases moments with
  | step course step => exact ⟨course,m,earlier,⟨rest,course⟩,step⟩

theorem before (moments : S.Moments (since ++ b :: past)) : S.Course b past := by
  induction since with
  | nil => exact moments
  | cons last before ih => exact ih moments.parts.1

-- What holds at one moment and is kept by every step from then on holds ever after.
theorem along {P : σ → Prop} (moments : S.Moments (since ++ b :: past)) (first : P b)
    (keeps : ∀ m ∈ since ++ [b], ∀ m', (∃ early, S.Course m early) → S.next m m' → P m → P m') :
    ∀ m ∈ since ++ [b], P m := by
  induction since with
  | nil =>
      intro m present
      exact List.mem_singleton.mp present ▸ first
  | cons last before ih =>
      obtain ⟨moments,m,earlier,reached,step⟩ := moments.parts
      have held := ih moments fun m present => keeps m (List.mem_cons_of_mem _ present)
      intro m' present
      rcases List.mem_cons.mp present with rfl | before
      · exact keeps m (List.mem_cons_of_mem _ earlier) m' reached step (held m earlier)
      · exact held m' before

end Moments
end System
end LeaderElection
