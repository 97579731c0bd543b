import LeaderElection.Basic

namespace LeaderElection

-- A world that moves by itself. `perform` makes a move that is open at the present instant,
-- `moves` lists what to try, first things first, and `due` is when the next sleeper wants to be
-- woken.
class Lively (σ : Type) (μ : outParam Type) where
  now : σ → Nat
  moveTo : Nat → σ → σ
  moves : σ → List μ
  perform : μ → σ → Option σ
  due : σ → Option Nat

namespace Schedule
variable {σ μ : Type} [Lively σ μ]

def act (s : σ) : Option σ := (Lively.moves s).findSome? fun m => Lively.perform m s

inductive Moves : σ → σ → Prop where
  | rest : Moves s s
  | move : Lively.perform m s = some next → Moves next last → Moves s last

-- A world with more than this to do at one instant is taken never to come to rest.
def limit : Nat := 10000

def settleWithin : Nat → σ → σ
  | 0,s => s
  | fuel+1,s => match act s with
    | none => s
    | some next => settleWithin fuel next

-- Time stands still while there is anything left to do.
def settle (s : σ) : σ := settleWithin limit s

-- The clock goes on by whole milliseconds, so a fraction it has stays.
def advance (t : Nat) (s : σ) : σ := Lively.moveTo (Time.wake t+Lively.now s%millisecond) s

def reach (t : Nat) (s : σ) : σ := settle (advance t s)

-- From one sleeper to the next, settling at each, up to and including `stop`. A sleeper that is
-- still due has no rest to wait for.
def runWithin (stop : Nat) : Nat → σ → σ
  | 0,s => reach stop s
  | fuel+1,s => match Lively.due s with
    | some deadline =>
      if Lively.now s < Time.wake deadline ∧ Time.wake deadline ≤ stop then
        runWithin stop fuel (reach deadline s)
      else reach stop s
    | none => reach stop s

def runUntil (stop : Nat) (s : σ) : σ :=
  runWithin stop ((stop-Lively.now s)/millisecond+1) (settle s)

-- The wait itself is a sleep like every other. A wait of no length is none.
def run (ms : Nat) (s : σ) : σ :=
  if ms = 0 ∨ Time.horizon ≤ Lively.now s then settle s
  else runUntil (min Time.horizon (Time.wake (Lively.now s+Time.wait (ms*millisecond)))) s

def awaitWithin {α : Type} (found : σ → Option α) (stop : Nat) : Nat → σ → Option α
  | 0,_ => none
  | fuel+1,s => match found s with
    | some a => some a
    | none => match act s with
      | some next => awaitWithin found stop fuel next
      | none => (Lively.due s).bind fun deadline =>
          if Time.wake deadline ≤ stop then awaitWithin found stop fuel (advance deadline s) else none

-- What a world has to show as soon as it has, by `stop`. Its last moves need not be made.
def await {α : Type} (found : σ → Option α) (stop : Nat) (s : σ) : Option α :=
  awaitWithin found stop (limit+(stop-Lively.now s)/millisecond) s

theorem act_performed {s next : σ} (acted : act s = some next) : ∃ m : μ, Lively.perform m s = some next := by
  obtain ⟨m,_,performed⟩ := List.exists_of_findSome?_eq_some acted
  exact ⟨m,performed⟩

theorem settleWithin_moves (fuel : Nat) (s : σ) : Moves s (settleWithin fuel s) := by
  induction fuel generalizing s with
  | zero => exact .rest
  | succ fuel ih =>
      simp only [settleWithin]
      split
      · exact .rest
      · next acted =>
          obtain ⟨_,performed⟩ := act_performed acted
          exact .move performed (ih _)

theorem settle_moves (s : σ) : Moves s (settle s) := settleWithin_moves _ _

-- Nothing is left to do at an instant.
def Idle (t : Nat) (s : σ) : Prop := ∀ m : μ, Lively.perform m (Lively.moveTo t s) = none

-- A world left to itself makes any moves that are open, one after the other. Its clock goes on while
-- there is nothing to do.
inductive Elapses (first : σ) : σ → Prop where
  | rest : Elapses first first
  | move (before : Elapses first s) (performed : Lively.perform m s = some next) : Elapses first next
  | pass (before : Elapses first s) (onward : Lively.now s ≤ t)
      (idle : ∀ u, Lively.now s ≤ u → u < t → Idle u s) : Elapses first (Lively.moveTo t s)

-- A world that makes moves, whatever its clock does meanwhile.
inductive Reaches (first : σ) : σ → Prop where
  | rest : Reaches first first
  | move (before : Reaches first s) (performed : Lively.perform m s = some next) : Reaches first next
  | pass (before : Reaches first s) (t : Nat) : Reaches first (Lively.moveTo t s)

variable {first last s : σ}

theorem Elapses.moves (before : Elapses first s) (moves : Moves s last) : Elapses first last := by
  induction moves with
  | rest => exact before
  | move performed _ ih => exact ih (before.move performed)

-- The clock goes on to `t`, and then the world settles.
theorem Elapses.reach (before : Elapses first s) (onward : Lively.now s ≤ Time.wake t+Lively.now s%millisecond)
    (idle : ∀ u, Lively.now s ≤ u → u < Time.wake t+Lively.now s%millisecond → Idle u s) :
    Elapses first (Schedule.reach t s) :=
  (before.pass onward idle).moves (settle_moves (advance t s))

theorem Reaches.moves (before : Reaches first s) (moves : Moves s last) : Reaches first last := by
  induction moves with
  | rest => exact before
  | move performed _ ih => exact ih (before.move performed)

theorem Reaches.settle (before : Reaches first s) : Reaches first (Schedule.settle s) := before.moves (settle_moves s)

theorem Reaches.reach (before : Reaches first s) (t : Nat) : Reaches first (Schedule.reach t s) :=
  (before.pass _).settle

theorem Reaches.runWithin (before : Reaches first s) (stop fuel : Nat) :
    Reaches first (Schedule.runWithin stop fuel s) := by
  induction fuel generalizing s with
  | zero => exact before.reach stop
  | succ fuel ih =>
      unfold Schedule.runWithin
      split
      · split
        · exact ih (before.reach _)
        · exact before.reach stop
      · exact before.reach stop

theorem run_reaches (ms : Nat) (s : σ) : Reaches s (run ms s) := by
  unfold run
  split
  · exact Reaches.rest.settle
  · exact Reaches.rest.settle.runWithin _ _

end Schedule
end LeaderElection
