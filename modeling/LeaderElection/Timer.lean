import LeaderElection.Basic

namespace LeaderElection

-- The task behind an election timer sleeps until the deadline it read last, or rests after it
-- has fired. Moving the deadline does not wake it.
inductive Slumber where
  | watching (deadline : Nat)
  | resting (deadline : Nat)
  deriving DecidableEq

def Slumber.deadline : Slumber → Nat
  | .watching d => d
  | .resting d => d

structure ElectionTimer where
  deadline : Nat
  slumber : Slumber
  deriving DecidableEq

namespace ElectionTimer

def start (now : Nat) (draw : Nat) : ElectionTimer := ⟨now+draw,.watching (now+draw)⟩

def reset (now : Nat) (draw : Nat) (t : ElectionTimer) : ElectionTimer :=
  {t with deadline := now+draw}

-- A timeout that is handled late may find the deadline moved meanwhile.
def expired (now : Nat) (t : ElectionTimer) : Bool := t.deadline ≤ now

-- What the task does when its sleep is over, and whether the timer fires. The draw is the rest
-- it takes after firing.
def wake (now : Nat) (draw : Nat) (t : ElectionTimer) : Option (ElectionTimer × Bool) :=
  if Time.passed t.slumber.deadline now then
    match t.slumber with
    | .watching _ =>
      if t.expired now then some ({t with slumber := .resting (now+draw)},true)
      else some ({t with slumber := .watching t.deadline},false)
    | .resting _ => some ({t with slumber := .watching t.deadline},false)
  else none

end ElectionTimer

-- Beats at once, then one interval after each beat.
structure HeartbeatTimer where
  term : Term
  interval : Nat
  next : Nat
  deriving DecidableEq

namespace HeartbeatTimer

def start (now : Nat) (interval : Nat) (term : Term) : HeartbeatTimer := ⟨term,interval,now⟩

def wake (now : Nat) (t : HeartbeatTimer) : Option HeartbeatTimer :=
  if t.next ≤ now then some {t with next := Time.wake (now+t.interval)} else none

end HeartbeatTimer
end LeaderElection
