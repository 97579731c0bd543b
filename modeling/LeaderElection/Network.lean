import LeaderElection.Basic
import LeaderElection.Message

namespace LeaderElection

structure Partition where
  isolated : List Address
  severed : List (Address × Address)
  deriving DecidableEq

namespace Partition

def none : Partition := ⟨[],[]⟩

def allows (p : Partition) (origin target : Address) : Bool :=
  !p.isolated.contains origin && !p.isolated.contains target && !p.severed.contains (origin,target)

def isolate (a : Address) (p : Partition) : Partition := {p with isolated := a :: p.isolated}

def cut (a b : Address) (p : Partition) : Partition := {p with severed := (a,b) :: (b,a) :: p.severed}

-- Ends the isolation of an address and every cut that touches it.
def heal (a : Address) (p : Partition) : Partition :=
  ⟨p.isolated.filter (· ≠ a),p.severed.filter fun link => link.1 ≠ a ∧ link.2 ≠ a⟩

end Partition

def partitioned (origin target : Address) : TransportError :=
  .unreachable (origin.text ++ " -> " ++ target.text ++ " is partitioned")

-- A network within one process. Each address is served by at most one handler.
structure Network (η : Type) where
  partition : Partition
  handlers : Directory Address η

-- Keeps a handler in place. It takes it away once, and none that comes after it.
structure Guard where
  address : Address
  armed : Bool
  deriving DecidableEq

namespace Network
variable {η : Type}

def empty : Network η := ⟨.none,.empty⟩

def register (address : Address) (handler : η) (net : Network η) : Except TransportError (Guard × Network η) :=
  if net.handlers.contains address then .error (.bind (address.text ++ " already in use"))
  else .ok (⟨address,true⟩,{net with handlers := net.handlers.put address handler})

def route (origin target : Address) (net : Network η) : Except TransportError η :=
  if !net.partition.allows origin target then .error (partitioned origin target)
  else match net.handlers.find? target with
    | none => .error (.unreachable ("nothing listening on " ++ target.text))
    | some handler => .ok handler

-- A partition that formed meanwhile loses the reply.
def carry (origin target : Address) (reply : Reply) (net : Network η) : Delivery :=
  if net.partition.allows target origin then .ok reply else .error (partitioned target origin)

def isolate (a : Address) (net : Network η) : Network η := {net with partition := net.partition.isolate a}
def cut (a b : Address) (net : Network η) : Network η := {net with partition := net.partition.cut a b}
def heal (a : Address) (net : Network η) : Network η := {net with partition := net.partition.heal a}

end Network

-- Stopped or dropped, whichever comes first.
def Guard.finish {η : Type} (g : Guard) (net : Network η) : Guard × Network η :=
  if g.armed then ({g with armed := false},{net with handlers := net.handlers.remove g.address})
  else (g,net)

end LeaderElection
