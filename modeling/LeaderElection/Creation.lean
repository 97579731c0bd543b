import LeaderElection.Network
import LeaderElection.Node.Basic
import LeaderElection.Station

namespace LeaderElection

structure Options where
  electionMin : Option Nat
  electionMax : Option Nat
  heartbeat : Option Nat
  rpc : Option Nat
  suspicion : Option Nat
  poll : Option Nat
  deriving DecidableEq

structure Tuning where
  electionMin : Nat
  electionMax : Nat
  heartbeat : Nat
  rpc : Nat
  suspicion : Nat
  poll : Nat
  deriving DecidableEq

inductive OptionsError where
  | electionRange
  | heartbeatTooLong
  | rpcTooLong
  | heartbeatZero
  | pollZero
  deriving DecidableEq, Repr

def OptionsError.message : OptionsError → String
  | .electionRange => "Election timeout minimum must be less than maximum"
  | .heartbeatTooLong => "Election timeout minimum must be greater than leader's heartbeat interval"
  | .rpcTooLong => "RPC timeout must be less than the election timeout minimum"
  | .heartbeatZero => "Heartbeat interval must be non-zero"
  | .pollZero => "Failure detector poll interval must be non-zero"

namespace Tuning

def fault? (t : Tuning) : Option OptionsError :=
  if t.electionMax ≤ t.electionMin then some .electionRange
  else if t.electionMin ≤ t.heartbeat then some .heartbeatTooLong
  else if t.electionMin ≤ t.rpc then some .rpcTooLong
  else if t.heartbeat = 0 then some .heartbeatZero
  else if t.poll = 0 then some .pollZero
  else none

def timings (t : Tuning) : Timings := ⟨t.heartbeat,⟨t.electionMin,t.electionMax⟩,t.rpc⟩

end Tuning

namespace Options

def filled (o : Options) : Tuning :=
  ⟨o.electionMin.getD (150*millisecond),o.electionMax.getD (300*millisecond),o.heartbeat.getD (50*millisecond),
    o.rpc.getD (100*millisecond),o.suspicion.getD (500*millisecond),o.poll.getD (100*millisecond)⟩

def tuning (o : Options) : Except OptionsError Tuning :=
  match o.filled.fault? with
  | some e => .error e
  | none => .ok o.filled

end Options

structure Config where
  me : NodeId
  members : List Member
  options : Options

inductive CreationError where
  | illegalOptions (cause : OptionsError)
  | invalidCluster (cause : RosterError)
  | serving (cause : TransportError)
  deriving DecidableEq

namespace CreationError

def message : CreationError → String
  | .illegalOptions cause => "Illegal options for configuring node: " ++ cause.message
  | .invalidCluster cause => "Invalid cluster info: " ++ cause.message
  | .serving _ => "Failed to start serving requests"

def source : CreationError → Option TransportError
  | .serving cause => some cause
  | _ => none

end CreationError

-- Options are looked at before members.
def Config.plan (c : Config) : Except CreationError (Roster × Tuning) := do
  let tuning ← c.options.tuning.mapError .illegalOptions
  let roster ← (Roster.ofMembers c.me c.members).mapError .invalidCluster
  return (roster,tuning)

def Station.launch (now draw : Nat) (roster : Roster) (tuning : Tuning) : Station :=
  let fresh := Station.create now draw roster tuning.timings tuning.suspicion
  {fresh with detector := (fresh.detector.start now tuning.poll).1}

-- The address is taken last, so that a failure leaves nothing behind.
def Config.launch {γ : Type} (register : Address → Except TransportError γ) (now draw : Nat) (c : Config) :
    Except CreationError (Roster × Station × γ) := do
  let (roster,tuning) ← c.plan
  let served ← (register roster.address).mapError .serving
  return (roster,.launch now draw roster tuning,served)

-- The clock has a last instant. A creation whose first timer would have to ring after it breaks off, and there
-- is no error to tell of that.
inductive Attempt where
  | refused (cause : CreationError)
  | broken
  | made (roster : Roster) (station : Station) (guard : Guard)

-- The address is taken by the time a creation breaks off, and goes back with its guard.
def Config.attempt {η : Type} (latest : Nat) (handler : η) (now draw : Nat) (c : Config) (net : Network η) :
    Attempt × Network η :=
  match c.launch (fun a => net.register a handler) now draw with
  | .error cause => (.refused cause,net)
  | .ok (roster,station,guard,after) =>
    if now+draw ≤ latest then (.made roster station guard,after) else (.broken,(guard.finish after).2)

-- The end of a shutdown, once the loop has stopped: no monitor, no memory of peers.
def Station.rest (s : Station) : Station := {s with detector := s.detector.stop.1.clear}

end LeaderElection
