import LeaderElection.Locator
import LeaderElection.Message
import LeaderElection.Wire.Codec

namespace LeaderElection.Remote

-- The status codes of the remote call protocol, in the order of their numbers.
inductive Code where
  | ok
  | cancelled
  | unknown
  | invalidArgument
  | deadlineExceeded
  | notFound
  | alreadyExists
  | permissionDenied
  | resourceExhausted
  | failedPrecondition
  | aborted
  | outOfRange
  | unimplemented
  | internal
  | unavailable
  | dataLoss
  | unauthenticated
  deriving DecidableEq, Repr

namespace Code

def all : List (Code × String) := [
  (.ok,"Ok"),(.cancelled,"Cancelled"),(.unknown,"Unknown"),(.invalidArgument,"InvalidArgument"),
  (.deadlineExceeded,"DeadlineExceeded"),(.notFound,"NotFound"),(.alreadyExists,"AlreadyExists"),
  (.permissionDenied,"PermissionDenied"),(.resourceExhausted,"ResourceExhausted"),
  (.failedPrecondition,"FailedPrecondition"),(.aborted,"Aborted"),(.outOfRange,"OutOfRange"),
  (.unimplemented,"Unimplemented"),(.internal,"Internal"),(.unavailable,"Unavailable"),
  (.dataLoss,"DataLoss"),(.unauthenticated,"Unauthenticated")]

def name (c : Code) : String := (all.lookup c).getD "Unknown"

-- Numbers without a code mean an unknown failure.
def ofNumber (n : Nat) : Code := (all[n]?).elim .unknown Prod.fst

end Code

structure Failure where
  code : Code
  message : String
  deriving DecidableEq

-- Failures that may go away with a new connection count as an unreachable peer.
def Failure.asError (f : Failure) : TransportError := match f.code with
  | .unavailable => .unreachable f.message
  | .unknown => .unreachable f.message
  | .cancelled => .unreachable f.message
  | .deadlineExceeded => .timeout
  | code => .rejected (code.name ++ ": " ++ f.message)

inductive Service where
  | handler (respond : Request → Reply) (delay : Nat)
  | failing (failure : Failure)
  | blank

namespace Service

def exchange (s : Service) (frame : Wire.RequestFrame) : Except Failure Wire.ReplyFrame := match s with
  | .handler respond _ => frame.serve fun r => .ok (respond r)
  | .failing failure => .error failure
  | .blank => .ok none

def delay : Service → Nat
  | .handler _ d => d
  | _ => 0

end Service

def receive : Except Failure Wire.ReplyFrame → Delivery
  | .error failure => .error failure.asError
  | .ok frame => match frame.reply with
    | .ok reply => .ok reply
    | .error why => .error (.malformedReply why.message)

-- The machine the transport runs on: whom it can reach and where it can listen, or why not.
structure Host where
  connects : Address → Except String Unit
  binds : Address → Except String Unit

namespace Host

-- A reply that takes longer than the timeout is as good as none.
def send (h : Host) (target : Address) (service : Service) (request : Request) (timeout : Nat) : Delivery :=
  match h.connects target with
  | .error why => .error (.unreachable why)
  | .ok _ =>
    if timeout < service.delay then .error .timeout
    else receive (service.exchange request.frame)

-- Port zero stands for any port that is free.
def register (h : Host) (taken : List Address) (a : Address) : Except TransportError Unit :=
  match h.binds a with
  | .error why => .error (.bind (a.text ++ ": " ++ why))
  | .ok _ =>
    if a.port ≠ 0 ∧ a ∈ taken then .error (.bind (a.text ++ ": Address already in use (os error 98)"))
    else .ok ()

-- Without a routing table every number of four bytes passes for the machine's own. Of the longer
-- ones those do that stand for one of four bytes, and the one that stands for any.
def owns : HostNumber → Bool
  | .four _ => true
  | .six groups => groups = List.replicate 8 0 || groups.take 6 = [0,0,0,0,0,0xffff]

def unresolved : String := "failed to lookup address information: Temporary failure in name resolution"

def unconnected (name : String) : String :=
  "transport error: error trying to connect: " ++ match HostNumber.ofName name with
    | none => "dns error: " ++ unresolved
    | some number => "tcp connect error: " ++
        if owns number then "Network is unreachable (os error 101)"
        else "Cannot assign requested address (os error 99)"

-- A machine without a network: it listens on its own addresses, and no connection leaves it.
def offline : Host where
  connects a := match Locator.host "http" a.text with
    | .error e => .error e.message
    | .ok name => .error (unconnected name)
  binds a := match HostNumber.ofName a.host with
    | none => .error unresolved
    | some number =>
      if owns number then .ok () else .error "Cannot assign requested address (os error 99)"

end Host
end LeaderElection.Remote
