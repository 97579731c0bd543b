import LeaderElection.Text.Quoted

namespace LeaderElection

-- Ids are compared character by character, never trimmed or folded.
structure NodeId where
  text : String
  deriving DecidableEq, Inhabited

namespace NodeId

def quoted (id : NodeId) : String := Text.quoted id.text

def le (a b : NodeId) : Bool := decide (a.text ≤ b.text)

def sort (ids : List NodeId) : List NodeId := ids.mergeSort le

end NodeId

structure Address where
  host : String
  port : UInt16
  deriving DecidableEq, Inhabited

def Address.text (a : Address) : String := a.host ++ ":" ++ toString a.port.toNat

structure Member where
  id : NodeId
  address : Address
  deriving DecidableEq, Inhabited

inductive Level where
  | debug
  | info
  | warning
  | error
  deriving DecidableEq, Repr

def Level.text : Level → String
  | .debug => "DEBG"
  | .info => "INFO"
  | .warning => "WARN"
  | .error => "ERRO"

structure Record where
  level : Level
  text : String
  peer : Option NodeId
  deriving DecidableEq

-- The fixed membership of one cluster as one member sees it: itself, and everyone else.
structure Roster where
  me : NodeId
  address : Address
  peers : List Member
  deriving DecidableEq

inductive RosterError where
  | meMissing (me : NodeId)
  | repeated (id : NodeId)
  deriving DecidableEq

def RosterError.message : RosterError → String
  | .meMissing me => "my node ID " ++ me.quoted ++ " is not in cluster config"
  | .repeated id => "node ID " ++ id.quoted ++ " appears more than once in cluster config"

namespace Roster

-- The first id that has occurred before, in `seen` or further left.
def firstRepeat (seen : List NodeId) : List NodeId → Option NodeId
  | [] => none
  | id :: rest => if id ∈ seen then some id else firstRepeat (id :: seen) rest

-- A repeated id is reported even where the own id is missing as well.
def ofMembers (me : NodeId) (members : List Member) : Except RosterError Roster :=
  match firstRepeat [] (members.map Member.id) with
  | some id => .error (.repeated id)
  | none => match members.find? (fun m => m.id == me) with
    | none => .error (.meMissing me)
    | some self => .ok ⟨me,self.address,members.filter (fun m => m.id != me)⟩

def ids (r : Roster) : List NodeId := r.me :: r.peers.map Member.id

def contains (r : Roster) (id : NodeId) : Bool := r.ids.contains id

def size (r : Roster) : Nat := r.peers.length+1

end Roster

-- The least number of members of which any two sets that large have one in common.
def quorum (size : Nat) : Nat := size/2+1

end LeaderElection
