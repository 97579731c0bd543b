import LeaderElection.Member
import LeaderElection.Text.Basic

namespace LeaderElection

namespace PeerList

-- A list of peers is written `name:port,name:port`. The name is the peer's host as well.
inductive Entry where
  | peer (member : Member)
  | malformed (token : List Char)
  deriving DecidableEq

-- The port starts behind the first colon, whatever follows.
def readEntry (token : List Char) : Entry :=
  let name := token.takeWhile (· != ':')
  match token.dropWhile (· != ':') with
  | [] => .malformed token
  | _ :: digits => match Text.readNumber digits with
    | .error _ => .malformed token
    | .ok port =>
      if name = [] then .malformed token
      else let host := String.ofList name; .peer ⟨⟨host⟩,⟨host,port⟩⟩

-- Blank entries are none at all.
def tokens (s : List Char) : List (List Char) :=
  ((Text.separate ',' s).map Text.trim).filter (· ≠ [])

def read (s : List Char) : List Entry := (tokens s).map readEntry

def Entry.member? : Entry → Option Member
  | .peer m => some m
  | .malformed _ => none

def Entry.warning? : Entry → Option Record
  | .peer _ => none
  | .malformed token => some ⟨.warning,
      "Skipping malformed peer '" ++ String.ofList token ++ "'. Expected 'name:port'.",none⟩

def members (s : List Char) : List Member := (read s).filterMap Entry.member?
def warnings (s : List Char) : List Record := (read s).filterMap Entry.warning?

end PeerList

-- What a process finds in its environment. Anything may be unset.
structure Environment where
  nodeId : Option String
  host : Option String
  port : Option String
  peers : Option String

structure Settings where
  me : NodeId
  members : List Member
  deriving DecidableEq

inductive SettingsError where
  | invalidPort (text : String) (cause : Text.NumberError)
  deriving DecidableEq

def SettingsError.message : SettingsError → String
  | .invalidPort text cause => "Invalid PORT '" ++ text ++ "': " ++ cause.message

namespace Settings

def portOf : Option String → Except SettingsError UInt16
  | none => .ok 5000
  | some text => (Text.readNumber text.toList).mapError (.invalidPort text)

-- The own address comes first. Malformed peers are skipped, with a warning each.
def ofEnvironment (env : Environment) : Except SettingsError (Settings × List Record) := do
  let me := ⟨env.nodeId.getD "node1"⟩
  let port ← portOf env.port
  let peers := (env.peers.getD "").toList
  return (⟨me,⟨me,⟨env.host.getD "0.0.0.0",port⟩⟩ :: PeerList.members peers⟩,PeerList.warnings peers)

end Settings
end LeaderElection
