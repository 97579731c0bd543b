import LeaderElection.Creation
import LeaderElection.Settings

namespace LeaderElection

def Record.line (r : Record) : String :=
  r.level.text ++ " " ++ r.text ++ (r.peer.elim "" fun p => ", Peer: " ++ p.text)

def Settings.config (s : Settings) : Config := ⟨s.me,s.members,⟨none,none,none,none,none,none⟩⟩

def introduction (env : Environment) : Except String (List String) := do
  let (settings,log) ← (Settings.ofEnvironment env).mapError SettingsError.message
  let (roster,_) ← settings.config.plan.mapError CreationError.message
  return log.map Record.line ++
    [roster.me.text ++ " at " ++ roster.address.text ++ ", " ++ toString (quorum roster.size) ++ " of " ++
      toString roster.size ++ " votes elect"]

end LeaderElection

open LeaderElection in
def main : IO UInt32 := do
  let env : Environment := ⟨← IO.getEnv "NODE_ID",← IO.getEnv "HOST",← IO.getEnv "PORT",← IO.getEnv "PEERS"⟩
  match introduction env with
  | .ok lines =>
    for line in lines do IO.println line
    return 0
  | .error message =>
    IO.eprintln ("Error: " ++ message)
    return 1
