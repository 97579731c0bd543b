import LeaderElection.Detector
import LeaderElection.Simulation.Schedule

namespace LeaderElection

-- A detector left to itself under a clock, and what it has done since it was last asked.
structure Lookout where
  now : Nat
  detector : Detector
  calls : List (Nat × Invocation)
  log : List Record

namespace Lookout

def create (patience : Nat) : Lookout := ⟨0,.create patience,[],[]⟩

def poll (l : Lookout) : Option Lookout :=
  (l.detector.wake l.now).map fun s =>
    {l with
      detector := s.detector.hasten Time.horizon
      calls := l.calls ++ s.calls.map fun c => (l.now,c)
      log := l.log ++ s.log}

instance : Lively Lookout Unit where
  now := Lookout.now
  moveTo t l := {l with now := t}
  moves _ := [()]
  perform _ := poll
  due l := l.detector.due

inductive Order where
  | mark (peer : NodeId)
  | setPatience (peer : NodeId) (patience : Nat)
  | register (callback : Callback)
  | start (interval : Nat)
  | stop
  | clear
  | run (ms : Nat)
  | jump (ahead : Nat)

def logged (l : Lookout) (change : Detector × List Record) : Lookout :=
  {l with detector := change.1, log := l.log ++ change.2}

-- A jump passes over whatever was due on the way. That is done late.
def obey (l : Lookout) : Order → Lookout
  | .mark peer => Schedule.settle {l with detector := l.detector.mark l.now peer}
  | .setPatience peer patience => Schedule.settle {l with detector := l.detector.setPatience peer patience}
  | .register callback => Schedule.settle {l with detector := l.detector.register callback}
  | .start interval => Schedule.settle (l.logged (l.detector.start l.now interval))
  | .stop => Schedule.settle (l.logged l.detector.stop)
  | .clear => Schedule.settle {l with detector := l.detector.clear}
  | .run ms => Schedule.run ms l
  | .jump ahead => Schedule.settle {l with now := l.now+ahead}

def told (l : Lookout) : Lookout := {l with calls := [], log := []}

end Lookout
end LeaderElection
