import LeaderElection.Proofs.Shutdown
import LeaderElection.Simulation.Bench
import LeaderElection.Simulation.Schedule

namespace LeaderElection.Bench

-- A bench is a member on duty whose requests end as its script says.
def duty (b : Bench) : Duty := ⟨b.now,b.station,b.errands.map fun e => ⟨e.peer,e.exchange⟩,b.reader⟩

variable {b next last : Bench}

-- An errand that is finished, and a turn that is taken.
theorem finish_parts (finished : b.finish i = some next) : ∃ e delivery,
    b.errands[i]? = some e ∧ e.outcome b.now = some delivery ∧
      let rest := {b with errands := b.errands.eraseIdx i}
      next = (rest.post (e.exchange.report e.peer delivery)).getD rest := by
  obtain ⟨e,found,finished⟩ := Option.bind_eq_some_iff.mp finished
  obtain ⟨delivery,outcome,same⟩ := Option.bind_eq_some_iff.mp finished
  exact ⟨e,delivery,found,outcome,(Option.some.inj same).symm⟩

theorem take_parts (taken : b.take = some next) : ∃ timings turn station,
    b.station.timings? = some timings ∧ b.station.take b.now b.draw = some (turn,station) ∧
      next = turn.sends.foldl (send timings.rpc)
        {b with station, draws := b.draws.next, receipts := b.receipts ++ turn.receipts.map Prod.snd} := by
  unfold take at taken
  split at taken
  · cases taken
  · obtain ⟨timings,present,taken⟩ := Option.bind_eq_some_iff.mp taken
    obtain ⟨⟨turn,station⟩,took,same⟩ := Option.bind_eq_some_iff.mp taken
    exact ⟨timings,turn,station,present,took,(Option.some.inj same).symm⟩

theorem create_duty (attended : Bool) (roster : Roster) (timings : Timings) (patience : Nat)
    (script : Directory String Manner) (draws : Draws) : ∃ reader,
    (create attended roster timings patience script draws).duty =
      .opened 0 (draws.within timings.election) roster timings patience reader := ⟨_,rfl⟩

theorem post_duty (e : Event Nat) (b : Bench) : ((b.post e).getD b).duty = b.duty.welcome (some e) := by
  unfold post Duty.welcome Duty.mailbox
  rw [Option.bind_some]
  change _ = {b.duty with station := {b.station with mailbox := (b.station.mailbox.post e).getD b.station.mailbox}}
  cases b.station.mailbox.post e <;> rfl

theorem finish_duty (finished : b.finish i = some next) :
    ∃ delivery, next.duty = b.duty.does (.finish i delivery) := by
  obtain ⟨e,delivery,found,_,rfl⟩ := finish_parts finished
  have comes : b.duty.comes (.finish i delivery) = some (e.exchange.report e.peer delivery) := by
    simp [Duty.comes,duty,found,Task.report]
  refine ⟨delivery,?_⟩
  rw [Duty.does,comes,post_duty]
  simp [duty,Duty.welcome,Duty.mailbox,List.eraseIdx_map]

theorem wake_duty (woken : b.wake = some next) : next.duty = b.duty.does (.wake b.draw) := by
  obtain ⟨⟨mailbox,alarm⟩,woke,same⟩ := Option.map_eq_some_iff.mp woken
  cases same
  change _ = {b.duty with
    station := {b.station with mailbox := ((b.station.mailbox.wake b.now b.draw).map Prod.fst).getD b.station.mailbox}}
  rw [woke]
  rfl

theorem sends_duty (timeout : Nat) (sends : List Dispatch) (b : Bench) : (sends.foldl (send timeout) b).duty =
    {b.duty with tasks := b.duty.tasks ++ sends.map fun s => ⟨s.peer.id,.start b.now timeout s.request⟩} := by
  induction sends generalizing b with
  | nil => simp
  | cons s rest ih =>
      rw [List.foldl_cons,ih]
      simp [send,duty]

theorem take_duty (taken : b.take = some next) : next.duty = b.duty.does (.take b.draw) := by
  obtain ⟨timings,turn,station,present,took,rfl⟩ := take_parts taken
  have started : b.duty.start = fun s => ⟨s.peer.id,.start b.now timings.rpc s.request⟩ := by
    funext s
    have timed : b.duty.station.timings? = some timings := present
    rw [Duty.start,timed]
    rfl
  have took' : b.duty.station.take b.duty.now b.draw = some (turn,station) := took
  rw [Duty.does_take took',sends_duty,started]
  rfl

-- All that a bench does by itself is an incident of the duty.
theorem perform_duty {m : Move} (performed : perform m b = some next) : ∃ x, next.duty = b.duty.does x := by
  cases m with
  | finish i =>
      obtain ⟨delivery,same⟩ := finish_duty performed
      exact ⟨_,same⟩
  | wake => exact ⟨_,wake_duty performed⟩
  | take => exact ⟨_,take_duty performed⟩

theorem reaches_duty (reaches : Schedule.Reaches b last) : ∃ xs, last.duty = b.duty.run xs := by
  induction reaches with
  | rest => exact ⟨[],rfl⟩
  | move before performed ih =>
      obtain ⟨xs,same⟩ := ih
      obtain ⟨x,next⟩ := perform_duty performed
      exact ⟨xs ++ [x],by rw [next,same,Duty.run_append]; rfl⟩
  | pass before t ih =>
      obtain ⟨xs,same⟩ := ih
      exact ⟨xs ++ [.pass t],by rw [Duty.run_append,← same]; rfl⟩

theorem settle_duty (b : Bench) : ∃ xs, (Schedule.settle b).duty = b.duty.run xs :=
  reaches_duty Schedule.Reaches.rest.settle

-- Whatever is asked of a bench, what holds of every duty holds of it.
theorem bench_on_duty (b : Bench) :
    (∀ e, ∃ xs, (b.ask e).2.duty = b.duty.run (.post e :: xs)) ∧
    (∀ f, ∃ xs, (b.tend f).duty = b.duty.run (.tend f :: xs)) ∧
    (∃ xs, b.release.duty = b.duty.run (.release :: xs)) ∧
    (∀ ms, ∃ xs, (Schedule.run ms b).duty = b.duty.run xs) ∧
    b.read.2.duty = b.duty.does .read := by
  refine ⟨?_,?_,?_,fun ms => reaches_duty (Schedule.run_reaches ms b),rfl⟩
  · intro e
    have posted := post_duty e b
    unfold ask
    cases taken : b.post e with
    | none =>
        rw [taken] at posted
        exact ⟨[],posted⟩
    | some after =>
        rw [taken] at posted
        obtain ⟨xs,same⟩ := settle_duty after
        refine ⟨xs,?_⟩
        rw [Duty.run,Duty.does,Duty.comes,← posted]
        exact same
  · intro f
    exact settle_duty {b with station := {b.station with detector := f b.station.detector}}
  · exact settle_duty {b with station := {b.station with mailbox := b.station.mailbox.release}}

end LeaderElection.Bench
