import LeaderElection.Proofs.Desk.Beats
import LeaderElection.Proofs.Desk.Quiet
import LeaderElection.Proofs.Desk.Vigil
import LeaderElection.Proofs.Errands
import LeaderElection.Proofs.Hearing

namespace LeaderElection

theorem Exchange.report_ticks {τ : Type} (peer : NodeId) (delivery : Delivery) (x : Exchange) (t : Term) :
    (x.report peer delivery : Event τ).ticks t = false := by
  obtain ⟨r,_,_⟩ := x
  cases r <;> rfl

-- Nothing is left to do for any draw if there is nothing for one.
theorem Desk.still_once {τ : Type} {now draw : Nat} {m : Mailbox τ} (taken : m.take now draw = none) (woken : m.wake now draw = none) :
    Desk.Still now m := by
  obtain ⟨loop,events,held⟩ := m
  cases loop with
  | exited feed => exact fun _ => ⟨rfl,rfl⟩
  | running n =>
      rw [Mailbox.wake_running,Option.map_eq_none_iff] at woken
      have asleep := Node.wake_none.mp woken
      cases events with
      | cons e rest => cases taken
      | nil =>
          cases held with
          | true => exact Desk.still_running.mpr ⟨rfl,rfl,asleep⟩
          | false => cases taken

namespace Desk

variable {τ : Type}

-- What a listener beside the mailbox notices of what happens at the desk.
def moment? (d : Desk τ) : Happening τ → Option (Moment τ)
  | .pass _ => none
  | .post e => some (.post e)
  | .take draw => some (.take d.now draw)
  | .wake draw => some (.wake d.now draw)
  | .release => some .release

def moments : List (Happening τ) → Desk τ → List (Moment τ)
  | [],_ => []
  | x :: rest,d => (d.moment? x).toList ++ moments rest (d.does x)

theorem moments_after (xs : List (Happening τ)) (d : Desk τ) (reader : Reader) (noticed : Bool) :
    (Hearing.mk d.mailbox reader noticed).after (d.moments xs) = ⟨(d.run xs).mailbox,reader,noticed⟩ ∧
      (Hearing.mk d.mailbox reader noticed).readings (d.moments xs) = [] := by
  induction xs generalizing d with
  | nil => exact ⟨rfl,rfl⟩
  | cons x rest ih => cases x <;> exact ih (d.does _)

end Desk

namespace Bench

def desk (b : Bench) : Desk Nat := ⟨b.now,b.station.mailbox⟩

def hearing (b : Bench) : Hearing Nat := ⟨b.station.mailbox,b.reader,false⟩

def outgoing (timeout : Nat) (s : Nat × Dispatch) : Sent := ⟨s.1,s.2.peer.address,s.2.request,timeout⟩

-- What goes on at a bench is what happens at a desk in time, with the same requests sent.
structure Works (timings : Timings) (b : Bench) (xs : List (Happening Nat)) (next : Bench) : Prop where
  desk : next.desk = b.desk.run xs
  sent : next.sent = b.sent ++ (b.desk.sent xs).map (outgoing timings.rpc)
  punctual : b.desk.Along Desk.Punctual xs
  orderly : b.desk.Along (Desk.Orderly timings.election) xs
  reader : next.reader = b.reader
  attended : next.attended = b.attended

variable {timings : Timings} {b mid next : Bench} {xs ys : List (Happening Nat)}

theorem Works.rest (timings : Timings) (b : Bench) : Works timings b [] b :=
  ⟨rfl,(List.append_nil _).symm,trivial,trivial,rfl,rfl⟩

theorem Works.trans (first : Works timings b xs mid) (second : Works timings mid ys next) : Works timings b (xs ++ ys) next := by
  refine ⟨?_,?_,?_,?_,second.reader.trans first.reader,second.attended.trans first.attended⟩
  · rw [second.desk,first.desk,Desk.run_append]
  · rw [second.sent,first.sent,Desk.sent_append,List.map_append,first.desk,List.append_assoc]
  · exact Desk.along_append.mpr ⟨first.punctual,first.desk ▸ second.punctual⟩
  · exact Desk.along_append.mpr ⟨first.orderly,first.desk ▸ second.orderly⟩

-- One thing that happens.
theorem Works.one {x : Happening Nat} (desk : next.desk = b.desk.does x)
    (sent : next.sent = b.sent ++ ((b.desk.sends x).map (b.now,·)).map (outgoing timings.rpc)) (punctual : b.desk.Punctual x)
    (orderly : b.desk.Orderly timings.election x) (reader : next.reader = b.reader) (attended : next.attended = b.attended) :
    Works timings b [x] next := by
  refine ⟨desk,?_,⟨punctual,trivial⟩,⟨orderly,trivial⟩,reader,attended⟩
  rw [sent,Desk.sent,Desk.sent,List.append_nil]
  rfl

-- A bench whose node has the given timings.
def Timed (timings : Timings) (b : Bench) : Prop := ∀ n, b.desk.node? = some n → n.timings = timings

theorem Works.timed (works : Works timings b xs next) (timed : b.Timed timings) : next.Timed timings := by
  intro n present
  rw [works.desk] at present
  obtain ⟨before,deeds,lived,rfl⟩ := Desk.run_node present
  rw [Node.run_timings]
  exact timed before lived

theorem Timed.draw_holds (timed : b.Timed timings) (present : b.station.mailbox.node? = some n) :
    timings.election.Holds b.draw := by
  have drawn : b.draw = b.draws.within timings.election := by
    rw [draw,Station.draw,Station.timings?,present,← timed n present]
    rfl
  rw [drawn]
  exact Draws.within_holds ..

theorem post_works (taken : b.post e = some next) (timings : Timings) (unprompted : ∀ t, e.ticks t = false) :
    Works timings b [.post e] next := by
  obtain ⟨mailbox,posted,rfl⟩ := Option.map_eq_some_iff.mp taken
  refine .one ?_ (List.append_nil _).symm unprompted trivial rfl rfl
  rw [Desk.does,desk,desk,posted]
  rfl

theorem finish_works (finished : b.finish i = some next) (timings : Timings) : ∃ x, Works timings b [x] next := by
  obtain ⟨e,delivery,_,_,rfl⟩ := finish_parts finished
  let rest : Bench := {b with errands := b.errands.eraseIdx i}
  let report : Event Nat := e.exchange.report e.peer delivery
  refine ⟨.post report,?_⟩
  cases taken : rest.post report with
  | some next =>
      have works := post_works taken timings (Exchange.report_ticks e.peer delivery e.exchange)
      exact ⟨works.desk,works.sent,works.punctual,works.orderly,works.reader,works.attended⟩
  | none =>
      have refused : b.station.mailbox.post report = none := Option.map_eq_none_iff.mp taken
      refine .one ?_ (List.append_nil _).symm (Exchange.report_ticks e.peer delivery e.exchange) trivial rfl rfl
      rw [Desk.does,desk,desk,refused]
      rfl

theorem wake_works (timed : b.Timed timings) (woken : b.wake = some next) : Works timings b [.wake b.draw] next := by
  obtain ⟨⟨mailbox,alarm⟩,woke,rfl⟩ := Option.map_eq_some_iff.mp woken
  obtain ⟨n,_,running,_,_⟩ := Mailbox.wake_parts woke
  refine .one ?_ (List.append_nil _).symm trivial (timed.draw_holds running) rfl rfl
  rw [Desk.does,desk,desk,woke]
  rfl

theorem sends_sent (timeout : Nat) (sends : List Dispatch) (b : Bench) : (sends.foldl (send timeout) b).sent =
    b.sent ++ (sends.map (b.now,·)).map (outgoing timeout) ∧ (sends.foldl (send timeout) b).attended = b.attended := by
  induction sends generalizing b with
  | nil => exact ⟨(List.append_nil _).symm,rfl⟩
  | cons d rest ih =>
      obtain ⟨sent,attended⟩ := ih (b.send timeout d)
      refine ⟨?_,attended⟩
      rw [List.foldl_cons,sent]
      exact List.append_assoc b.sent [_] _

theorem take_works (timed : b.Timed timings) (taken : b.take = some next) : Works timings b [.take b.draw] next := by
  obtain ⟨given,turn,station,present,took,rfl⟩ := take_parts taken
  obtain ⟨n,running,rfl⟩ := Option.map_eq_some_iff.mp present
  obtain ⟨took,mailbox⟩ := Station.take_parts took
  let turned : Bench := {b with station, draws := b.draws.next, receipts := b.receipts ++ turn.receipts.map Prod.snd}
  obtain ⟨sent,attended⟩ := sends_sent n.timings.rpc turn.sends turned
  have kept : (turn.sends.foldl (send n.timings.rpc) turned).duty = {turned.duty with
      tasks := turned.duty.tasks ++ turn.sends.map fun s => ⟨s.peer.id,.start turned.now n.timings.rpc s.request⟩} :=
    sends_duty n.timings.rpc turn.sends turned
  have handed : b.desk.sends (.take b.draw) = turn.sends := by
    rw [Desk.sends,desk,took]
    rfl
  refine .one ?_ ?_ trivial (timed.draw_holds running) (congrArg Duty.reader kept) attended
  · have now : (turn.sends.foldl (send n.timings.rpc) turned).now = b.now := congrArg Duty.now kept
    have after : (turn.sends.foldl (send n.timings.rpc) turned).station.mailbox = turn.mailbox :=
      (congrArg (fun d => d.station.mailbox) kept).trans mailbox
    have same : (turn.sends.foldl (send n.timings.rpc) turned).desk = ⟨b.now,turn.mailbox⟩ := by rw [desk,now,after]
    rw [same,Desk.does,desk,took]
    rfl
  · rw [handed,sent,timed n running]

theorem idle_still {u : Nat} (attended : b.attended = true) (idle : Schedule.Idle u b) : Desk.Still u b.station.mailbox := by
  have taken : ({b with now := u} : Bench).take = none := idle .take
  have woken : ({b with now := u} : Bench).wake = none := idle .wake
  have woken : b.station.mailbox.wake u b.draw = none := Option.map_eq_none_iff.mp woken
  refine Desk.still_once ?_ woken
  cases running : b.station.mailbox.node? with
  | none =>
      unfold Mailbox.take
      rw [Mailbox.stopped_loop.mp running]
  | some n =>
      have timings : b.station.timings? = some n.timings := by rw [Station.timings?,running,Option.map_some]
      unfold take at taken
      simp only [attended,timings,Bool.not_true,Bool.false_eq_true,if_false,Option.bind_eq_bind,Option.bind_some] at taken
      change (b.station.take u b.draw).bind _ = none at taken
      cases took : b.station.mailbox.take u b.draw with
      | none => rfl
      | some turn =>
          rw [Station.take,took] at taken
          cases taken

theorem perform_works {m : Move} (timed : b.Timed timings) (performed : perform m b = some next) :
    ∃ x, Works timings b [x] next := by
  cases m with
  | finish i => exact finish_works performed timings
  | wake => exact ⟨_,wake_works timed performed⟩
  | take => exact ⟨_,take_works timed performed⟩

theorem elapses_works (attended : b.attended = true) (timed : b.Timed timings) (elapses : Schedule.Elapses b next) :
    ∃ xs, Works timings b xs next := by
  induction elapses with
  | rest => exact ⟨[],.rest timings b⟩
  | move _ performed ih =>
      obtain ⟨xs,works⟩ := ih
      obtain ⟨x,last⟩ := perform_works (works.timed timed) performed
      exact ⟨xs ++ [x],works.trans last⟩
  | @pass s instant _ onward idle ih =>
      obtain ⟨xs,works⟩ := ih
      have still : ∀ u, s.now ≤ u → u < instant → Desk.Still u s.station.mailbox := fun u early late =>
        idle_still (works.attended.trans attended) (idle u early late)
      have passed : Works timings s [.pass instant] {s with now := instant} :=
        .one rfl (List.append_nil _).symm ⟨onward,still⟩ onward rfl rfl
      exact ⟨xs ++ [.pass instant],works.trans passed⟩

theorem Works.hearing (works : Works timings b xs next) :
    next.hearing = b.hearing.after (b.desk.moments xs) ∧ b.hearing.readings (b.desk.moments xs) = [] := by
  obtain ⟨after,readings⟩ := b.desk.moments_after xs b.reader false
  refine ⟨?_,readings⟩
  have mailbox : next.station.mailbox = (b.desk.run xs).mailbox := congrArg Desk.mailbox works.desk
  rw [Bench.hearing,mailbox,works.reader]
  exact after.symm

-- A reading at a bench takes its two steps one after the other.
theorem read_hearing (comes : b.read.1 ≠ .nothing) :
    b.read.2.hearing = b.hearing.after [.notice,.fetch] ∧ b.hearing.readings [.notice,.fetch] = [b.read.1] := by
  unfold read Reader.read at comes ⊢
  cases noticed : b.reader.notice b.station.mailbox.feed with
  | some reader => simp [hearing,Hearing.after,Hearing.passes,Hearing.readings,Hearing.hears,noticed]
  | none =>
      cases closed : b.station.mailbox.feed.closed with
      | true => simp [hearing,Hearing.after,Hearing.passes,Hearing.readings,Hearing.hears,noticed,closed]
      | false => simp [noticed,closed] at comes

-- How far a bench has come.
structure Stands (timings : Timings) (d : Desk Nat) (h : Hearing Nat) (xs : List (Happening Nat)) (ms : List (Moment Nat))
    (b : Bench) (got : List (Reading Snapshot)) : Prop where
  desk : b.desk = d.run xs
  sent : ∃ earlier, (d.sent xs).map (outgoing timings.rpc) = earlier ++ b.sent
  punctual : d.Along Desk.Punctual xs
  orderly : d.Along (Desk.Orderly timings.election) xs
  attended : b.attended = true
  timed : b.Timed timings
  hearing : b.hearing = h.after ms
  got : got = h.readings ms

variable {d : Desk Nat} {h : Hearing Nat} {ms : List (Moment Nat)} {got : List (Reading Snapshot)}

theorem Stands.works (stands : Stands timings d h xs ms b got) (works : Works timings b ys next) :
    Stands timings d h (xs ++ ys) (ms ++ b.desk.moments ys) next got := by
  obtain ⟨earlier,sent⟩ := stands.sent
  obtain ⟨after,silent⟩ := works.hearing
  refine ⟨?_,⟨earlier,?_⟩,?_,?_,works.attended.trans stands.attended,works.timed stands.timed,?_,?_⟩
  · rw [works.desk,stands.desk,Desk.run_append]
  · rw [works.sent,Desk.sent_append,List.map_append,sent,stands.desk,List.append_assoc]
  · exact Desk.along_append.mpr ⟨stands.punctual,stands.desk ▸ works.punctual⟩
  · exact Desk.along_append.mpr ⟨stands.orderly,stands.desk ▸ works.orderly⟩
  · rw [after,stands.hearing,Hearing.after_append]
  · rw [Hearing.readings_append,← stands.hearing,silent,List.append_nil]
    exact stands.got

theorem Stands.goes {posts : Event Nat → Prop} (stands : Stands timings d h xs ms b got) (goes : Goes posts b next heard)
    (unprompted : ∀ e, posts e → ∀ t, e.ticks t = false) : ∃ xs' ms', Stands timings d h xs' ms' next (got ++ heard) := by
  cases goes with
  | elapses elapses =>
      obtain ⟨ys,works⟩ := elapses_works stands.attended stands.timed elapses
      rw [List.append_nil]
      exact ⟨_,_,stands.works works⟩
  | post allowed posted =>
      rw [List.append_nil]
      exact ⟨_,_,stands.works (post_works posted timings (unprompted _ allowed))⟩
  | release =>
      rw [List.append_nil]
      have works : Works timings b [.release] {b with station.mailbox := b.station.mailbox.release} :=
        .one rfl (List.append_nil _).symm trivial trivial rfl rfl
      exact ⟨_,_,stands.works works⟩
  | read comes =>
      obtain ⟨after,readings⟩ := read_hearing comes
      refine ⟨xs,ms ++ [.notice,.fetch],{stands with hearing := ?_, got := ?_}⟩
      · rw [after,stands.hearing,Hearing.after_append]
      · rw [Hearing.readings_append,← stands.hearing,readings,stands.got]
  | tend f => exact ⟨xs,ms,{stands with got := (List.append_nil got).trans stands.got}⟩
  | teach => exact ⟨xs,ms,{stands with got := (List.append_nil got).trans stands.got}⟩
  | tell =>
      exact ⟨xs,ms,{stands with got := (List.append_nil got).trans stands.got, sent := ⟨_,(List.append_nil _).symm⟩}⟩

-- Whatever happens at a bench where nobody else says that it is time for a heartbeat, it has come as far as some desk
-- where nothing is put off, and whoever reads there has heard what a listener beside its mailbox hears. What is on
-- record of the requests that were sent is the last part of them.
theorem bench_at_desk {posts : Event Nat → Prop} (unprompted : ∀ e, posts e → ∀ t, e.ticks t = false) (roster : Roster)
    (timings : Timings) (patience : Nat) (script : Directory String Manner) (draws : Draws)
    (course : Course posts (create true roster timings patience script draws) b got) : ∃ xs ms,
      Stands timings (.opened 0 (draws.within timings.election) roster timings)
        (create true roster timings patience script draws).hearing xs ms b got := by
  induction course with
  | begun =>
      refine ⟨[],[],rfl,⟨[],rfl⟩,trivial,trivial,rfl,?_,rfl,rfl⟩
      intro n present
      cases present
      rfl
  | goes _ goes ih =>
      obtain ⟨xs,ms,stands⟩ := ih
      exact stands.goes goes unprompted

-- So it keeps watch over its election timer.
theorem bench_keeps_vigil {posts : Event Nat → Prop} (unprompted : ∀ e, posts e → ∀ t, e.ticks t = false) (roster : Roster)
    (timings : Timings) (patience : Nat) (script : Directory String Manner) (draws : Draws)
    (course : Course posts (create true roster timings patience script draws) b got) (timed : b.desk.timer? = some t) :
    ∃ start draw acts, let v := (Vigil.armed start draw).run acts
      v.now = b.now ∧ v.timer = some t := by
  obtain ⟨xs,_,stands⟩ := bench_at_desk unprompted roster timings patience script draws course
  have reached := timed
  rw [stands.desk] at reached
  obtain ⟨past,since,draw,acts,rfl,keeps,_⟩ :=
    Desk.desk_keeps_vigil 0 (draws.within timings.election) roster timings stands.punctual reached
  rw [← Desk.run_append,← stands.desk] at keeps
  exact ⟨_,draw,acts,keeps.now,keeps.timer.trans timed⟩

end Bench
end LeaderElection
