import LeaderElection.Proofs.Courier.Basic
import LeaderElection.Proofs.Desk.Basic
import LeaderElection.Proofs.Node.Pace

namespace LeaderElection.Courier

variable {c : Courier} {k : Nat} {p : Parcel} {x : Act}

-- What a courier does is all done at one desk, so its node has lived through some deeds.
def desk (c : Courier) : Desk Nat := ⟨c.now,c.station.mailbox⟩

theorem take_desk (draw : Nat) (efforts : Dispatch → Option Effort) (c : Courier) :
    (c.take draw efforts).desk = c.desk.does (.take draw) := by
  rcases take_parts draw efforts c with ⟨same,stuck⟩ | ⟨turn,station,taken,same⟩
  · have stuck : c.station.mailbox.take c.now draw = none := Option.map_eq_none_iff.mp stuck
    rw [same,Desk.does]
    change c.desk = ⟨c.now,((c.station.mailbox.take c.now draw).map Turn.mailbox).getD c.station.mailbox⟩
    rw [stuck]
    rfl
  · obtain ⟨turn',took,parts⟩ := Option.map_eq_some_iff.mp taken
    cases parts
    obtain ⟨now,kept,_,_⟩ := sends_frame c.rpc efforts turn.sends
      {c with station := Station.hear c.now turn.heard {c.station with mailbox := turn.mailbox}}
    rw [same,desk,now,kept]
    change _ = (⟨c.now,((c.station.mailbox.take c.now draw).map Turn.mailbox).getD c.station.mailbox⟩ : Desk Nat)
    rw [took]
    rfl

theorem finish_desk (k : Nat) (c : Courier) : (c.finish k).desk = c.desk ∨ ∃ e, (c.finish k).desk = c.desk.does (.post e) := by
  unfold finish
  split
  · exact .inl rfl
  · split
    · exact .inl rfl
    · exact .inr ⟨_,rfl⟩

theorem does_desk (x : Act) (c : Courier) : ∃ happenings, (c.does x).desk = c.desk.run happenings := by
  cases x with
  | pass instant =>
      rw [does]
      split
      · exact ⟨[.pass instant],rfl⟩
      · exact ⟨[],rfl⟩
  | post e => exact ⟨[.post e],rfl⟩
  | take draw efforts => exact ⟨[.take draw],take_desk draw efforts c⟩
  | finish k =>
      rcases finish_desk k c with same | ⟨e,same⟩
      · exact ⟨[],same⟩
      · exact ⟨[.post e],same⟩
  | wake draw => exact ⟨[.wake draw],rfl⟩
  | tend f => exact ⟨[],rfl⟩
  | release => exact ⟨[.release],rfl⟩

theorem run_desk (xs : List Act) (c : Courier) : ∃ happenings, (c.run xs).desk = c.desk.run happenings := by
  induction xs generalizing c with
  | nil => exact ⟨[],rfl⟩
  | cons x rest ih =>
      obtain ⟨first,same⟩ := does_desk x c
      obtain ⟨others,last⟩ := ih (c.does x)
      exact ⟨first ++ others,by rw [run,last,same,Desk.run_append]⟩

theorem take_running {turn : Turn Nat} {station : Station} (taken : c.station.take c.now draw = some (turn,station)) :
    ∃ n, c.station.mailbox.node? = some n := by
  obtain ⟨_,took,_⟩ := Option.map_eq_some_iff.mp taken
  unfold Mailbox.take at took
  unfold Mailbox.node?
  cases running : c.station.mailbox.loop with
  | running n => exact ⟨n,rfl⟩
  | exited feed =>
      rw [running] at took
      cases took

theorem run_rpc {start first patience : Nat} {roster : Roster} {timings : Timings} {xs : List Act}
    (running : ((opened start first roster timings patience).run xs).station.mailbox.node? = some n) :
    ((opened start first roster timings patience).run xs).rpc = timings.rpc := by
  obtain ⟨happenings,same⟩ := run_desk xs (opened start first roster timings patience)
  have after : (((opened start first roster timings patience).desk).run happenings).node? = some n := same ▸ running
  obtain ⟨first,deeds,created,lived⟩ := Desk.run_node after
  cases created
  rw [rpc,Station.timings?,running,Option.map_some,Option.map_some,Option.getD_some,lived,Node.run_timings]
  rfl

theorem send_waits {turn : Turn Nat} {station : Station} {d : Dispatch} (ahead : ∀ k, c.serial ≤ k → Ahead k c)
    (taken : c.station.take c.now draw = some (turn,station)) (sent : turn.sends[i]? = some d)
    (efforts : Dispatch → Option Effort) :
    Waits (c.serial+i) (.sent c.now c.rpc d (efforts d)) (c.does (.take draw efforts)) := by
  have taking : c.does (.take draw efforts) = turn.sends.foldl (send c.rpc efforts) {c with station} := by
    rw [does,take,taken]
  obtain ⟨now,_,outcomes,serial⟩ := sends_frame c.rpc efforts turn.sends {c with station}
  obtain ⟨short,_⟩ := List.getElem?_eq_some_iff.mp sent
  rw [taking]
  refine ⟨?_,story_parts.mpr ⟨sends_found c.rpc efforts {c with station} sent,?_⟩,?_⟩
  · rw [serial]
    exact Nat.add_lt_add_left short _
  · rw [outcomes]
    exact (story_parts.mp (ahead _ (Nat.le_add_right _ _)).story).2
  · rw [now]
    exact Parcel.sent_due c.now c.rpc d (efforts d)

theorem finish_events (waits : c.pending.find? k = some p) (due : c.now = p.due) :
    (c.finish k).station.mailbox.events = c.station.mailbox.events ++ (c.verdict p).map Prod.snd := by
  rw [finish_due waits due]
  change ((c.station.mailbox.post p.report).getD c.station.mailbox).events = _
  unfold Mailbox.post verdict alive
  cases (c.station.mailbox.held && c.station.mailbox.node?.isSome) <;> simp

-- Events are taken from the front and come in at the end, as long as there is a node to take them.
theorem post_events (e : Event Nat) (m : Mailbox Nat) :
    ((m.post e).getD m).node? = m.node? ∧ ∃ come, ((m.post e).getD m).events = m.events ++ come := by
  unfold Mailbox.post
  split
  · exact ⟨rfl,[e],rfl⟩
  · exact ⟨rfl,[],(List.append_nil _).symm⟩

theorem take_events (draw : Nat) (efforts : Dispatch → Option Effort) (c : Courier)
    (running : (c.take draw efforts).station.mailbox.node?.isSome = true) :
    c.station.mailbox.node?.isSome = true ∧
      (c.take draw efforts).station.mailbox.events = c.station.mailbox.events.drop 1 := by
  rcases take_parts draw efforts c with ⟨same,stuck⟩ | ⟨turn,station,taken,same⟩
  · rw [same] at running ⊢
    refine ⟨running,?_⟩
    obtain ⟨n,live⟩ := Option.isSome_iff_exists.mp running
    have empty : c.station.mailbox.events = [] := by
      by_contra waiting
      obtain ⟨e,waits⟩ := List.exists_mem_of_ne_nil _ waiting
      obtain ⟨next,took⟩ := Mailbox.take_waiting live waits c.now draw
      rw [Station.take,took] at stuck
      cases stuck
    rw [empty,List.drop_nil]
  · obtain ⟨turn',took,parts⟩ := Option.map_eq_some_iff.mp taken
    cases parts
    obtain ⟨_,kept,_,_⟩ := sends_frame c.rpc efforts turn.sends
      {c with station := Station.hear c.now turn.heard {c.station with mailbox := turn.mailbox}}
    rw [same,kept] at running ⊢
    obtain ⟨n,live⟩ := take_running taken
    exact ⟨live ▸ rfl,Mailbox.take_rest took running⟩

theorem finish_post (k : Nat) (c : Courier) : (c.finish k).station = c.station ∨
    ∃ e, (c.finish k).station.mailbox = (c.station.mailbox.post e).getD c.station.mailbox := by
  unfold finish
  split
  · exact .inl rfl
  · split
    · exact .inl rfl
    · exact .inr ⟨_,rfl⟩

theorem does_events (x : Act) (c : Courier) (running : (c.does x).station.mailbox.node?.isSome = true) :
    c.station.mailbox.node?.isSome = true ∧ ∃ come, (c.does x).station.mailbox.events =
      c.station.mailbox.events.drop (if x.takes then 1 else 0) ++ come := by
  cases x with
  | pass instant =>
      rw [does] at running ⊢
      split at running
      · next allowed =>
          rw [if_pos allowed]
          exact ⟨running,[],(List.append_nil _).symm⟩
      · next stuck =>
          rw [if_neg stuck]
          exact ⟨running,[],(List.append_nil _).symm⟩
  | post e =>
      obtain ⟨same,come,comes⟩ := post_events e c.station.mailbox
      exact ⟨same ▸ running,come,comes⟩
  | take draw efforts =>
      obtain ⟨live,events⟩ := take_events draw efforts c running
      exact ⟨live,[],events.trans (List.append_nil _).symm⟩
  | finish k =>
      rw [does] at running ⊢
      rcases finish_post k c with same | ⟨e,same⟩
      · rw [same] at running ⊢
        exact ⟨running,[],(List.append_nil _).symm⟩
      · rw [same] at running ⊢
        obtain ⟨live,come,comes⟩ := post_events e c.station.mailbox
        exact ⟨live ▸ running,come,comes⟩
  | wake draw =>
      rw [does] at running ⊢
      cases woken : c.station.mailbox.wake c.now draw with
      | none =>
          rw [woken] at running
          exact ⟨running,[],(List.append_nil _).symm⟩
      | some woke =>
          obtain ⟨n,after,live,_,same⟩ := Mailbox.wake_parts woken
          refine ⟨live ▸ rfl,if c.station.mailbox.held then woke.2.toList.map .alarm else [],?_⟩
          rw [Option.map_some,Option.getD_some,same]
          cases c.station.mailbox.held with
          | true => rfl
          | false => exact (List.append_nil _).symm
  | tend f => exact ⟨running,[],(List.append_nil _).symm⟩
  | release => exact ⟨running,[],(List.append_nil _).symm⟩

theorem run_events (xs : List Act) (c : Courier) (running : (c.run xs).station.mailbox.node?.isSome = true) :
    c.station.mailbox.node?.isSome = true ∧ ∃ come, (c.run xs).station.mailbox.events =
      c.station.mailbox.events.drop (xs.countP Act.takes) ++ come := by
  induction xs generalizing c with
  | nil => exact ⟨running,[],(List.append_nil _).symm⟩
  | cons x rest ih =>
      obtain ⟨live,later,comes⟩ := ih (c.does x) running
      obtain ⟨before,first,events⟩ := does_events x c live
      refine ⟨before,first.drop (rest.countP Act.takes - (c.station.mailbox.events.drop (if x.takes then 1 else 0)).length)
        ++ later,?_⟩
      rw [run,comes,events,List.drop_append,List.drop_drop,List.countP_cons,List.append_assoc,
        Nat.add_comm (rest.countP Act.takes)]

-- What stands at some place of the line moves up by one with every event that is taken, until it is its turn.
theorem run_line (xs : List Act) (c : Courier) (running : (c.run xs).station.mailbox.node?.isSome = true)
    (stands : c.station.mailbox.events[n]? = some e) (ahead : xs.countP Act.takes ≤ n) :
    (c.run xs).station.mailbox.queued[n-xs.countP Act.takes]? =
      if n-xs.countP Act.takes < Mailbox.capacity then some e else none := by
  obtain ⟨_,come,comes⟩ := run_events xs c running
  have place : (c.station.mailbox.events.drop (xs.countP Act.takes))[n-xs.countP Act.takes]? = some e := by
    rw [List.getElem?_drop,Nat.add_sub_cancel' ahead,stands]
  obtain ⟨short,_⟩ := List.getElem?_eq_some_iff.mp place
  rw [Mailbox.queued,List.getElem?_take,comes,List.getElem?_append_left short,place]

-- How long a request may take: the wait ends at the first whole millisecond that the patience of its sender has
-- come to, and before that only with what the transport made of the request.
structure Timed (now rpc : Nat) (effort : Option Effort) (p : Parcel) : Prop where
  least : IsLeast {instant | millisecond ∣ instant ∧ now+rpc ≤ instant} p.deadline
  due : p.due ≤ p.deadline
  never : effort = none → p.due = p.deadline ∧ p.timely = none
  once : ∀ e, effort = some e → p.due = min (now+e.delay) p.deadline ∧
    p.timely = if now+e.delay ≤ p.deadline then some e.delivery else none

theorem sent_timed (now rpc : Nat) (d : Dispatch) (effort : Option Effort) :
    Timed now rpc effort (.sent now rpc d effort) := by
  refine ⟨Time.wake_least _,Parcel.due_le _,?_,?_⟩
  · rintro rfl
    exact ⟨Parcel.never_due rfl,Parcel.there_none rfl _⟩
  · rintro e rfl
    exact ⟨Parcel.once_due rfl,Parcel.there_some rfl _⟩

-- A request whose wait goes on, and has its outcome as soon as it is due.
structure Going (k : Nat) (p : Parcel) (c : Courier) : Prop where
  none : about k c.outcomes = []
  time : c.now ≤ p.due
  due : c.now = p.due → about k (c.does (.finish k)).outcomes = c.verdict p

-- A request whose wait ends: its outcome is handed in at the end of the line, unless nobody takes it in any more.
-- It is queued there or moves up until it is.
structure Closes (k : Nat) (p : Parcel) (c : Courier) : Prop where
  now : c.now = p.due
  none : about k c.outcomes = []
  events : (c.does (.finish k)).station.mailbox.events = c.station.mailbox.events ++ (c.verdict p).map Prod.snd
  line : c.alive = true → ∀ zs : List Act,
    let place := c.station.mailbox.events.length-zs.countP Act.takes
    let later := (c.does (.finish k)).run zs
    zs.countP Act.takes ≤ c.station.mailbox.events.length → later.station.mailbox.node?.isSome = true →
      later.station.mailbox.queued[place]? = if place < Mailbox.capacity then some p.report else Option.none

theorem Waits.going (waits : Waits k p c) : Going k p c := by
  obtain ⟨found,untold⟩ := story_parts.mp waits.story
  exact ⟨untold,waits.time,fun due => (story_parts.mp (finish_story found due untold)).2⟩

theorem Waits.closes (waits : Waits k p c) (due : c.now = p.due) : Closes k p c := by
  obtain ⟨found,untold⟩ := story_parts.mp waits.story
  have handed := finish_events found due
  refine ⟨due,untold,handed,?_⟩
  intro alive zs place later ahead running
  have last : (c.does (.finish k)).station.mailbox.events[c.station.mailbox.events.length]? = some p.report := by
    change (c.finish k).station.mailbox.events[c.station.mailbox.events.length]? = some p.report
    rw [handed,verdict,if_pos alive]
    exact List.getElem?_concat_length
  exact run_line zs _ running last ahead

-- Whatever the transport makes of its requests, and whatever else happens: each of them has one outcome, which
-- depends on no other, at an instant that depends on no other either.
theorem one_outcome_in_time (start first patience : Nat) (roster : Roster) (timings : Timings) (xs ys : List Act)
    (draw : Nat) (efforts : Dispatch → Option Effort) (turn : Turn Nat) (station : Station) (i : Nat) (d : Dispatch) :
    let c := (opened start first roster timings patience).run xs
    let sent := c.does (.take draw efforts)
    let last := sent.run ys
    let k := c.serial+i
    let p := Parcel.sent c.now timings.rpc d (efforts d)
    c.station.take c.now draw = some (turn,station) → turn.sends[i]? = some d →
    Timed c.now timings.rpc (efforts d) p ∧ Outcome d p.timely p.report ∧ about k sent.outcomes = [] ∧
    (Going k p last ∨ ∃ early late, ys = early ++ .finish k :: late ∧ Closes k p (sent.run early) ∧
      about k last.outcomes = (sent.run early).verdict p) := by
  intro c sent last k p taken handed
  obtain ⟨n,running⟩ := take_running taken
  have rpc : c.rpc = timings.rpc := run_rpc running
  have ahead : ∀ k, c.serial ≤ k → Ahead k c := fun k number =>
    run_ahead (fun k _ => opened_ahead start first patience k roster timings) xs number
  have waits : Waits k p sent := by
    have begun := send_waits ahead taken handed efforts
    rwa [rpc] at begun
  refine ⟨sent_timed ..,Parcel.report_outcome c.now timings.rpc d (efforts d),(story_parts.mp waits.story).2,?_⟩
  rcases waits.run ys with going | ⟨early,late,split,before,due,ended⟩
  · exact .inl going.going
  · exact .inr ⟨early,late,split,before.closes due,(story_parts.mp ended.story).2⟩

-- A candidate of three hears from one member in time and from the other not at all.
theorem one_of_trio_answers :
    let c := (opened 0 5000000 ⟨⟨"a"⟩,⟨"a",100⟩,trio.tail⟩ ⟨1000000,⟨5000000,10000000⟩,3000000⟩ 10).run
      [.pass 5000000,.wake 5000000]
    let asked : Dispatch := ⟨⟨⟨"c"⟩,⟨"c",100⟩⟩,.vote ⟨.one,⟨"a"⟩⟩⟩
    let sent := c.does (.take 5000000 fun d =>
      if d.peer.id = ⟨"b"⟩ then some ⟨1000000,.ok (.vote ⟨true,.one⟩)⟩ else none)
    let last := sent.run [.pass 6000000,.finish 0,.pass 8000000,.finish 1]
    let p := Parcel.sent c.now 3000000 asked none
    (∃ turn station, c.station.take c.now 5000000 = some (turn,station) ∧ turn.sends[1]? = some asked) ∧
      p.due = 8000000 ∧ Outcome asked none p.report ∧
      about 0 last.outcomes = [(6000000,.voteReply ⟨"b"⟩ .one (.ok ⟨true,.one⟩))] ∧
      about 1 last.outcomes = [(8000000,.voteReply ⟨"c"⟩ .one (.error .timeout))] := by
  obtain ⟨timed,outcome,_⟩ := one_outcome_in_time 0 5000000 10 ⟨⟨"a"⟩,⟨"a",100⟩,trio.tail⟩
    ⟨1000000,⟨5000000,10000000⟩,3000000⟩ [.pass 5000000,.wake 5000000]
    [.pass 6000000,.finish 0,.pass 8000000,.finish 1] 5000000 (fun d =>
      if d.peer.id = ⟨"b"⟩ then some ⟨1000000,.ok (.vote ⟨true,.one⟩)⟩ else none) _ _ 1 _ rfl rfl
  obtain ⟨due,timely⟩ := timed.never rfl
  have whole : millisecond ∣ 8000000 := by decide
  exact ⟨⟨_,_,rfl,rfl⟩,due.trans (Nat.le_antisymm (timed.least.2 ⟨whole,Nat.le_refl _⟩) timed.least.1.2),
    timely ▸ outcome,rfl,rfl⟩

set_option maxRecDepth 2000 in
-- Sleepers are woken on whole milliseconds only: what comes before the next of them is in time still. And where the
-- queue is full at the end of a wait, the outcome is not in it.
theorem reply_after_timeout :
    let roster : Roster := ⟨⟨"a"⟩,⟨"a",1⟩,[⟨⟨"b"⟩,⟨"b",2⟩⟩]⟩
    let reply : Effort := ⟨2000000,.ok (.vote ⟨true,.one⟩)⟩
    let outcome : Event Nat := .voteReply ⟨"b"⟩ .one (.ok ⟨true,.one⟩)
    let c := (opened 0 5000000 roster ⟨50000000,⟨5000000,5000001⟩,1500000⟩ 500000000).run [.pass 5000000,.wake 5000000]
    let last := (c.does (.take 5000000 fun _ => some reply)).run [.pass 7000000,.finish 0]
    let crowd := List.replicate 64 (Event.status 0)
    let b := (opened 0 5000000 roster ⟨50000000,⟨5000000,5000001⟩,2000000⟩ 500000000).run [.pass 5000000,.wake 5000000]
    let full := (b.does (.take 5000000 fun _ => some reply)).run (crowd.map .post ++ [.pass 7000000,.finish 0])
    (c.rpc = 1500000 ∧ c.now+c.rpc < 7000000 ∧ about 0 last.outcomes = [(7000000,outcome)]) ∧
      b.rpc = 2000000 ∧ full.now = b.now+b.rpc ∧ about 0 full.outcomes = [(7000000,outcome)] ∧
      full.station.mailbox.queued = crowd := by
  exact ⟨⟨rfl,by decide,rfl⟩,rfl,rfl,rfl,rfl⟩

end LeaderElection.Courier
