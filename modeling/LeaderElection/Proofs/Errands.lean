import LeaderElection.Proofs.Bench
import LeaderElection.Proofs.Courier.Outcome

namespace LeaderElection

def Errand.parcel (e : Errand) : Parcel := ⟨e.peer,e.exchange,some (Time.wake e.readyAt,e.delivery)⟩

theorem Errand.parcel_outcome (now : Nat) (e : Errand) : e.parcel.outcome now = e.outcome now := by
  unfold Parcel.outcome Errand.outcome
  congr 1
  rw [Parcel.there_some rfl]
  by_cases ready : Time.wake e.readyAt ≤ now
  · rw [if_pos ready,if_pos (Time.passed_exact.mpr ready)]
  · rw [if_neg ready,if_neg (mt Time.passed_exact.mp ready)]

namespace Bench

-- What its script makes of a request that a bench sends now.
def effort (b : Bench) (d : Dispatch) : Effort :=
  let reaction := ((b.script.find? d.peer.address.text).getD .silent).reaction d.request
  ⟨Time.wake (b.now+Time.wait reaction.delay)-b.now,reaction.delivery⟩

-- What can happen to a bench where some events may be posted, with what is read there. Left to itself, its clock
-- goes on while there is nothing to do. The script may be changed at any time, and what is on record may be told.
inductive Goes (posts : Event Nat → Prop) (b : Bench) : Bench → List (Reading Snapshot) → Prop where
  | elapses (elapses : Schedule.Elapses b next) : Goes posts b next []
  | post (allowed : posts e) (posted : b.post e = some next) : Goes posts b next []
  | tend (f : Detector → Detector) : Goes posts b {b with station := {b.station with detector := f b.station.detector}} []
  | release : Goes posts b {b with station := {b.station with mailbox := b.station.mailbox.release}} []
  | read (comes : b.read.1 ≠ .nothing) : Goes posts b b.read.2 [b.read.1]
  | teach (receiver : String) (manner : Manner) : Goes posts b (b.teach receiver manner) []
  | tell : Goes posts b b.told []

inductive Course (posts : Event Nat → Prop) (first : Bench) : Bench → List (Reading Snapshot) → Prop where
  | begun : Course posts first first []
  | goes (before : Course posts first b got) (goes : Goes posts b next heard) : Course posts first next (got ++ heard)

-- A bench and a courier that has come as far: each errand is a parcel with a serial number.
structure Shows (c : Courier) (serials : List Nat) (b : Bench) : Prop where
  now : c.now = b.now
  station : c.station = b.station
  under : c.pending.Tracks c.serial serials (b.errands.map Errand.parcel)
  early : ∀ e ∈ b.errands, b.now ≤ e.parcel.due

variable {b next : Bench} {c : Courier} {serials : List Nat}

theorem Shows.begun (attended : Bool) (roster : Roster) (timings : Timings) (patience : Nat)
    (script : Directory String Manner) (draws : Draws) :
    Shows (.opened 0 (draws.within timings.election) roster timings patience) []
      (create attended roster timings patience script draws) :=
  ⟨rfl,rfl,.begun 0,nofun⟩

-- An errand with an outcome is an open move.
theorem idle_errand (idle : Schedule.Idle u b) (present : e ∈ b.errands) : e.outcome u = none := by
  obtain ⟨i,found⟩ := List.getElem?_of_mem present
  have stuck : finish i {b with now := u} = none := idle (.finish i)
  refine Option.eq_none_iff_forall_ne_some.mpr ?_
  intro d ends
  cases Option.bind_eq_none_iff.mp (Option.bind_eq_none_iff.mp stuck e found) d ends

-- Time does not pass an errand that is due.
theorem Shows.pass (shows : Shows c serials b) (onward : b.now ≤ instant)
    (idle : ∀ u, b.now ≤ u → u < instant → Schedule.Idle u b) :
    Shows (c.does (.pass instant)) serials {b with now := instant} := by
  have early : ∀ e ∈ b.errands, instant ≤ e.parcel.due := by
    intro e present
    by_contra late
    have waits := idle_errand (idle _ (shows.early e present) (Nat.not_le.mp late)) present
    rw [← Errand.parcel_outcome,Parcel.outcome_due] at waits
    cases waits
  have allowed : c.idle instant = true := by
    refine List.all_eq_true.mpr ?_
    intro k present
    obtain ⟨p,held,found⟩ := shows.under.value present
    obtain ⟨e,known,rfl⟩ := List.mem_map.mp held
    rw [found,Option.all_some,decide_eq_true_eq]
    exact early e known
  have passed : c.does (.pass instant) = {c with now := instant} := if_pos ⟨shows.now ▸ onward,allowed⟩
  rw [passed]
  exact {shows with now := rfl, early := early}

-- What is sent is under way as its script says.
theorem Shows.send (shows : Shows c serials b) (timeout : Nat) (d : Dispatch) (efforts : Dispatch → Option Effort)
    (scripted : efforts d = some (b.effort d)) :
    Shows (c.send timeout efforts d) (serials ++ [c.serial]) (b.send timeout d) := by
  let reaction := ((b.script.find? d.peer.address.text).getD .silent).reaction d.request
  let errand : Errand := ⟨d.peer.id,.start b.now timeout d.request,b.now+Time.wait reaction.delay,reaction.delivery⟩
  have later : b.now ≤ Time.wake (b.now+Time.wait reaction.delay) := Nat.le_trans (Nat.le_add_right _ _) (Time.le_wake _)
  have parcel : errand.parcel = .sent c.now timeout d (efforts d) := by
    have ready : some (b.now+(Time.wake (b.now+Time.wait reaction.delay)-b.now),reaction.delivery) =
        some (Time.wake (b.now+Time.wait reaction.delay),reaction.delivery) := by rw [Nat.add_sub_of_le later]
    rw [scripted,shows.now]
    exact congrArg (Parcel.mk d.peer.id (.start b.now timeout d.request)) ready.symm
  refine ⟨shows.now,shows.station,?_,?_⟩
  · change (c.pending.put c.serial (.sent c.now timeout d (efforts d))).Tracks (c.serial+1) (serials ++ [c.serial])
      ((b.errands ++ [errand]).map Errand.parcel)
    rw [List.map_append,List.map_singleton,parcel]
    exact shows.under.put _
  · intro e known
    rcases List.mem_append.mp known with earlier | last
    · exact shows.early e earlier
    · rw [List.mem_singleton.mp last]
      change b.now ≤ errand.parcel.due
      rw [parcel,← shows.now]
      exact Parcel.sent_due c.now timeout d (efforts d)

theorem send_effort (timeout : Nat) (d : Dispatch) (b : Bench) : (b.send timeout d).effort = b.effort := rfl

theorem Shows.sends (shows : Shows c serials b) (timeout : Nat) (sends : List Dispatch)
    (efforts : Dispatch → Option Effort) (scripted : ∀ d, efforts d = some (b.effort d)) :
    ∃ serials', Shows (sends.foldl (Courier.send timeout efforts) c) serials' (sends.foldl (Bench.send timeout) b) := by
  induction sends generalizing b c serials with
  | nil => exact ⟨serials,shows⟩
  | cons d rest ih => exact ih (shows.send timeout d efforts (scripted d)) (send_effort timeout d b ▸ scripted)

theorem Shows.take (shows : Shows c serials b) (taken : b.take = some next) :
    ∃ serials', Shows (c.does (.take b.draw fun d => some (b.effort d))) serials' next := by
  obtain ⟨timings,turn,station,present,took,rfl⟩ := take_parts taken
  have rpc : c.rpc = timings.rpc := by
    rw [Courier.rpc,shows.station,present]
    rfl
  rw [← shows.now,← shows.station] at took
  have turned : Shows {c with station} serials {b with
      station, draws := b.draws.next, receipts := b.receipts ++ turn.receipts.map Prod.snd} :=
    {shows with station := rfl}
  rw [Courier.does,Courier.take,took,rpc]
  exact turned.sends timings.rpc turn.sends (fun d => some (b.effort d)) fun _ => rfl

theorem Shows.wake (shows : Shows c serials b) (woken : b.wake = some next) :
    Shows (c.does (.wake b.draw)) serials next := by
  obtain ⟨⟨mailbox,alarm⟩,woke,same⟩ := Option.map_eq_some_iff.mp woken
  cases same
  rw [← shows.now,← shows.station] at woke
  rw [Courier.does,woke]
  exact {shows with station := by rw [shows.station]; rfl}

theorem Shows.post (shows : Shows c serials b) (e : Event Nat) : Shows (c.post e) serials ((b.post e).getD b) := by
  rw [Courier.post,Bench.post,shows.station]
  cases taken : b.station.mailbox.post e with
  | none => exact {shows with station := rfl}
  | some mailbox => exact {shows with station := rfl}

theorem Shows.finish (shows : Shows c serials b) (finished : b.finish i = some next) :
    ∃ k, Shows (c.does (.finish k)) (serials.eraseIdx i) next := by
  obtain ⟨e,delivery,found,outcome,rfl⟩ := finish_parts finished
  have parcelled : (b.errands.map Errand.parcel)[i]? = some e.parcel := by rw [List.getElem?_map,found,Option.map_some]
  obtain ⟨k,numbered,held⟩ := shows.under.number parcelled
  have ends : e.parcel.outcome c.now = some delivery := by rw [Errand.parcel_outcome,shows.now,outcome]
  have dropped (outcomes : List (Nat × Nat × Event Nat)) :
      Shows {c with pending := c.pending.remove k, outcomes} (serials.eraseIdx i)
        {b with errands := b.errands.eraseIdx i} := by
    refine {shows with under := ?_, early := ?_}
    · rw [← List.eraseIdx_map]
      exact shows.under.remove numbered
    · intro e remains
      exact shows.early e (List.mem_of_mem_eraseIdx remains)
  refine ⟨k,?_⟩
  have shown := (dropped (if c.alive then c.outcomes ++ [(k,c.now,e.exchange.report e.peer delivery)]
    else c.outcomes)).post (e.exchange.report e.peer delivery)
  rw [Courier.does,Courier.finish_parts held ends]
  exact shown

theorem Shows.perform {m : Move} (shows : Shows c serials b) (performed : perform m b = some next) :
    ∃ x serials', Shows (c.does x) serials' next := by
  cases m with
  | finish i =>
      obtain ⟨k,shown⟩ := shows.finish performed
      exact ⟨.finish k,_,shown⟩
  | wake => exact ⟨.wake b.draw,_,shows.wake performed⟩
  | take =>
      obtain ⟨serials',shown⟩ := shows.take performed
      exact ⟨_,serials',shown⟩

theorem Shows.elapses (shows : Shows c serials b) (elapses : Schedule.Elapses b next) :
    ∃ acts serials', Shows (c.run acts) serials' next := by
  induction elapses with
  | rest => exact ⟨[],serials,shows⟩
  | move before performed ih =>
      obtain ⟨acts,_,shown⟩ := ih
      obtain ⟨x,serials',after⟩ := shown.perform performed
      exact ⟨acts ++ [x],serials',Courier.run_append acts [x] c ▸ after⟩
  | @pass _ instant before onward idle ih =>
      obtain ⟨acts,serials',shown⟩ := ih
      exact ⟨acts ++ [.pass instant],serials',Courier.run_append acts _ c ▸ shown.pass onward idle⟩

-- Whatever goes on at a bench, a courier can do as well.
theorem Shows.goes (shows : Shows c serials b) (goes : Goes posts b next heard) :
    ∃ acts serials', Shows (c.run acts) serials' next := by
  cases goes with
  | elapses elapses => exact shows.elapses elapses
  | @post e _ _ posted =>
      have shown := shows.post e
      rw [posted] at shown
      exact ⟨[.post e],serials,shown⟩
  | tend f => exact ⟨[.tend f],serials,{shows with station := by rw [← shows.station]; rfl}⟩
  | release => exact ⟨[.release],serials,{shows with station := by rw [← shows.station]; rfl}⟩
  | read => exact ⟨[],serials,shows.now,shows.station,shows.under,shows.early⟩
  | teach => exact ⟨[],serials,shows.now,shows.station,shows.under,shows.early⟩
  | tell => exact ⟨[],serials,shows.now,shows.station,shows.under,shows.early⟩

-- Whatever happens at a bench, it has come as far as some courier: its errands are the courier's parcels,
-- and none of them is overdue.
theorem bench_couriered (attended : Bool) (roster : Roster) (timings : Timings) (patience : Nat)
    (script : Directory String Manner) (draws : Draws)
    (course : Course posts (create attended roster timings patience script draws) b got) : ∃ acts, ∃ serials : List Nat,
    let c := (Courier.opened 0 (draws.within timings.election) roster timings patience).run acts
    c.now = b.now ∧ c.station = b.station ∧ serials.map c.pending.find? = b.errands.map (some ∘ Errand.parcel) ∧
      ∀ e ∈ b.errands, b.now ≤ Time.wake e.exchange.deadline := by
  have shown : ∃ acts serials,
      Shows ((Courier.opened 0 (draws.within timings.election) roster timings patience).run acts) serials b := by
    induction course with
    | begun => exact ⟨[],[],.begun ..⟩
    | goes before goes ih =>
        obtain ⟨acts,serials,shows⟩ := ih
        obtain ⟨more,serials',next⟩ := shows.goes goes
        rw [← Courier.run_append] at next
        exact ⟨acts ++ more,serials',next⟩
  obtain ⟨acts,serials,shows⟩ := shown
  refine ⟨acts,serials,shows.now,shows.station,?_,?_⟩
  · rw [shows.under.under,List.map_map]
  · intro e known
    exact Nat.le_trans (shows.early e known) e.parcel.due_le

end Bench
end LeaderElection
