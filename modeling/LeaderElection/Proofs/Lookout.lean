import LeaderElection.Proofs.Basic
import LeaderElection.Proofs.Detector
import LeaderElection.Simulation.Lookout

namespace LeaderElection

def Invocation.fails (i : Invocation) : Bool := i.verdict ≠ .done

theorem Invocation.fails_written (i : Invocation) : i.record?.isSome = i.fails := by
  obtain ⟨callback,peer,verdict⟩ := i
  cases verdict <;> rfl

theorem Invocation.failures_written (calls : List Invocation) :
    (calls.filterMap Invocation.record?).map some = (calls.filter Invocation.fails).map Invocation.record? := by
  induction calls with
  | nil => rfl
  | cons i rest ih =>
      have fails := i.fails_written
      cases written : i.record? with
      | none =>
          rw [written] at fails
          simpa [written,← fails] using ih
      | some record =>
          rw [written] at fails
          simpa [written,← fails] using ih

namespace Detector

-- A poll of callback `c` that began at `now` with detector `d`. Of all that the callback does, its answers
-- to the suspects alone are asked for, and each of them once: `c` may be whatever it was at that moment.
structure Reports (now : Nat) (d : Detector) (c : Callback) (s : Survey) : Prop where
  once : s.calls = (d.suspected now).map fun p => ⟨c.name,p,(c.respond p).verdict⟩
  failures : s.failures = (s.calls.filter Invocation.fails).length
  written : s.log.map some = (s.calls.filter Invocation.fails).map Invocation.record?
  sighting : ∀ p, s.detector.sighting p =
    if ∃ q ∈ d.suspected now, p ∈ (c.respond q).marks then {d.sighting p with last := some now} else d.sighting p
  known : ∀ p, p ∈ s.detector.known ↔ p ∈ d.known ∨ ∃ q ∈ d.suspected now, p ∈ (c.respond q).marks
  others : s.detector.patience = d.patience ∧ s.detector.callback = d.callback ∧ s.detector.monitor = d.monitor

variable {now : Nat} {c : Callback} {d : Detector} {s : Survey} {p : NodeId} {peers : List NodeId}

theorem mark_sighting (now : Nat) (peer p : NodeId) (d : Detector) :
    (d.mark now peer).sighting p = if p = peer then {d.sighting p with last := some now} else d.sighting p := by
  refine (sighting_put d peer p _).trans ?_
  by_cases same : p = peer
  · rw [if_pos same,if_pos same,same]
  · rw [if_neg same,if_neg same]

theorem markAll_sighting (now : Nat) (peers : List NodeId) (p : NodeId) (d : Detector) :
    (d.markAll now peers).sighting p = if p ∈ peers then {d.sighting p with last := some now} else d.sighting p := by
  induction peers generalizing d with
  | nil => rfl
  | cons peer rest ih =>
      refine (ih (d.mark now peer)).trans ?_
      rw [mark_sighting]
      by_cases first : p = peer <;> by_cases later : p ∈ rest <;> simp [first,later]

theorem markAll_keys_mem (now : Nat) (peers : List NodeId) (d : Detector) :
    p ∈ (d.markAll now peers).sightings.keys ↔ p ∈ d.sightings.keys ∨ p ∈ peers := by
  induction peers generalizing d with
  | nil => simp [markAll]
  | cons peer rest ih =>
      refine (ih (d.mark now peer)).trans ?_
      rw [mark,Directory.put_keys_mem,List.mem_cons,or_comm (a := p = peer),or_assoc]

theorem markAll_others (now : Nat) (peers : List NodeId) (d : Detector) :
    d.markAll now peers = {d with sightings := (d.markAll now peers).sightings} := by
  induction peers generalizing d with
  | nil => rfl
  | cons peer rest ih => exact ih (d.mark now peer)

theorem markAll_append (now : Nat) (before after : List NodeId) (d : Detector) :
    d.markAll now (before ++ after) = (d.markAll now before).markAll now after := List.foldl_append

-- A list of suspects is reported to its end, and what the callback does on the way only adds up.
theorem report_adds (now : Nat) (c : Callback) (peers : List NodeId) (s : Survey) :
    let calls : List Invocation := peers.map fun p => ⟨c.name,p,(c.respond p).verdict⟩
    peers.foldl (report now c) s = ⟨s.detector.markAll now (peers.flatMap fun p => (c.respond p).marks),
      s.calls ++ calls,s.failures+(calls.filter Invocation.fails).length,s.log ++ calls.filterMap Invocation.record?⟩ := by
  induction peers generalizing s with
  | nil => simp [markAll]
  | cons peer rest ih =>
      refine (ih (report now c s peer)).trans ?_
      have fails := Invocation.fails_written ⟨c.name,peer,(c.respond peer).verdict⟩
      rw [List.flatMap_cons,markAll_append]
      unfold report
      dsimp only
      split
      · next silent =>
          rw [silent] at fails
          simp [silent,← fails]
      · next record written =>
          rw [written] at fails
          simp [written,← fails]
          omega

theorem poll_adds (registered : d.callback = some c) :
    let calls : List Invocation := (d.suspected now).map fun p => ⟨c.name,p,(c.respond p).verdict⟩
    d.poll now = ⟨d.markAll now ((d.suspected now).flatMap fun p => (c.respond p).marks),calls,
      (calls.filter Invocation.fails).length,calls.filterMap Invocation.record?⟩ := by
  unfold poll
  rw [registered]
  simpa using report_adds now c (d.suspected now) ⟨d,[],0,[]⟩

theorem poll_reports (registered : d.callback = some c) : d.Reports now c (d.poll now) := by
  rw [poll_adds registered]
  refine ⟨rfl,rfl,Invocation.failures_written _,?_,?_,?_⟩
  · intro p
    rw [markAll_sighting]
    simp only [List.mem_flatMap]
  · intro p
    simp only [known,NodeId.sort_mem,markAll_keys_mem,List.mem_flatMap]
  · rw [markAll_others]
    exact ⟨rfl,rfl,rfl⟩

theorem poll_unheard (silent : d.callback = none) (now : Nat) : d.poll now = ⟨d,[],0,[]⟩ := by
  unfold poll
  rw [silent]

theorem markAll_monitor (now : Nat) (m : Option Monitor) (peers : List NodeId) (d : Detector) :
    markAll now peers {d with monitor := m} = {d.markAll now peers with monitor := m} := by
  induction peers generalizing d with
  | nil => rfl
  | cons peer rest ih => exact ih (d.mark now peer)

-- The loop is nothing to a poll.
theorem poll_monitor (now : Nat) (m : Option Monitor) (d : Detector) :
    poll now {d with monitor := m} = {d.poll now with detector := {(d.poll now).detector with monitor := m}} := by
  obtain ⟨patience,sightings,callback,monitor⟩ := d
  cases callback with
  | none => rfl
  | some c =>
      refine (poll_adds rfl).trans ?_
      rw [poll_adds (d := ⟨patience,sightings,some c,monitor⟩) rfl,← markAll_monitor]
      rfl

theorem used_others (now : Nat) (d : Detector) (u : Use) :
    (d.used now u).1.callback = d.callback ∧ (d.used now u).1.monitor = d.monitor := by
  cases u <;> exact ⟨rfl,rfl⟩

end Detector

namespace Lookout

-- What can happen to a detector: its clock is set, its loop goes round where that is due, and somebody uses it.
inductive Incident where
  | clock (instant : Nat)
  | poll
  | use (use : Use)
  | register (callback : Callback)
  | start (interval : Nat)
  | stop

def does : Incident → Lookout → Lookout
  | .clock instant,l => {l with now := instant}
  | .poll,l => l.poll.getD l
  | .use use,l => {l with detector := (l.detector.used l.now use).1}
  | .register callback,l => {l with detector := l.detector.register callback}
  | .start interval,l => l.logged (l.detector.start l.now interval)
  | .stop,l => l.logged l.detector.stop

def run : List Incident → Lookout → Lookout
  | [],l => l
  | x :: rest,l => run rest (l.does x)

-- A poll of the loop is a poll of its detector, and the loop goes on whatever has come of it.
def polled (m : Monitor) (l : Lookout) : Lookout :=
  let s := l.detector.poll l.now
  ⟨l.now,{s.detector with monitor := some ⟨m.interval,min (Time.wake (l.now+m.interval)) Time.horizon⟩},
    l.calls ++ s.calls.map (l.now,·),l.log ++ s.log⟩

variable {l : Lookout} {x : Incident} {m : Monitor} {c : Callback}

theorem run_append (before after : List Incident) (l : Lookout) :
    l.run (before ++ after) = (l.run before).run after := by
  induction before generalizing l with
  | nil => rfl
  | cons x rest ih => exact ih (l.does x)

theorem poll_polled (watched : l.detector.monitor = some m) (due : m.next ≤ l.now) : l.poll = some (l.polled m) := by
  simp only [Lookout.poll,Detector.wake,watched,if_pos due,Option.map_some,Detector.poll_monitor,Detector.hasten]
  rfl

theorem poll_none : l.poll = none ↔ ∀ m, l.detector.monitor = some m → l.now < m.next := by
  cases watched : l.detector.monitor with
  | none => simp [Lookout.poll,Detector.wake,watched]
  | some m => simp [Lookout.poll,Detector.wake,watched]

theorem does_poll (l : Lookout) : l.poll = none ∧ l.does .poll = l ∨
    ∃ m, l.detector.monitor = some m ∧ m.next ≤ l.now ∧ l.poll = some (l.polled m) ∧ l.does .poll = l.polled m := by
  by_cases rests : l.poll = none
  · exact .inl ⟨rests,by simp only [does,rests,Option.getD_none]⟩
  · have late : ∃ m, l.detector.monitor = some m ∧ m.next ≤ l.now := by simpa [poll_none] using rests
    obtain ⟨m,watched,due⟩ := late
    refine .inr ⟨m,watched,due,poll_polled watched due,?_⟩
    simp only [does,poll_polled watched due,Option.getD_some]

theorem watching_iff : l.detector.watching = true ↔ ∃ m, l.detector.monitor = some m := Option.isSome_iff_exists

theorem does_start (watched : l.detector.watching = true) (i : Nat) : l.does (.start i) = l := by
  obtain ⟨m,held⟩ := watching_iff.mp watched
  simp [does,logged,Detector.start,held]

theorem does_stop (unwatched : l.detector.watching = false) : l.does .stop = l := by
  have none : l.detector.monitor = none := Option.isNone_iff_eq_none.mp (by simpa [Detector.watching] using unwatched)
  simp [does,logged,Detector.stop,none]

theorem does_begin (unwatched : l.detector.watching = false) (i : Nat) :
    (l.does (.start i)).detector.monitor = some ⟨i,l.now⟩ ∧ (l.does (.start i)).now = l.now := by
  have none : l.detector.monitor = none := Option.isNone_iff_eq_none.mp (by simpa [Detector.watching] using unwatched)
  simp [does,logged,Detector.start,none]

end Lookout
end LeaderElection
