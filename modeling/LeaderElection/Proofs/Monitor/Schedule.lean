import LeaderElection.Proofs.Monitor.Basic

namespace LeaderElection

namespace Watch

variable {w : Watch} {x : Incident} {p : Patrol}

theorem does_watching (w : Watch) (x : Incident) : (w.does x).watching = true ↔
    x.Starts ∨ ¬ x = .stop ∧ w.watching = true := by
  have kept (unstarted : ∀ i, x ≠ .start i) (lasts : x ≠ .stop)
      (same : (w.does x).lookout.detector.monitor = w.lookout.detector.monitor) :
      (w.does x).watching = true ↔ x.Starts ∨ ¬ x = .stop ∧ w.watching = true := by
    rw [watching,Detector.watching,same,or_iff_right fun starts => starts.elim unstarted,and_iff_right lasts]
    rfl
  cases x with
  | clock instant => exact kept (by simp) (by simp) rfl
  | poll =>
      rcases w.lookout.does_poll with ⟨rests,_⟩ | ⟨m,watched,_,polls,_⟩
      · refine kept (by simp) (by simp) ?_
        rw [does,rests]
        rfl
      · have stands : w.watching = true := Lookout.watching_iff.mpr ⟨m,watched⟩
        have still : (w.does .poll).watching = true := by
          rw [does,polls]
          rfl
        exact iff_of_true still (.inr ⟨by simp,stands⟩)
  | late k =>
      refine kept (by simp) (by simp) ?_
      rcases late_parts k w with same | ⟨_,_,_,same⟩
      · rw [does,same]
      · rw [does,same]
        exact surveyed_loop w.lookout
  | leave k =>
      refine kept (by simp) (by simp) ?_
      rcases leave_parts k w with same | ⟨_,_,_,same⟩ <;> rw [does,same]
  | use use => exact kept (by simp) (by simp) (Detector.used_others w.now w.lookout.detector use).2
  | register callback => exact kept (by simp) (by simp) rfl
  | start interval =>
      refine iff_of_true ?_ (.inl ⟨interval,rfl⟩)
      cases watched : w.watching with
      | true =>
          have vain : w.lookout.does (.start interval) = w.lookout := Lookout.does_start watched interval
          rw [does,watching,vain]
          exact watched
      | false => exact Lookout.watching_iff.mpr ⟨_,(Lookout.does_begin watched interval).1⟩
  | stop =>
      refine iff_of_false ?_ (by simp [Incident.Starts])
      change ¬ w.lookout.detector.stop.1.watching = true
      unfold Detector.stop
      split
      · next none => simp [Detector.watching,none]
      · simp [Detector.watching]

theorem run_watching (patience : Nat) (xs : List Incident) :
    ((opened patience).run xs).watching = true ↔ Since Incident.Starts (· = .stop) xs := by
  induction xs using List.reverseRecOn with
  | nil => exact iff_of_false nofun not_since_nil
  | append_singleton before x ih =>
      rw [run_append,since_snoc,← ih]
      exact does_watching _ x

-- Each loop there is or has been is one that was started, and none is missing.
theorem Regular.started (regular : w.Regular) (x : Incident) :
    ((w.does x).loops.map Patrol.origin).Perm (w.loops.map Patrol.origin ++ w.startsOf x) := by
  have kept (same : (w.does x).loops.map Patrol.origin = w.loops.map Patrol.origin) (none : w.startsOf x = []) :
      ((w.does x).loops.map Patrol.origin).Perm (w.loops.map Patrol.origin ++ w.startsOf x) := by
    rw [same,none,List.append_nil]
  cases x with
  | poll =>
      refine kept ?_ rfl
      cases polled : w.lookout.poll with
      | none => rw [Watch.does,polled,Option.elim_none]
      | some l =>
          obtain ⟨p,present,_,_,_,same⟩ := poll_parts regular polled
          rw [same,loops,loops,present]
          simp [Patrol.origin,Patrol.polled]
  | late k =>
      refine kept ?_ rfl
      rcases late_parts k w with same | ⟨p,found,_,same⟩
      · rw [Watch.does,same]
      · obtain ⟨short,here⟩ := List.getElem?_eq_some_iff.mp found
        have origin : (w.leaving.set k (p.polled w.now)).map Patrol.origin = w.leaving.map Patrol.origin := by
          rw [List.map_set]
          refine List.ext_getElem? fun i => ?_
          by_cases there : k = i
          · subst there
            rw [List.getElem?_set_self (by simpa using short),List.getElem?_map,found]
            rfl
          · rw [List.getElem?_set_ne there]
        rw [Watch.does,same,loops,loops,List.map_append,List.map_append,List.map_append,List.map_append,origin]
  | leave k =>
      change List.Perm _ (_ ++ [])
      rw [List.append_nil]
      rcases leave_parts k w with same | ⟨p,found,_,same⟩
      · rw [Watch.does,same]
      · obtain ⟨short,here⟩ := List.getElem?_eq_some_iff.mp found
        rw [Watch.does,same]
        refine List.Perm.map _ (List.Perm.append_right _ ?_)
        change List.Perm (w.left ++ [p] ++ w.leaving.eraseIdx k) (w.left ++ w.leaving)
        rw [List.append_assoc,← here]
        exact List.Perm.append_left _ (List.getElem_cons_eraseIdx_perm short)
  | start i =>
      cases watched : w.watching with
      | true =>
          rw [start_vain regular watched,startsOf,watched]
          exact (List.append_nil (w.loops.map Patrol.origin)).symm ▸ List.Perm.refl _
      | false =>
          have none := (unwatched_parts regular watched).1
          rw [startsOf,watched,Watch.does,none,loops,loops,none]
          simp [Patrol.origin,Patrol.begun]
  | stop =>
      refine kept ?_ rfl
      rw [Watch.does,loops,loops]
      cases w.patrol <;> simp [Patrol.origin,Patrol.tell]
  | _ => exact kept rfl rfl

theorem Regular.run_started (regular : w.Regular) {xs : List Incident} (lawful : Lawful xs w) :
    ((w.run xs).loops.map Patrol.origin).Perm (w.loops.map Patrol.origin ++ w.starts xs) := by
  induction xs generalizing w with
  | nil => exact (List.append_nil (w.loops.map Patrol.origin)).symm ▸ List.Perm.refl _
  | cons x rest ih =>
      have later := ih (regular.does lawful.1) lawful.2
      rw [starts,← List.append_assoc]
      exact later.trans ((regular.started x).append_right _)

-- How many loops there are at a time.
def present (w : Watch) : Nat := w.leaving.length+w.patrol.toList.length

theorem does_present (few : w.present ≤ 1) (ready : x.Starts → w.leaving = []) : (w.does x).present ≤ 1 := by
  cases x with
  | poll =>
      rw [does]
      cases w.lookout.poll with
      | none => exact few
      | some l =>
          refine Nat.le_trans (Nat.le_of_eq ?_) few
          rw [Option.elim_some,Watch.present,Watch.present]
          cases w.patrol <;> rfl
  | late k =>
      rcases late_parts k w with same | ⟨_,_,_,same⟩
      · rw [does,same]
        exact few
      · rw [does,same,Watch.present,List.length_set]
        exact few
  | leave k =>
      rcases leave_parts k w with same | ⟨_,_,_,same⟩
      · rw [does,same]
        exact few
      · have less := List.length_eraseIdx_le w.leaving k
        rw [does,same]
        exact Nat.le_trans (Nat.add_le_add_right less _) few
  | start i =>
      rw [Watch.present,show (w.does (.start i)).leaving = [] from ready ⟨i,rfl⟩,List.length_nil,Nat.zero_add]
      cases (w.does (.start i)).patrol <;> simp
  | stop =>
      change (w.leaving ++ w.patrol.toList.map (Patrol.tell w.now)).length+0 ≤ 1
      rw [List.length_append,List.length_map]
      exact few
  | _ => exact few

theorem run_present (few : w.present ≤ 1) {xs : List Incident}
    (ready : ∀ before i after, xs = before ++ .start i :: after → (w.run before).leaving = []) :
    (w.run xs).present ≤ 1 := by
  induction xs generalizing w with
  | nil => exact few
  | cons x rest ih =>
      refine ih (does_present few ?_) ?_
      · rintro ⟨i,rfl⟩
        exact ready [] i rest rfl
      · intro before i after split
        exact ready (x :: before) i after (by rw [split]; rfl)

-- Only a poll calls anybody, and there is none without a loop.
theorem Regular.deserted (regular : w.Regular) (none : w.patrol = none) (nobody : w.leaving = [])
    (unstarted : ¬ x.Starts) : (w.does x).patrol = Option.none ∧ (w.does x).leaving = [] ∧ (w.does x).left = w.left ∧
      (w.does x).lookout.calls = w.lookout.calls := by
  cases x with
  | poll =>
      cases polled : w.lookout.poll with
      | none =>
          rw [Watch.does,polled]
          exact ⟨none,nobody,rfl,rfl⟩
      | some l =>
          obtain ⟨p,present,_⟩ := poll_parts regular polled
          cases none.symm.trans present
  | late k =>
      rcases late_parts k w with same | ⟨p,found,_⟩
      · rw [Watch.does,same]
        exact ⟨none,nobody,rfl,rfl⟩
      · rw [nobody] at found
        cases found
  | leave k =>
      rcases leave_parts k w with same | ⟨p,found,_⟩
      · rw [Watch.does,same]
        exact ⟨none,nobody,rfl,rfl⟩
      · rw [nobody] at found
        cases found
  | start i => exact absurd ⟨i,rfl⟩ unstarted
  | stop =>
      refine ⟨rfl,?_,rfl,rfl⟩
      change w.leaving ++ w.patrol.toList.map (Patrol.tell w.now) = []
      rw [none,nobody]
      rfl
  | _ => exact ⟨none,nobody,rfl,rfl⟩

theorem Regular.deserted_run (regular : w.Regular) (none : w.patrol = none) (nobody : w.leaving = [])
    {xs : List Incident} (lawful : Lawful xs w) (unstarted : ∀ x ∈ xs, ¬ x.Starts) :
    (w.run xs).left = w.left ∧ (w.run xs).lookout.calls = w.lookout.calls := by
  induction xs generalizing w with
  | nil => exact ⟨rfl,rfl⟩
  | cons x rest ih =>
      obtain ⟨none',nobody',left,calls⟩ := regular.deserted none nobody (unstarted x List.mem_cons_self)
      obtain ⟨left',calls'⟩ := ih (regular.does lawful.1) none' nobody' lawful.2
        fun y later => unstarted y (List.mem_cons_of_mem x later)
      exact ⟨left'.trans left,calls'.trans calls⟩

-- What the loops of a detector keep to: the one in its place goes on, and with nothing left to do it has missed
-- nothing. Those that were told to stop keep to the same, and each of them has polled once at most since.
structure Scheduled (w : Watch) : Prop where
  place : ∀ p, w.patrol = some p → p.told = none ∧ p.overtime = [] ∧
    (w.lookout.poll = none → p.Keeps w.moments ∧ p.Caught w.moments)
  leaving : ∀ p ∈ w.leaving, p.Dismissed w.now ∧ (p.polls ≠ [] → p.Keeps w.moments)
  left : ∀ p ∈ w.left, p.Keeps w.moments ∧ ∃ t, p.Dismissed t
  single : (w.does .poll).lookout.poll = none

theorem Regular.scheduled (regular : w.Regular) : w.Scheduled := by
  have waits {p : Patrol} (present : w.patrol = some p) (rests : w.lookout.poll = none) : w.now < p.next :=
    Lookout.poll_none.mp rests p.monitor (by rw [regular.place,present]; rfl)
  refine ⟨?_,?_,regular.left,?_⟩
  · intro p present
    obtain ⟨walks,untold,none⟩ := regular.patrol p present
    exact ⟨untold,none,fun rests => walks.keeps regular.latest (waits present rests)⟩
  · intro p there
    obtain ⟨walks,dismissed,_⟩ := regular.leaving p there
    refine ⟨dismissed,fun begun => ?_⟩
    rcases walks.stands with ⟨none,_⟩ | ⟨_,_,keeps,_⟩
    · exact absurd none begun
    · exact keeps
  · cases polled : w.lookout.poll with
    | none => rwa [Watch.does,polled]
    | some l =>
        obtain ⟨p,present,due,clock,loop,same⟩ := poll_parts regular polled
        rw [same,Lookout.poll_none]
        intro m watched
        cases Option.some.inj (loop.symm.trans watched)
        change l.now < (p.polled w.now).next
        rw [clock]
        exact ((regular.patrol p present).1.polled regular.latest regular.near due).2

end Watch

-- Detectors of one process with their loops, each under its clock, behind handles. A copy of a handle leads to the
-- same detector.
structure Watches where
  behind : Nat → Nat
  watch : Nat → Watch

namespace Watches

open Watch (Incident Lawful)

inductive Move where
  | copy (handle copy : Nat)
  | through (handle : Nat) (x : Incident)

def opened (behind patience : Nat → Nat) : Watches := ⟨behind,fun k => .opened (patience k)⟩

def does : Move → Watches → Watches
  | .copy handle copy,h => {h with behind := Function.update h.behind copy (h.behind handle)}
  | .through handle x,h => {h with
      watch := Function.update h.watch (h.behind handle) ((h.watch (h.behind handle)).does x)}

def run : List Move → Watches → Watches
  | [],h => h
  | x :: rest,h => run rest (h.does x)

-- What befalls detector `k`, through whatever handle.
def story (k : Nat) : List Move → Watches → List Incident
  | [],_ => []
  | .through handle x :: rest,h =>
    (if h.behind handle = k then [x] else []) ++ story k rest (h.does (.through handle x))
  | m :: rest,h => story k rest (h.does m)

variable {h : Watches}

theorem run_watch (k : Nat) (xs : List Move) (h : Watches) : (h.run xs).watch k = (h.watch k).run (h.story k xs) := by
  induction xs generalizing h with
  | nil => rfl
  | cons m rest ih =>
      cases m with
      | copy handle copy => exact ih _
      | through handle x =>
          rw [run,ih,story,Watch.run_append]
          congr 1
          by_cases same : h.behind handle = k
          · subst same
            simp [does,Watch.run]
          · have other : ¬ k = h.behind handle := fun same' => same same'.symm
            simp [does,Watch.run,same,Function.update_of_ne other]

theorem through_same {handle : Nat} {x : Incident} (same : (h.watch (h.behind handle)).does x = h.watch (h.behind handle)) :
    h.does (.through handle x) = h := by
  rw [does,same,Function.update_eq_self]

-- Whatever is done with a detector through whatever copies of a handle, stops at any moment included: there is a loop
-- in its place while it has been started and not stopped since, and only one. It makes the polls of the start that has
-- begun it, and so does each loop that was told to stop, until it leaves.
theorem monitor_keeps_schedule (behind patience : Nat → Nat) (xs : List Move) (handle : Nat) :
    let first := opened behind patience
    let h := first.run xs
    let k := h.behind handle
    let begun := first.watch k
    let past := first.story k xs
    let w := h.watch k
    Lawful past begun →
    w.Scheduled ∧
    (w.watching = true ↔ Since Incident.Starts (· = .stop) past) ∧
    w.watching = w.patrol.isSome ∧
    (w.watching = true → ∀ i, h.does (.through handle (.start i)) = h) ∧
    (w.watching = false → h.does (.through handle .stop) = h) ∧
    (w.loops.map Patrol.origin).Perm (begun.starts past) ∧
    ((∀ before i after, past = before ++ .start i :: after → (begun.run before).leaving = []) → w.present ≤ 1) ∧
    (∀ before after, past = before ++ after → (begun.run before).patrol = none → (begun.run before).leaving = [] →
      (∀ x ∈ after, ¬ x.Starts) →
      w.left = (begun.run before).left ∧ w.lookout.calls = (begun.run before).lookout.calls) := by
  intro first h k begun past w lawful
  have along : w = begun.run past := run_watch k xs first
  have fresh : begun.Regular := Watch.opened_regular (patience k)
  have regular : w.Regular := along ▸ fresh.run lawful
  refine ⟨regular.scheduled,?_,regular.watching,?_,?_,?_,?_,?_⟩
  · rw [along]
    exact Watch.run_watching (patience k) past
  · intro watched i
    exact through_same (Watch.start_vain regular watched i)
  · intro unwatched
    exact through_same (Watch.stop_vain regular unwatched)
  · rw [along]
    exact fresh.run_started lawful
  · intro ready
    rw [along]
    exact Watch.run_present (w := begun) (Nat.zero_le 1) ready
  · intro before after split none nobody unstarted
    rw [split,Watch.lawful_append] at lawful
    rw [along,split,Watch.run_append]
    exact (fresh.run lawful.1).deserted_run none nobody lawful.2 unstarted

-- Started through one handle and then, in vain, through a copy. A jump over two polls is followed by one, and the loop
-- is stopped. Another one that is stopped as soon as it has been started still makes its first poll.
theorem stopped_at_once :
    let ms (k : Nat) := k*millisecond
    let xs : List Move := [.copy 0 1,.through 0 (.start (ms 100)),.through 1 .poll,.through 1 (.start (ms 10)),
      .through 1 (.clock (ms 250)),.through 0 .poll,.through 1 .stop,.through 1 (.leave 0),.through 0 (.start (ms 100)),
      .through 0 .stop,.through 0 (.leave 0),.through 0 (.late 0),.through 0 (.leave 0)]
    let w := ((opened (fun _ => 0) (fun _ => ms 500)).run xs).watch 0
    w.watching = false ∧ w.left.map Patrol.polls = [[0,ms 250],[ms 250]] ∧ w.present ≤ 1 ∧
      ∀ p ∈ w.left, p.Keeps [0,ms 250] ∧ ∃ t, p.Dismissed t := by
  intro ms xs w
  let first := opened (fun _ => 0) (fun _ => ms 500)
  have interval : millisecond ≤ ms 100 ∧ millisecond ≤ ms 10 := by decide
  have rests : ((first.watch 0).run [.start (ms 100),.poll,.start (ms 10)]).lookout.poll = none :=
    Option.isNone_iff_eq_none.mp (by decide)
  have lawful : Lawful (first.story 0 xs) (first.watch 0) :=
    ⟨interval.1,True.intro,interval.2,⟨⟨rests,rfl⟩,by decide,by decide⟩,True.intro,True.intro,True.intro,interval.1,
      True.intro,True.intro,True.intro,True.intro,True.intro⟩
  obtain ⟨scheduled,_⟩ := monitor_keeps_schedule (fun _ => 0) (fun _ => ms 500) xs 0 lawful
  have moments : w.moments = [0,ms 250] := by decide
  refine ⟨by decide,by decide,by decide,?_⟩
  rw [← moments]
  exact scheduled.left

-- The timer that wakes a loop knows whole milliseconds only, and nobody sleeps past its last tick: in between an interval
-- may pass without a poll, and there polls are made before it has passed. And a start that comes before a stop is over
-- finds the place empty, so that there are two loops.
theorem timer_sets_polls :
    let ms (k : Nat) := k*millisecond
    let w : Watch := .opened (ms 500)
    let late := w.run [.start 1500000,.poll,.clock 1500000,.poll]
    let far := w.run [.start (ms 1000),.poll,.clock (Time.horizon-ms 500),.poll,.clock Time.horizon,.poll]
    let two := w.run [.start (ms 100),.stop,.start (ms 100),.late 0,.poll]
    (late.patrol.map Patrol.polls = some [0] ∧ 0+1500000 ∈ late.moments ∧ (late.does .poll).lookout.calls = []) ∧
    (far.patrol.map Patrol.polls = some [0,Time.horizon-ms 500,Time.horizon] ∧
      Time.horizon < Time.horizon-ms 500+ms 1000) ∧
    two.patrol.map Patrol.polls = some [0] ∧ two.leaving.map Patrol.polls = [[0]] ∧ two.present = 2 := by
  decide

end Watches
end LeaderElection
