import LeaderElection.Proofs.Basic
import LeaderElection.Proofs.Lookout
import Mathlib.Data.List.Chain
import Mathlib.Order.Bounds.Basic

namespace LeaderElection

-- A polling loop: since when and how often it looks, when it has polled, and when it is woken next. Once it is told
-- to stop it is on record when, and what it has polled since.
structure Patrol where
  start : Nat
  interval : Nat
  polls : List Nat
  next : Nat
  told : Option Nat
  overtime : List Nat

namespace Patrol

def begun (now interval : Nat) : Patrol := ⟨now,interval,[],now,none,[]⟩

def monitor (p : Patrol) : Monitor := ⟨p.interval,p.next⟩

def polled (now : Nat) (p : Patrol) : Patrol := {p with
  polls := p.polls ++ [now]
  next := min (Time.wake (now+p.interval)) Time.horizon
  overtime := if p.told.isSome then p.overtime ++ [now] else p.overtime}

def tell (now : Nat) (p : Patrol) : Patrol := {p with told := some now}

def origin (p : Patrol) : Nat × Nat := (p.start,p.interval)

-- The first poll is made at the start, each of the others as soon as the clock shows what the one before makes due,
-- and no two at one moment.
structure Keeps (moments : List Nat) (p : Patrol) : Prop where
  first : p.polls.head? = some p.start
  single : p.polls.Pairwise (· < ·)
  next : p.polls.IsChain fun u t => IsLeast {m | m ∈ moments ∧ Time.wake (u+p.interval) ≤ m} t

-- None that is due has been left out.
def Caught (moments : List Nat) (p : Patrol) : Prop :=
  ∀ u ∈ p.polls.getLast?, ∀ m ∈ moments, m < Time.wake (u+p.interval)

-- One that was told to stop at an instant has polled then at most since, and once.
structure Dismissed (instant : Nat) (p : Patrol) : Prop where
  told : p.told = some instant
  once : p.overtime = [] ∨ p.overtime = [instant]
  polls : p.overtime <:+ p.polls

-- A loop that goes on, with or without a poll that is due.
structure Walks (moments : List Nat) (now : Nat) (p : Patrol) : Prop where
  lasting : 0 < p.interval
  stands : (p.polls = [] ∧ p.start = now ∧ p.next = now) ∨
    ∃ u, p.polls.getLast? = some u ∧ p.Keeps moments ∧ p.next = min (Time.wake (u+p.interval)) Time.horizon ∧
      ∀ m ∈ moments, m < now → m < Time.wake (u+p.interval)

variable {p : Patrol} {moments : List Nat} {now t d v : Nat}

theorem greatest_snoc (latest : IsGreatest {m | m ∈ moments} now) (onward : now ≤ t) :
    IsGreatest {m | m ∈ moments ++ [t]} t := by
  refine ⟨List.mem_append_right _ (List.mem_singleton_self t),?_⟩
  intro m present
  rcases List.mem_append.mp present with before | last
  · exact Nat.le_trans (latest.2 before) onward
  · exact Nat.le_of_eq (List.mem_singleton.mp last)

-- A moment that comes later takes the place of none.
theorem least_snoc (latest : IsGreatest {m | m ∈ moments} now) (onward : now ≤ t)
    (least : IsLeast {m | m ∈ moments ∧ d ≤ m} v) : IsLeast {m | m ∈ moments ++ [t] ∧ d ≤ m} v := by
  refine ⟨⟨List.mem_append_left _ least.1.1,least.1.2⟩,?_⟩
  rintro m ⟨present,reached⟩
  rcases List.mem_append.mp present with before | last
  · exact least.2 ⟨before,reached⟩
  · rw [List.mem_singleton.mp last]
    exact Nat.le_trans (latest.2 least.1.1) onward

theorem Keeps.later (keeps : p.Keeps moments) (latest : IsGreatest {m | m ∈ moments} now) (onward : now ≤ t) :
    p.Keeps (moments ++ [t]) :=
  ⟨keeps.first,keeps.single,keeps.next.imp fun _ _ => least_snoc latest onward⟩

theorem Walks.begun (now : Nat) {interval : Nat} (lasting : 0 < interval) : (begun now interval).Walks moments now :=
  ⟨lasting,.inl ⟨rfl,rfl,rfl⟩⟩

-- With nothing left to do, nothing has been missed.
theorem Walks.keeps (walks : p.Walks moments now) (latest : IsGreatest {m | m ∈ moments} now) (rests : now < p.next) :
    p.Keeps moments ∧ p.Caught moments := by
  rcases walks.stands with ⟨_,_,due⟩ | ⟨u,last,keeps,next,_⟩
  · exact absurd due (Nat.ne_of_gt rests)
  · refine ⟨keeps,?_⟩
    intro v lastly m present
    cases Option.some.inj (last.symm.trans lastly)
    have reached : m ≤ now := latest.2 present
    omega

theorem Walks.clock (walks : p.Walks moments now) (latest : IsGreatest {m | m ∈ moments} now) (rests : now < p.next)
    (onward : now ≤ t) : p.Walks (moments ++ [t]) t := by
  obtain ⟨_,caught⟩ := walks.keeps latest rests
  rcases walks.stands with ⟨_,_,due⟩ | ⟨u,last,keeps,next,_⟩
  · exact absurd due (Nat.ne_of_gt rests)
  · refine ⟨walks.lasting,.inr ⟨u,last,keeps.later latest onward,next,?_⟩⟩
    intro m present earlier
    rcases List.mem_append.mp present with before | now
    · exact caught u last m before
    · exact absurd (List.mem_singleton.mp now) (Nat.ne_of_lt earlier)

theorem Walks.tell (walks : p.Walks moments now) (t : Nat) : (p.tell t).Walks moments now := by
  refine ⟨walks.lasting,walks.stands.imp_right ?_⟩
  rintro ⟨u,last,keeps,next,early⟩
  exact ⟨u,last,⟨keeps.first,keeps.single,keeps.next⟩,next,early⟩

-- What is due at the present moment was not due at any before.
theorem Walks.due (walks : p.Walks moments now) (latest : IsGreatest {m | m ∈ moments} now) (near : now < Time.horizon)
    (due : p.next ≤ now) : p.polls = [] ∧ p.start = now ∨ ∃ u, p.polls.getLast? = some u ∧ p.Keeps moments ∧
      IsLeast {m | m ∈ moments ∧ Time.wake (u+p.interval) ≤ m} now := by
  rcases walks.stands with ⟨none,begun,_⟩ | ⟨u,last,keeps,next,early⟩
  · exact .inl ⟨none,begun⟩
  · refine .inr ⟨u,last,keeps,⟨latest.1,by omega⟩,?_⟩
    rintro m ⟨present,reached⟩
    by_contra earlier
    exact absurd (early m present (Nat.lt_of_not_le earlier)) (Nat.not_lt_of_le reached)

theorem Walks.polled (walks : p.Walks moments now) (latest : IsGreatest {m | m ∈ moments} now)
    (near : now < Time.horizon) (due : p.next ≤ now) : (p.polled now).Walks moments now ∧ now < (p.polled now).next := by
  have lasting := walks.lasting
  have later := Time.le_wake (now+p.interval)
  have made : (p.polls ++ [now]).head? = some p.start ∧
      (p.polls ++ [now]).IsChain fun u t => IsLeast {m | m ∈ moments ∧ Time.wake (u+p.interval) ≤ m} t := by
    rcases walks.due latest near due with ⟨none,begun⟩ | ⟨u,last,keeps,least⟩
    · rw [none,begun]
      exact ⟨rfl,List.isChain_singleton _⟩
    · refine ⟨by rw [List.head?_append,keeps.first]; rfl,keeps.next.append (List.isChain_singleton _) ?_⟩
      intro v lastly w present
      cases Option.some.inj (last.symm.trans lastly)
      cases Option.some.inj present
      exact least
  have single : (p.polls ++ [now]).Pairwise (· < ·) := by
    refine List.isChain_iff_pairwise.mp (made.2.imp ?_)
    intro u t least
    have reached : Time.wake (u+p.interval) ≤ t := least.1.2
    have after := Time.le_wake (u+p.interval)
    omega
  have keeps : (p.polled now).Keeps moments := ⟨made.1,single,made.2⟩
  refine ⟨⟨lasting,.inr ⟨now,List.getLast?_concat,keeps,rfl,?_⟩⟩,?_⟩
  · intro m _ earlier
    change m < Time.wake (now+p.interval)
    omega
  · change now < min (Time.wake (now+p.interval)) Time.horizon
    omega

end Patrol

-- A detector with its loops. One is in its place. Others have been told to stop: they look for that after a poll only,
-- so each of them may have one to make before it leaves.
structure Watch where
  lookout : Lookout
  patrol : Option Patrol
  leaving : List Patrol
  left : List Patrol
  moments : List Nat

-- A poll of a loop that is no longer in its place.
def Lookout.surveyed (l : Lookout) : Lookout :=
  let s := l.detector.poll l.now
  {l with detector := s.detector, calls := l.calls ++ s.calls.map (l.now,·), log := l.log ++ s.log}

namespace Watch

inductive Incident where
  | clock (instant : Nat)
  | poll
  | late (k : Nat)
  | leave (k : Nat)
  | use (use : Use)
  | register (callback : Callback)
  | start (interval : Nat)
  | stop

def Incident.Starts (x : Incident) : Prop := ∃ i, x = .start i

def opened (patience : Nat) : Watch := ⟨.create patience,none,[],[],[0]⟩

def now (w : Watch) : Nat := w.lookout.now

def watching (w : Watch) : Bool := w.lookout.detector.watching

def loops (w : Watch) : List Patrol := w.left ++ w.leaving ++ w.patrol.toList

def late (k : Nat) (w : Watch) : Watch :=
  match w.leaving[k]? with
  | none => w
  | some p =>
    if p.next ≤ w.now then {w with lookout := w.lookout.surveyed, leaving := w.leaving.set k (p.polled w.now)} else w

-- Whoever has been told leaves after a poll. Its stop is over then.
def leave (k : Nat) (w : Watch) : Watch :=
  match w.leaving[k]? with
  | none => w
  | some p =>
    if p.polls = [] then w
    else {w with
      lookout := {w.lookout with log := w.lookout.log ++ [Detector.stopped]}
      leaving := w.leaving.eraseIdx k
      left := w.left ++ [p]}

-- To start where there is a loop in its place, or to stop where there is none, is in vain.
def does : Incident → Watch → Watch
  | .clock instant,w => {w with lookout := {w.lookout with now := instant}, moments := w.moments ++ [instant]}
  | .poll,w => w.lookout.poll.elim w fun l => {w with lookout := l, patrol := w.patrol.map (Patrol.polled w.now)}
  | .late k,w => w.late k
  | .leave k,w => w.leave k
  | .use use,w => {w with lookout := w.lookout.does (.use use)}
  | .register callback,w => {w with lookout := w.lookout.does (.register callback)}
  | .start interval,w => {w with
      lookout := w.lookout.does (.start interval)
      patrol := w.patrol.or (some (.begun w.now interval))}
  | .stop,w => {w with
      lookout := {w.lookout with detector := w.lookout.detector.stop.1}
      patrol := none
      leaving := w.leaving ++ w.patrol.toList.map (Patrol.tell w.now)}

def run : List Incident → Watch → Watch
  | [],w => w
  | x :: rest,w => run rest (w.does x)

-- No loop has anything left to do.
def Rests (w : Watch) : Prop := w.lookout.poll = none ∧ w.leaving = []

-- The clock goes forward only, once no loop has anything left to do. It never gets to where nobody sleeps any more.
def Allows (w : Watch) : Incident → Prop
  | .clock instant => w.Rests ∧ w.now ≤ instant ∧ instant < Time.horizon
  | .start interval => millisecond ≤ interval
  | _ => True

def Lawful : List Incident → Watch → Prop
  | [],_ => True
  | x :: rest,w => w.Allows x ∧ Lawful rest (w.does x)

-- The loops that are started: when, and at which interval.
def startsOf : Incident → Watch → List (Nat × Nat)
  | .start interval,w => if w.watching then [] else [(w.now,interval)]
  | _,_ => []

def starts : List Incident → Watch → List (Nat × Nat)
  | [],_ => []
  | x :: rest,w => w.startsOf x ++ starts rest (w.does x)

-- What holds of a detector and its loops throughout a lawful run.
structure Regular (w : Watch) : Prop where
  near : w.now < Time.horizon
  latest : IsGreatest {m | m ∈ w.moments} w.now
  place : w.lookout.detector.monitor = w.patrol.map Patrol.monitor
  patrol : ∀ p, w.patrol = some p → p.Walks w.moments w.now ∧ p.told = none ∧ p.overtime = []
  leaving : ∀ p ∈ w.leaving, p.Walks w.moments w.now ∧ p.Dismissed w.now ∧ (p.overtime = [] ∨ w.now < p.next)
  left : ∀ p ∈ w.left, p.Keeps w.moments ∧ ∃ t, p.Dismissed t

variable {w : Watch} {x : Incident} {p : Patrol}

theorem run_append (before after : List Incident) (w : Watch) : w.run (before ++ after) = (w.run before).run after := by
  induction before generalizing w with
  | nil => rfl
  | cons x rest ih => exact ih (w.does x)

theorem lawful_append (before after : List Incident) (w : Watch) :
    Lawful (before ++ after) w ↔ Lawful before w ∧ Lawful after (w.run before) := by
  induction before generalizing w with
  | nil => exact (and_iff_right trivial).symm
  | cons x rest ih => exact (and_congr_right fun _ => ih (w.does x)).trans and_assoc.symm

-- Whether there is a loop is what its place says, whatever has become of it.
theorem Regular.watching (regular : w.Regular) : w.watching = w.patrol.isSome := by
  rw [Watch.watching,Detector.watching,regular.place,Option.isSome_map]

theorem unwatched_parts (regular : w.Regular) (unwatched : w.watching = false) :
    w.patrol = none ∧ w.lookout.detector.monitor = none := by
  rw [regular.watching] at unwatched
  have none : w.patrol = none := by simpa using unwatched
  exact ⟨none,by rw [regular.place,none]; rfl⟩

theorem start_vain (regular : w.Regular) (watched : w.watching = true) (i : Nat) : w.does (.start i) = w := by
  rw [regular.watching] at watched
  obtain ⟨p,present⟩ := Option.isSome_iff_exists.mp watched
  have loop : w.lookout.detector.watching = true := by
    rw [Detector.watching,regular.place,present]
    rfl
  rw [does,Lookout.does_start loop,present]
  exact congrArg (fun patrol => {w with patrol}) present.symm

theorem stop_vain (regular : w.Regular) (unwatched : w.watching = false) : w.does .stop = w := by
  obtain ⟨none,loop⟩ := unwatched_parts regular unwatched
  have idle : w.lookout.detector.stop.1 = w.lookout.detector := by rw [Detector.stop,loop]
  rw [does,idle,none,Option.toList_none,List.map_nil,List.append_nil]
  exact congrArg (fun patrol => {w with patrol}) none.symm

theorem surveyed_loop (l : Lookout) : l.surveyed.detector.monitor = l.detector.monitor := by
  change (l.detector.poll l.now).detector.monitor = _
  cases registered : l.detector.callback with
  | none => rw [Detector.poll_unheard registered]
  | some c => exact (Detector.poll_reports registered).others.2.2

theorem poll_parts (regular : w.Regular) (polled : w.lookout.poll = some l) : ∃ p, w.patrol = some p ∧ p.next ≤ w.now ∧
    l.now = w.now ∧ l.detector.monitor = some (p.polled w.now).monitor ∧
    w.does .poll = {w with lookout := l, patrol := some (p.polled w.now)} := by
  rcases w.lookout.does_poll with ⟨rests,_⟩ | ⟨m,watched,due,polls,_⟩
  · cases rests.symm.trans polled
  · obtain ⟨p,present,rfl⟩ := Option.map_eq_some_iff.mp (regular.place.symm.trans watched)
    cases polls.symm.trans polled
    refine ⟨p,present,due,rfl,rfl,?_⟩
    rw [does,polls,Option.elim_some,present]
    rfl

theorem late_parts (k : Nat) (w : Watch) : w.late k = w ∨ ∃ p, w.leaving[k]? = some p ∧ p.next ≤ w.now ∧
    w.late k = {w with lookout := w.lookout.surveyed, leaving := w.leaving.set k (p.polled w.now)} := by
  unfold late
  split
  · exact .inl rfl
  · next p found =>
      split
      · next due => exact .inr ⟨p,found,due,rfl⟩
      · exact .inl rfl

theorem leave_parts (k : Nat) (w : Watch) : w.leave k = w ∨ ∃ p, w.leaving[k]? = some p ∧ p.polls ≠ [] ∧
    w.leave k = {w with
      lookout := {w.lookout with log := w.lookout.log ++ [Detector.stopped]}
      leaving := w.leaving.eraseIdx k
      left := w.left ++ [p]} := by
  unfold leave
  split
  · exact .inl rfl
  · next p found =>
      split
      · exact .inl rfl
      · next begun => exact .inr ⟨p,found,begun,rfl⟩

theorem opened_regular (patience : Nat) : (opened patience).Regular := by
  refine ⟨(by decide : 0 < Time.horizon),⟨List.mem_singleton_self _,?_⟩,rfl,nofun,nofun,nofun⟩
  intro m present
  exact Nat.le_of_eq (List.mem_singleton.mp present)

theorem Regular.poll (regular : w.Regular) : (w.does .poll).Regular := by
  cases polled : w.lookout.poll with
  | none =>
      rw [does,polled]
      exact regular
  | some l =>
      obtain ⟨p,present,due,clock,loop,same⟩ := poll_parts regular polled
      obtain ⟨walks,untold,none⟩ := regular.patrol p present
      have clock : Watch.now {w with lookout := l, patrol := some (p.polled w.now)} = w.now := clock
      rw [same]
      refine ⟨?_,?_,loop,?_,?_,regular.left⟩
      · rw [clock]
        exact regular.near
      · rw [clock]
        exact regular.latest
      · intro q there
        cases there
        rw [clock]
        refine ⟨(walks.polled regular.latest regular.near due).1,untold,?_⟩
        change (if p.told.isSome then _ else p.overtime) = []
        rw [untold,none]
        rfl
      · rw [clock]
        exact regular.leaving

-- A loop that was told to stop polls at most once more: after that it is not due before it leaves.
theorem Regular.late (regular : w.Regular) (k : Nat) : (w.late k).Regular := by
  rcases late_parts k w with same | ⟨p,found,due,same⟩
  · rw [same]
    exact regular
  · rw [same]
    obtain ⟨walks,dismissed,idle⟩ := regular.leaving p (List.mem_of_getElem? found)
    have none : p.overtime = [] := idle.resolve_right (Nat.not_lt.mpr due)
    obtain ⟨onward,waits⟩ := walks.polled regular.latest regular.near due
    have overtime : (p.polled w.now).overtime = [w.now] := by
      change (if p.told.isSome then p.overtime ++ [w.now] else p.overtime) = _
      rw [dismissed.told,none]
      rfl
    refine ⟨regular.near,regular.latest,(surveyed_loop _).trans regular.place,regular.patrol,?_,regular.left⟩
    intro q there
    rcases List.mem_or_eq_of_mem_set there with before | rfl
    · exact regular.leaving q before
    · refine ⟨onward,⟨dismissed.told,.inr overtime,?_⟩,.inr waits⟩
      rw [overtime]
      exact List.suffix_append p.polls [w.now]

theorem Regular.leave (regular : w.Regular) (k : Nat) : (w.leave k).Regular := by
  rcases leave_parts k w with same | ⟨p,found,begun,same⟩
  · rw [same]
    exact regular
  · rw [same]
    obtain ⟨walks,dismissed,_⟩ := regular.leaving p (List.mem_of_getElem? found)
    refine {regular with leaving := ?_, left := ?_}
    · intro q there
      exact regular.leaving q (List.mem_of_mem_eraseIdx there)
    · intro q there
      rcases List.mem_append.mp there with before | last
      · exact regular.left q before
      · cases List.mem_singleton.mp last
        rcases walks.stands with ⟨none,_⟩ | ⟨_,_,keeps,_⟩
        · exact absurd none begun
        · exact ⟨keeps,_,dismissed⟩

theorem Regular.clock (regular : w.Regular) (rests : w.Rests) (onward : w.now ≤ t) (near : t < Time.horizon) :
    (w.does (.clock t)).Regular := by
  obtain ⟨idle,nobody⟩ := rests
  refine ⟨near,Patrol.greatest_snoc regular.latest onward,regular.place,?_,?_,?_⟩
  · intro p present
    change w.patrol = some p at present
    obtain ⟨walks,others⟩ := regular.patrol p present
    have waits : w.now < p.next := Lookout.poll_none.mp idle p.monitor (by rw [regular.place,present]; rfl)
    exact ⟨walks.clock regular.latest waits onward,others⟩
  · intro p there
    change p ∈ w.leaving at there
    rw [nobody] at there
    cases there
  · intro p there
    obtain ⟨keeps,dismissed⟩ := regular.left p there
    exact ⟨keeps.later regular.latest onward,dismissed⟩

theorem Regular.start (regular : w.Regular) (lasting : 0 < i) : (w.does (.start i)).Regular := by
  cases watched : w.watching with
  | true =>
      rw [start_vain regular watched]
      exact regular
  | false =>
      obtain ⟨loop,clock⟩ := Lookout.does_begin watched i
      have clock : Watch.now (w.does (.start i)) = w.now := clock
      have begins : (w.does (.start i)).patrol = some (.begun w.now i) := by
        rw [does,(unwatched_parts regular watched).1,Option.none_or]
      refine ⟨?_,?_,?_,?_,?_,regular.left⟩
      · rw [clock]
        exact regular.near
      · rw [clock]
        exact regular.latest
      · rw [begins]
        exact loop
      · rw [begins,clock]
        intro p there
        cases there
        exact ⟨.begun _ lasting,rfl,rfl⟩
      · rw [clock]
        exact regular.leaving

theorem Regular.stop (regular : w.Regular) : (w.does .stop).Regular := by
  refine ⟨regular.near,regular.latest,?_,nofun,?_,regular.left⟩
  · change w.lookout.detector.stop.1.monitor = none
    unfold Detector.stop
    split
    · next none => exact none
    · rfl
  · intro q there
    rcases List.mem_append.mp there with before | last
    · exact regular.leaving q before
    · obtain ⟨p,present,rfl⟩ := List.mem_map.mp last
      obtain ⟨walks,_,none⟩ := regular.patrol p (Option.mem_toList.mp present)
      exact ⟨walks.tell w.now,⟨rfl,.inl none,none ▸ List.nil_suffix⟩,.inl none⟩

theorem Regular.does (regular : w.Regular) (allowed : w.Allows x) : (w.does x).Regular := by
  cases x with
  | clock t => exact regular.clock allowed.1 allowed.2.1 allowed.2.2
  | poll => exact regular.poll
  | late k => exact regular.late k
  | leave k => exact regular.leave k
  | use use =>
      exact {regular with place := (Detector.used_others w.now w.lookout.detector use).2.trans regular.place}
  | register callback => exact {regular with}
  | start i => exact regular.start (Nat.lt_of_lt_of_le (by decide) allowed)
  | stop => exact regular.stop

theorem Regular.run (regular : w.Regular) {xs : List Incident} (lawful : Lawful xs w) : (w.run xs).Regular := by
  induction xs generalizing w with
  | nil => exact regular
  | cons x rest ih => exact ih (regular.does lawful.1) lawful.2

end Watch
end LeaderElection
