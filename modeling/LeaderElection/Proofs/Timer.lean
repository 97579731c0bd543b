import LeaderElection.Proofs.Basic
import LeaderElection.Proofs.Node.Pace
import Mathlib.Order.Bounds.Basic

namespace LeaderElection

-- All that one round of the timer's task can be: it fires and rests, or it watches the deadline as it is
-- now, after a rest or because the deadline was moved.
inductive ElectionTimer.Rung (now draw : Nat) : ElectionTimer → ElectionTimer × Bool → Prop where
  | fired (elapsed : moment ≤ now) : Rung now draw ⟨moment,.watching watched⟩ (⟨moment,.resting (now+draw)⟩,true)
  | moved (later : now < moment) : Rung now draw ⟨moment,.watching watched⟩ (⟨moment,.watching moment⟩,false)
  | rested : Rung now draw ⟨moment,.resting rest⟩ (⟨moment,.watching moment⟩,false)

theorem ElectionTimer.wake_parts {t : ElectionTimer} {result : ElectionTimer × Bool}
    (woken : t.wake now draw = some result) : Time.wake t.slumber.deadline ≤ now ∧ Rung now draw t result := by
  obtain ⟨deadline,slumber⟩ := t
  unfold wake at woken
  split at woken
  · next passed =>
      refine ⟨Time.passed_exact.mp passed,?_⟩
      cases slumber with
      | resting rest =>
          cases woken
          exact .rested
      | watching watched =>
          by_cases expired : deadline ≤ now
          · simp [ElectionTimer.expired,expired] at woken
            cases woken
            exact .fired expired
          · simp [ElectionTimer.expired,expired] at woken
            cases woken
            exact .moved (Nat.not_le.mp expired)
  · cases woken

-- An election timer under a clock, as long as its handle is held. It is on record when the timer was
-- armed, reset or has fired, and which of these were firings.
structure Vigil where
  now : Nat
  timer : Option ElectionTimer
  stirred : List Nat
  fired : List Nat

namespace Vigil

inductive Act where
  | pass (instant : Nat)
  | reset (draw : Nat)
  | wake (draw : Nat)
  | drop

def armed (now draw : Nat) : Vigil := ⟨now,some (.start now draw),[now],[]⟩

-- The clock does not pass an instant at which the task is to be woken.
def asleep (instant : Nat) (v : Vigil) : Bool :=
  v.timer.all fun t => decide (instant ≤ Time.wake t.slumber.deadline)

def does : Act → Vigil → Vigil
  | .pass instant,v => if v.now ≤ instant ∧ v.asleep instant = true then {v with now := instant} else v
  | .reset draw,v => v.timer.elim v fun t =>
      {v with timer := some (t.reset v.now draw), stirred := v.stirred ++ [v.now]}
  | .wake draw,v => match v.timer.bind fun t => t.wake v.now draw with
    | none => v
    | some (after,false) => {v with timer := some after}
    | some (after,true) =>
      {v with timer := some after, stirred := v.stirred ++ [v.now], fired := v.fired ++ [v.now]}
  | .drop,v => {v with timer := none}

def run : List Act → Vigil → Vigil
  | [],v => v
  | x :: rest,v => run rest (v.does x)

-- The last that happened before an instant.
def Latest (t r : Nat) (v : Vigil) : Prop := IsGreatest {s | s ∈ v.stirred ∧ s < t} r

-- An instant that is over, or at which nothing is left to do.
def Over (t : Nat) (v : Vigil) : Prop :=
  t < v.now ∨ t = v.now ∧ ∀ draw, v.timer.bind (fun t => t.wake v.now draw) = none

-- Whether the timer fires at an instant hangs on the last that happened before.
def Rule (d t : Nat) (v : Vigil) : Prop := t ∈ v.fired ↔ ∃ r, v.Latest t r ∧ t = Time.wake (r+d)

-- The timeout has passed since it was last stirred.
def Due (d : Nat) (v : Vigil) : Prop := ∃ r, IsGreatest {s | s ∈ v.stirred} r ∧ r+d ≤ v.now

-- Timeouts are drawn from the range. Nobody resets the timer in the very millisecond in which it is due.
def Allowed (range : Range) (d : Nat) : Act → Vigil → Prop
  | .reset draw,v => range.Holds draw ∧ ¬ v.Due d
  | .wake draw,_ => range.Holds draw
  | _,_ => True

def Lawful (range : Range) (d : Nat) : List Act → Vigil → Prop
  | [],_ => True
  | x :: rest,v => Allowed range d x v ∧ Lawful range d rest (v.does x)

-- A timer that was last stirred at `r`. It has been put off since, or it has fired and its task rests as
-- long as the timeout, or that rest has just come to its end.
inductive Guards (d r now : Nat) : ElectionTimer → Prop where
  | put (early : slumber.deadline ≤ r+d) (asleep : now ≤ Time.wake slumber.deadline) :
      Guards d r now ⟨r+d,slumber⟩
  | rests (whole : millisecond ∣ r) (elapsed : deadline ≤ r) (asleep : now ≤ Time.wake (r+d)) :
      Guards d r now ⟨deadline,.resting (r+d)⟩
  | rouses (whole : millisecond ∣ r) (elapsed : deadline ≤ r) (due : now = Time.wake (r+d)) :
      Guards d r now ⟨deadline,.watching deadline⟩

-- A vigil that was last stirred at `r`, and has kept the rule up to then.
structure Regular (d r : Nat) (v : Vigil) : Prop where
  latest : IsGreatest {s | s ∈ v.stirred} r
  fired : ∀ t ∈ v.fired, t ∈ v.stirred
  apart : v.fired.Pairwise fun t t' => t+d ≤ t'
  begun : r ≤ v.now
  past : ∀ t ≤ r, v.Rule d t
  guards : ∀ t, v.timer = some t → Guards d r v.now t

variable {d r now draw : Nat} {t : ElectionTimer} {v : Vigil} {range : Range}

theorem Guards.due (guards : Guards d r now t) : now ≤ Time.wake (r+d) := by
  cases guards with
  | put early asleep => exact Nat.le_trans asleep (Time.wake_mono early)
  | rests _ _ asleep => exact asleep
  | rouses _ _ due => exact Nat.le_of_eq due

theorem Guards.start (now d : Nat) : Guards d now now (.start now d) :=
  .put (Nat.le_refl _) (Nat.le_trans (Nat.le_add_right _ _) (Time.le_wake _))

-- A timer that is put off before it is due. Its task may wake earlier, and finds the deadline moved.
theorem Guards.reset (guards : Guards d r now t) (begun : r ≤ now) (early : now < r+d) :
    Guards d now now (t.reset now d) := by
  cases guards with
  | put early asleep => exact .put (Nat.le_trans early (Nat.add_le_add_right begun d)) asleep
  | rests _ _ asleep => exact .put (Nat.add_le_add_right begun d) asleep
  | rouses _ _ due => exact absurd early (Nat.not_lt.mpr (due ▸ Time.le_wake _))

-- Time that passes while the task sleeps.
theorem Guards.pass (guards : Guards d r now t) (onward : now ≤ later)
    (asleep : later ≤ Time.wake t.slumber.deadline) : Guards d r later t := by
  cases guards with
  | put early _ => exact .put early asleep
  | rests whole elapsed _ => exact .rests whole elapsed asleep
  | @rouses deadline whole elapsed due =>
      have past : later ≤ r := Nat.le_trans asleep (Time.wake_le whole elapsed)
      have reached : r ≤ now := due ▸ Nat.le_trans (Nat.le_add_right _ _) (Time.le_wake _)
      have same : later = now := Nat.le_antisymm (Nat.le_trans past reached) onward
      exact same ▸ .rouses whole elapsed due

-- The task goes round at the very instant it is woken. It fires then exactly if the timeout has passed.
theorem Guards.wake (guards : Guards d r now t) {result : ElectionTimer × Bool}
    (woken : t.wake now d = some result) :
    (result.2 = false ∧ Guards d r now result.1) ∨
      (result.2 = true ∧ now = Time.wake (r+d) ∧ Guards d now now result.1) := by
  obtain ⟨elapsed,rung⟩ := ElectionTimer.wake_parts woken
  have due := guards.due
  have rests : ∀ {deadline}, deadline ≤ now → now = Time.wake (r+d) →
      Guards d now now ⟨deadline,.resting (now+d)⟩ := by
    intro deadline expired due
    exact .rests (due ▸ Time.wake_dvd _) expired (Nat.le_trans (Nat.le_add_right _ _) (Time.le_wake _))
  cases guards with
  | @put slumber early asleep =>
      have moment : now = Time.wake slumber.deadline := Nat.le_antisymm asleep elapsed
      cases rung with
      | fired expired =>
          have whole : millisecond ∣ now := moment ▸ Time.wake_dvd _
          have fires := Nat.le_antisymm due (Time.wake_le whole expired)
          exact .inr ⟨rfl,fires,rests expired fires⟩
      | moved later => exact .inl ⟨rfl,.put (Nat.le_refl _) due⟩
      | rested => exact .inl ⟨rfl,.put (Nat.le_refl _) due⟩
  | rests whole past asleep =>
      cases rung with
      | rested => exact .inl ⟨rfl,.rouses whole past (Nat.le_antisymm due elapsed)⟩
  | rouses whole past fires =>
      have reached : r ≤ now := fires ▸ Nat.le_trans (Nat.le_add_right _ _) (Time.le_wake _)
      cases rung with
      | fired expired => exact .inr ⟨rfl,fires,rests expired fires⟩
      | moved later => exact absurd (Nat.le_trans past reached) (Nat.not_le.mpr later)

-- Whoever is not woken at an instant is not due at it.
theorem Guards.resting (guards : Guards d r now t) (rests : t.wake now draw = none) : now < Time.wake (r+d) := by
  have asleep := (ElectionTimer.wake_none t).mp rests
  cases guards with
  | put early _ => exact Nat.lt_of_lt_of_le asleep (Time.wake_mono early)
  | rests _ _ _ => exact asleep
  | @rouses deadline whole elapsed due =>
      have past : Time.wake deadline ≤ r := Time.wake_le whole elapsed
      have reached : r ≤ now := due ▸ Nat.le_trans (Nat.le_add_right _ _) (Time.le_wake _)
      exact absurd asleep (Nat.not_lt.mpr (Nat.le_trans past reached))

-- What happens at an instant does not count before it.
theorem latest_snoc (early : instant ≤ v.now) (timer : Option ElectionTimer) (fired : List Nat) :
    Latest instant r ⟨v.now,timer,v.stirred ++ [v.now],fired⟩ ↔ v.Latest instant r := by
  have same : {s | s ∈ v.stirred ++ [v.now] ∧ s < instant} = {s | s ∈ v.stirred ∧ s < instant} := by
    ext s
    simp only [Set.mem_ofPred_eq,List.mem_append,List.mem_singleton]
    constructor
    · rintro ⟨present | rfl,before⟩
      · exact ⟨present,before⟩
      · exact absurd before (Nat.not_lt.mpr early)
    · rintro ⟨present,before⟩
      exact ⟨.inl present,before⟩
  unfold Latest
  rw [same]

theorem Regular.latest_exact (regular : Regular d r v) (after : r < instant) : v.Latest instant s ↔ s = r := by
  have all : {s | s ∈ v.stirred ∧ s < instant} = {s | s ∈ v.stirred} := by
    ext s
    exact ⟨And.left,fun present => ⟨present,Nat.lt_of_le_of_lt (regular.latest.2 present) after⟩⟩
  unfold Latest
  rw [all]
  exact ⟨fun greatest => greatest.unique regular.latest,fun same => same ▸ regular.latest⟩

-- Since it was last stirred it has not fired, and was not due.
theorem Regular.rule (regular : Regular d r v) (after : r < instant) (early : instant < Time.wake (r+d)) :
    v.Rule d instant := by
  have unfired : instant ∉ v.fired := fun fired =>
    Nat.not_le.mpr after (regular.latest.2 (regular.fired instant fired))
  refine iff_of_false unfired ?_
  rintro ⟨s,latest,due⟩
  rw [(regular.latest_exact after).mp latest] at due
  exact Nat.ne_of_lt early due

theorem Regular.armed (now d : Nat) : Regular d now (armed now d) := by
  refine ⟨⟨List.mem_singleton_self _,?_⟩,nofun,.nil,Nat.le_refl _,?_,?_⟩
  · intro s present
    exact Nat.le_of_eq (List.mem_singleton.mp present)
  · intro t early
    refine iff_of_false List.not_mem_nil ?_
    rintro ⟨s,⟨⟨present,before⟩,_⟩,_⟩
    rw [List.mem_singleton.mp present] at before
    exact Nat.not_lt.mpr early before
  · intro t held
    cases held
    exact .start now d

theorem Regular.greatest (regular : Regular d r v) : IsGreatest {s | s ∈ v.stirred ++ [v.now]} v.now := by
  refine ⟨List.mem_append_right _ (List.mem_singleton_self _),?_⟩
  intro s present
  rcases List.mem_append.mp present with earlier | last
  · exact Nat.le_trans (regular.latest.2 earlier) regular.begun
  · exact Nat.le_of_eq (List.mem_singleton.mp last)

theorem Regular.reset (regular : Regular d r v) (held : v.timer = some t) (early : ¬ v.Due d) :
    Regular d v.now {v with timer := some (t.reset v.now d), stirred := v.stirred ++ [v.now]} := by
  have soon : v.now < r+d := Nat.not_le.mp fun due => early ⟨r,regular.latest,due⟩
  refine ⟨regular.greatest,?_,regular.apart,Nat.le_refl _,?_,?_⟩
  · intro t fired
    exact List.mem_append_left _ (regular.fired t fired)
  · intro instant reached
    have before : v.Rule d instant := by
      rcases Nat.lt_or_ge r instant with after | past
      · exact regular.rule after (Nat.lt_of_le_of_lt reached (Nat.lt_of_lt_of_le soon (Time.le_wake _)))
      · exact regular.past instant past
    unfold Rule
    simp only [latest_snoc reached]
    exact before
  · intro t' held'
    cases held'
    exact (regular.guards t held).reset regular.begun soon

theorem Regular.fire (regular : Regular d r v) (positive : 0 < d) (due : v.now = Time.wake (r+d))
    (guards : Guards d v.now v.now t) : Regular d v.now
      {v with timer := some t, stirred := v.stirred ++ [v.now], fired := v.fired ++ [v.now]} := by
  have apart : r+d ≤ v.now := due ▸ Time.le_wake _
  refine ⟨regular.greatest,?_,?_,Nat.le_refl _,?_,?_⟩
  · intro t fired
    rcases List.mem_append.mp fired with earlier | last
    · exact List.mem_append_left _ (regular.fired t earlier)
    · exact List.mem_append_right _ last
  · refine List.pairwise_append.mpr ⟨regular.apart,List.pairwise_singleton _ _,?_⟩
    intro t earlier t' last
    rw [List.mem_singleton.mp last]
    exact Nat.le_trans (Nat.add_le_add_right (regular.latest.2 (regular.fired t earlier)) d) apart
  · intro instant reached
    unfold Rule
    simp only [latest_snoc reached,List.mem_append,List.mem_singleton]
    rcases Nat.lt_or_eq_of_le reached with before | rfl
    · have rule : v.Rule d instant := by
        rcases Nat.lt_or_ge r instant with after | past
        · exact regular.rule after (due ▸ before)
        · exact regular.past instant past
      rw [or_iff_left (Nat.ne_of_lt before)]
      exact rule
    · refine iff_of_true (.inr rfl) ⟨r,(regular.latest_exact ?_).mpr rfl,due⟩
      omega
  · intro t' held
    cases held
    exact guards

theorem Regular.does (regular : Regular d r v) (positive : 0 < d) (single : ∀ x, range.Holds x → x = d)
    (allowed : Allowed range d x v) : ∃ r, Regular d r (v.does x) := by
  cases x with
  | pass instant =>
      rw [Vigil.does]
      split
      · next open' =>
          refine ⟨r,{regular with begun := Nat.le_trans regular.begun open'.1, guards := ?_}⟩
          intro t held
          have asleep := open'.2
          rw [Vigil.asleep,held,Option.all_some,decide_eq_true_eq] at asleep
          exact (regular.guards t held).pass open'.1 asleep
      · exact ⟨r,regular⟩
  | reset draw =>
      obtain ⟨drawn,early⟩ := allowed
      rw [single draw drawn,Vigil.does]
      cases held : v.timer with
      | none => exact ⟨r,regular⟩
      | some t => exact ⟨_,regular.reset held early⟩
  | wake draw =>
      have drawn : draw = d := single draw allowed
      rw [drawn,Vigil.does]
      cases woken : v.timer.bind fun t => t.wake v.now d with
      | none => exact ⟨r,regular⟩
      | some result =>
          obtain ⟨t,held,rung⟩ := Option.bind_eq_some_iff.mp woken
          obtain ⟨after,fires⟩ := result
          rcases (regular.guards t held).wake rung with ⟨quiet,guards⟩ | ⟨fired,due,guards⟩
          · cases quiet
            refine ⟨r,{regular with guards := ?_}⟩
            intro t' held'
            cases held'
            exact guards
          · cases fired
            exact ⟨_,regular.fire positive due guards⟩
  | drop => exact ⟨r,{regular with guards := nofun}⟩

theorem Regular.run (regular : Regular d r v) (positive : 0 < d) (single : ∀ x, range.Holds x → x = d)
    {acts : List Act} (lawful : Lawful range d acts v) : ∃ r, Regular d r (v.run acts) := by
  induction acts generalizing r v with
  | nil => exact ⟨r,regular⟩
  | cons x rest ih =>
      obtain ⟨r',next⟩ := regular.does positive single lawful.1
      exact ih next lawful.2

theorem Regular.ruled (regular : Regular d r v) (held : v.timer = some t) (elapsed : v.Over instant) :
    v.Rule d instant := by
  have guards := regular.guards t held
  rcases Nat.lt_or_ge r instant with after | past
  · rcases elapsed with before | ⟨rfl,rests⟩
    · exact regular.rule after (Nat.lt_of_lt_of_le before guards.due)
    · have asleep := rests d
      rw [held,Option.bind_some] at asleep
      exact regular.rule after (guards.resting asleep)
  · exact regular.past instant past

-- A timer that nobody holds does not fire any more.
theorem run_dropped (dropped : v.timer = none) (acts : List Act) :
    (v.run acts).timer = none ∧ (v.run acts).fired = v.fired := by
  induction acts generalizing v with
  | nil => exact ⟨dropped,rfl⟩
  | cons x rest ih =>
      have kept : (v.does x).timer = none ∧ (v.does x).fired = v.fired := by
        cases x with
        | pass instant =>
            rw [Vigil.does]
            split <;> exact ⟨dropped,rfl⟩
        | reset draw => simp [Vigil.does,dropped]
        | wake draw => simp [Vigil.does,dropped]
        | drop => exact ⟨rfl,rfl⟩
      obtain ⟨still,same⟩ := ih kept.1
      exact ⟨still,same.trans kept.2⟩

theorem run_append (before after : List Act) (v : Vigil) : v.run (before ++ after) = (v.run before).run after := by
  induction before generalizing v with
  | nil => rfl
  | cons x rest ih => exact ih (v.does x)

theorem lawful_append {before after : List Act} (first : Lawful range d before v)
    (second : Lawful range d after (v.run before)) : Lawful range d (before ++ after) v := by
  induction before generalizing v with
  | nil => exact second
  | cons x rest ih => exact ⟨first.1,ih first.2 second⟩

-- A task that watches goes to sleep in one round, one that rests in two.
theorem wake_watching (positive : 0 < d) (held : v.timer = some ⟨moment,.watching watched⟩) :
    (v.does (.wake d)).now = v.now ∧ ∃ t, (v.does (.wake d)).timer = some t ∧ v.now < Time.wake t.slumber.deadline := by
  rw [Vigil.does,held,Option.bind_some]
  cases woken : ElectionTimer.wake v.now d ⟨moment,.watching watched⟩ with
  | none => exact ⟨rfl,_,held,(ElectionTimer.wake_none _).mp woken⟩
  | some result =>
      obtain ⟨_,rung⟩ := ElectionTimer.wake_parts woken
      cases rung with
      | fired _ => exact ⟨rfl,_,rfl,Nat.lt_of_lt_of_le (Nat.lt_add_of_pos_right positive) (Time.le_wake _)⟩
      | moved later => exact ⟨rfl,_,rfl,Nat.lt_of_lt_of_le later (Time.le_wake _)⟩

theorem settles (positive : 0 < d) (held : v.timer = some t) : ∃ rounds : List Act, (∀ x ∈ rounds, x = .wake d) ∧
    (v.run rounds).now = v.now ∧ ∃ t, (v.run rounds).timer = some t ∧ v.now < Time.wake t.slumber.deadline := by
  obtain ⟨moment,slumber⟩ := t
  cases slumber with
  | watching watched => exact ⟨[.wake d],by simp,wake_watching positive held⟩
  | resting rest =>
      cases woken : ElectionTimer.wake v.now d ⟨moment,.resting rest⟩ with
      | none => exact ⟨[],nofun,rfl,_,held,(ElectionTimer.wake_none _).mp woken⟩
      | some result =>
          obtain ⟨_,rung⟩ := ElectionTimer.wake_parts woken
          cases rung
          have roused : v.does (.wake d) = {v with timer := some ⟨moment,.watching moment⟩} := by
            rw [Vigil.does,held,Option.bind_some,woken]
          have next := wake_watching positive (congrArg timer roused)
          rw [congrArg now roused] at next
          exact ⟨[.wake d,.wake d],by simp,next⟩

theorem lawful_rounds {rounds : List Act} (drawn : range.Holds d) (all : ∀ x ∈ rounds, x = .wake d) :
    Lawful range d rounds v := by
  induction rounds generalizing v with
  | nil => exact True.intro
  | cons x rest ih =>
      obtain ⟨first,others⟩ := List.forall_mem_cons.mp all
      subst first
      exact ⟨drawn,ih others⟩

-- The clock is not held up: a timer left alone lives to see any instant.
theorem goes_on (positive : 0 < d) (drawn : range.Holds d) (held : v.timer = some t) (onward : v.now ≤ instant) :
    ∃ more, Lawful range d more v ∧ (∀ draw, .reset draw ∉ more) ∧ (v.run more).timer.isSome ∧
      (v.run more).now = instant := by
  induction left : instant-v.now using Nat.strong_induction_on generalizing v t with
  | _ left ih =>
      obtain ⟨rounds,all,now,t',held',asleep⟩ := settles positive held
      have lawful : Lawful range d rounds v := lawful_rounds drawn all
      have quiet (draw : Nat) : Act.reset draw ∉ rounds := fun present => nomatch all _ present
      -- The clock goes to the next instant at which the task is woken, if that is not too far.
      let stop := min instant (Time.wake t'.slumber.deadline)
      have later : v.now ≤ stop := Nat.le_min.mpr ⟨onward,Nat.le_of_lt asleep⟩
      have passed : (v.run rounds).does (.pass stop) = {v.run rounds with now := stop} := by
        refine if_pos ⟨now ▸ later,?_⟩
        rw [Vigil.asleep,held',Option.all_some,decide_eq_true_eq]
        exact Nat.min_le_right _ _
      have step : v.run (rounds ++ [.pass stop]) = {v.run rounds with now := stop} := by
        rw [run_append]
        exact passed
      have walked : Lawful range d (rounds ++ [.pass stop]) v :=
        lawful_append lawful ⟨True.intro,True.intro⟩
      have still (draw : Nat) : Act.reset draw ∉ rounds ++ [.pass stop] := by
        simpa using quiet draw
      by_cases reached : instant ≤ Time.wake t'.slumber.deadline
      · refine ⟨rounds ++ [.pass stop],walked,still,?_,?_⟩
        · rw [step]
          exact held' ▸ rfl
        · rw [step]
          exact Nat.min_eq_left reached
      · have moment : stop = Time.wake t'.slumber.deadline := Nat.min_eq_right (Nat.le_of_not_le reached)
        obtain ⟨more,lawful',quiet',alive,there⟩ := ih (instant-stop) (by omega)
          (v := {v.run rounds with now := stop}) held' (Nat.min_le_left _ _) rfl
        refine ⟨rounds ++ [.pass stop] ++ more,lawful_append walked (step ▸ lawful'),?_,?_,?_⟩
        · intro draw present
          rcases List.mem_append.mp present with before | after
          · exact still draw before
          · exact quiet' draw after
        · rw [run_append,step]
          exact alive
        · rw [run_append,step]
          exact there

-- A timer with one timeout, whatever resets it at whatever time: while its handle is held it fires at the first
-- whole millisecond that this timeout has passed by since the last of arming, resets and firings, and at no other
-- time. That is the very instant at which it has passed wherever that is a whole millisecond.
theorem fires_after_timeout (single : ∀ x, range.Holds x ↔ x = d) (positive : 0 < d) (start : Nat)
    (acts later : List Act) (lawful : Lawful range d acts (armed start d)) :
    let v := (armed start d).run acts
    (v.timer.isSome → ∀ t, v.Over t → (t ∈ v.fired ↔
      ∃ r, v.Latest t r ∧ IsLeast {instant | millisecond ∣ instant ∧ r+d ≤ instant} t)) ∧
    (v.timer.isSome → ∀ t r, v.Over t → v.Latest t r → millisecond ∣ r+d → (t ∈ v.fired ↔ t = r+d)) ∧
    (v.timer.isSome → ∀ t, v.now ≤ t → ∃ more, Lawful range d more v ∧ (∀ draw, .reset draw ∉ more) ∧
      (v.run more).timer.isSome ∧ (v.run more).now = t) ∧
    (∀ t ∈ v.fired, ∀ r ∈ v.stirred, r < t → r+d ≤ t) ∧
    v.fired.Pairwise (fun t t' => t+d ≤ t') ∧
    ((v.does .drop).run later).fired = v.fired := by
  intro v
  obtain ⟨r,regular⟩ := (Regular.armed start d).run positive (fun x => (single x).mp) lawful
  have rule (held : v.timer.isSome) (t : Nat) (elapsed : v.Over t) :
      t ∈ v.fired ↔ ∃ r, v.Latest t r ∧ t = Time.wake (r+d) := by
    obtain ⟨timer,held⟩ := Option.isSome_iff_exists.mp held
    exact regular.ruled held elapsed
  refine ⟨?_,?_,?_,?_,regular.apart,(run_dropped rfl later).2⟩
  · intro held t elapsed
    rw [rule held t elapsed]
    refine exists_congr fun r => and_congr_right fun _ => ?_
    exact ⟨fun same => same ▸ Time.wake_least _,fun least => least.unique (Time.wake_least _)⟩
  · intro held t r elapsed latest whole
    rw [rule held t elapsed]
    constructor
    · rintro ⟨s,latest',due⟩
      rwa [latest'.unique latest,Time.wake_whole whole] at due
    · intro due
      exact ⟨r,latest,due.trans (Time.wake_whole whole).symm⟩
  · intro held t onward
    obtain ⟨timer,held⟩ := Option.isSome_iff_exists.mp held
    exact goes_on positive ((single d).mpr rfl) held onward
  · intro t fired s stirred before
    have reached : t ≤ r := regular.latest.2 (regular.fired t fired)
    obtain ⟨last,latest,due⟩ := (regular.past t reached).mp fired
    calc s+d ≤ last+d := Nat.add_le_add_right (latest.2 ⟨stirred,before⟩) d
      _ ≤ Time.wake (last+d) := Time.le_wake _
      _ = t := due.symm

theorem not_due (present : s ∈ v.stirred) (early : v.now < s+d) : ¬ v.Due d := by
  rintro ⟨r,latest,due⟩
  have := latest.2 present
  omega

-- Reset while its task sleeps, and again while it rests after firing.
theorem put_off_twice :
    let ms (k : Nat) := k*millisecond
    let acts : List Act := [.pass (ms 5),.reset (ms 10),.pass (ms 10),.wake (ms 10),.pass (ms 15),.wake (ms 10),
      .pass (ms 18),.reset (ms 10),.pass (ms 25),.wake (ms 10),.pass (ms 28),.wake (ms 10),.pass (ms 30)]
    let v := (armed 0 (ms 10)).run acts
    v.stirred = [0,ms 5,ms 15,ms 18,ms 28] ∧ v.fired = [ms 15,ms 28] ∧ v.Latest (ms 28) (ms 18) ∧
      ¬ v.Latest (ms 25) (ms 15) := by
  intro ms acts v
  have single (x : Nat) : (⟨ms 10,ms 10⟩ : Range).Holds x ↔ x = ms 10 := by simp [Range.Holds]
  have lawful : Lawful ⟨ms 10,ms 10⟩ (ms 10) acts (armed 0 (ms 10)) := by
    refine ⟨True.intro,⟨rfl,not_due (s := 0) (by decide) (by decide)⟩,True.intro,rfl,True.intro,rfl,True.intro,
      ⟨rfl,not_due (s := ms 15) (by decide) (by decide)⟩,True.intro,rfl,True.intro,rfl,True.intro,True.intro⟩
  obtain ⟨rule,exact',_⟩ := fires_after_timeout single (by decide) 0 acts [] lawful
  have fired : v.fired = [ms 15,ms 28] := by decide
  refine ⟨by decide,fired,?_,?_⟩
  · have again : ms 28 ∈ v.fired := by simp [fired]
    obtain ⟨r,latest,least⟩ := (rule (by decide) (ms 28) (.inl (by decide))).mp again
    have whole : millisecond ∣ r := by
      have stirs := latest.1.1
      rw [show v.stirred = [0,ms 5,ms 15,ms 18,ms 28] by decide] at stirs
      simp only [List.mem_cons,List.not_mem_nil,or_false] at stirs
      rcases stirs with rfl | rfl | rfl | rfl | rfl <;> decide
    have due : ms 28 = r+ms 10 :=
      (exact' (by decide) (ms 28) r (.inl (by decide)) latest (Nat.dvd_add whole (by decide))).mp again
    have back : r = ms 18 := by simp only [ms,millisecond] at due ⊢; omega
    exact back ▸ latest
  · intro latest
    have early : ms 25 ∉ v.fired := by simp [fired,ms,millisecond]
    exact early ((exact' (by decide) (ms 25) (ms 15) (.inl (by decide)) latest (by decide)).mpr (by decide))

-- Between two whole milliseconds it is late: by half a one after a reset half a millisecond after its arming, and
-- as much where the one whole millisecond of its range is drawn with a fraction.
theorem late_by_fraction :
    let acts : List Act := [.pass 500000,.reset 10000000,.pass 10000000,.wake 10000000,.pass 10500000,.wake 10000000]
    let v := (armed 0 10000000).run acts
    let later := v.run [.pass 11000000,.wake 10000000]
    let drawn := (armed 0 10500000).run [.pass 10000000,.wake 0]
    (Lawful ⟨10000000,10000000⟩ 10000000 acts (armed 0 10000000) ∧ v.Latest 10500000 500000 ∧ v.now = 10500000 ∧
      v.fired = [] ∧ later.fired = [11000000] ∧ 1000000 ∉ later.stirred) ∧
    Range.Holds ⟨10000000,11000000⟩ 10500000 ∧ drawn.fired = [] ∧
      (drawn.run [.pass 11000000,.wake 0]).fired = [11000000] := by
  intro acts v later drawn
  have lawful : Lawful ⟨10000000,10000000⟩ 10000000 acts (armed 0 10000000) :=
    ⟨True.intro,⟨rfl,not_due (s := 0) (by decide) (by decide)⟩,True.intro,rfl,True.intro,rfl,True.intro⟩
  have stirred : v.stirred = [0,500000] := by decide
  have latest : v.Latest 10500000 500000 := by
    unfold Latest
    rw [stirred]
    refine ⟨by simp,?_⟩
    rintro s ⟨present,_⟩
    simp only [List.mem_cons,List.not_mem_nil,or_false] at present
    omega
  exact ⟨⟨lawful,latest,by decide,by decide,by decide,by decide⟩,by simp [Range.Holds],by decide,by decide⟩

end Vigil
end LeaderElection
