import LeaderElection.Proofs.Monitor.Schedule

namespace LeaderElection.Lookout

def Order.Proper : Order → Prop
  | .start interval => millisecond ≤ interval
  | _ => True

-- A detector as it is once nobody who was told to stop is left.
structure Stands (w : Watch) (l : Lookout) : Prop where
  regular : w.Regular
  lookout : w.lookout = l
  nobody : w.leaving = []

def Sound (l : Lookout) : Prop := ∃ w, Stands w l

-- Whatever has come of a detector comes by a lawful run to what it is at last.
def Comes (l last : Lookout) : Prop := ∀ w, Stands w l → ∃ xs, Watch.Lawful xs w ∧ Stands (w.run xs) last

variable {l next last : Lookout} {w : Watch} {x : Watch.Incident} {o : Order} {t stop : Nat}

theorem Stands.one (stands : Stands w l) (allowed : w.Allows x) (lookout : (w.does x).lookout = last)
    (nobody : (w.does x).leaving = []) : ∃ xs, Watch.Lawful xs w ∧ Stands (w.run xs) last :=
  ⟨[x],⟨allowed,True.intro⟩,stands.regular.does allowed,lookout,nobody⟩

theorem Comes.refl (l : Lookout) : Comes l l := fun _ stands => ⟨[],True.intro,stands⟩

theorem Comes.trans (one : Comes l next) (two : Comes next last) : Comes l last := by
  intro w stands
  obtain ⟨before,lawful,stands⟩ := one w stands
  obtain ⟨after,lawful',stands⟩ := two _ stands
  exact ⟨before ++ after,(Watch.lawful_append before after w).mpr ⟨lawful,lawful'⟩,Watch.run_append before after w ▸ stands⟩

theorem Sound.comes (sound : Sound l) (comes : Comes l last) : Sound last := by
  obtain ⟨w,stands⟩ := sound
  obtain ⟨xs,_,stands⟩ := comes w stands
  exact ⟨w.run xs,stands⟩

theorem Sound.near (sound : Sound l) : l.now < Time.horizon := by
  obtain ⟨w,regular,rfl,_⟩ := sound
  exact regular.near

theorem does_poll_lookout (w : Watch) : (w.does .poll).lookout = w.lookout.does .poll := by
  rw [Watch.does,does]
  cases w.lookout.poll <;> rfl

theorem comes_poll (l : Lookout) : Comes l (l.does .poll) := by
  rintro w ⟨regular,rfl,nobody⟩
  refine Stands.one (x := .poll) ⟨regular,rfl,nobody⟩ True.intro (does_poll_lookout w) ?_
  rw [Watch.does]
  cases w.lookout.poll <;> exact nobody

-- After one poll nothing is due for a while.
theorem Sound.rests (sound : Sound l) : (l.does .poll).poll = none := by
  obtain ⟨w,regular,rfl,_⟩ := sound
  exact does_poll_lookout w ▸ regular.scheduled.single

theorem comes_clock (rests : l.poll = none) (onward : l.now ≤ t) (near : t < Time.horizon) :
    Comes l {l with now := t} := by
  rintro w ⟨regular,rfl,nobody⟩
  exact Stands.one (x := .clock t) ⟨regular,rfl,nobody⟩ ⟨⟨rests,nobody⟩,onward,near⟩ rfl nobody

theorem comes_use (l : Lookout) (use : Use) : Comes l (l.does (.use use)) := by
  rintro w ⟨regular,rfl,nobody⟩
  exact Stands.one (x := .use use) ⟨regular,rfl,nobody⟩ True.intro rfl nobody

theorem comes_register (l : Lookout) (c : Callback) : Comes l (l.does (.register c)) := by
  rintro w ⟨regular,rfl,nobody⟩
  exact Stands.one (x := .register c) ⟨regular,rfl,nobody⟩ True.intro rfl nobody

theorem comes_start (lasting : millisecond ≤ i) : Comes l (l.does (.start i)) := by
  rintro w ⟨regular,rfl,nobody⟩
  exact Stands.one (x := .start i) ⟨regular,rfl,nobody⟩ lasting rfl nobody

-- A loop that is told when it has nothing left to do leaves at once: its stop is all over then.
theorem comes_stop (rests : l.poll = none) : Comes l (l.does .stop) := by
  rintro w ⟨regular,rfl,nobody⟩
  cases watched : w.watching with
  | false =>
      have vain : w.lookout.does .stop = w.lookout := does_stop watched
      exact vain.symm ▸ Comes.refl w.lookout w ⟨regular,rfl,nobody⟩
  | true =>
      rw [regular.watching] at watched
      obtain ⟨p,present⟩ := Option.isSome_iff_exists.mp watched
      have loop : w.lookout.detector.monitor = some p.monitor := by
        rw [regular.place,present]
        rfl
      obtain ⟨walks,_⟩ := regular.patrol p present
      have begun : p.polls ≠ [] := by
        rcases walks.stands with ⟨_,_,due⟩ | ⟨u,last,_⟩
        · have waits : w.now < p.next := poll_none.mp rests p.monitor loop
          exact absurd due (Nat.ne_of_gt waits)
        · rintro none
          rw [none] at last
          cases last
      have told : (w.does .stop).leaving = [p.tell w.now] := by
        rw [Watch.does,nobody,present]
        rfl
      have left : w.run [.stop,.leave 0] = {w.does .stop with
          lookout := w.lookout.does .stop, leaving := [], left := w.left ++ [p.tell w.now]} := by
        change (w.does .stop).leave 0 = _
        have last : (w.does .stop).leaving[0]? = some (p.tell w.now) := by rw [told]; rfl
        rw [Watch.leave,last]
        have polls : (p.tell w.now).polls ≠ [] := begun
        simp only [if_neg polls,told]
        rw [Watch.does,does,logged,Detector.stop,loop]
        rfl
      refine ⟨[.stop,.leave 0],⟨True.intro,True.intro,True.intro⟩,?_⟩
      have kept := (regular.does (x := .stop) True.intro).leave 0
      refine ⟨kept,?_,?_⟩
      · rw [left]
      · rw [left]

theorem act_poll (l : Lookout) : Schedule.act l = l.poll := by
  change List.findSome? (fun _ => l.poll) [()] = l.poll
  cases l.poll <;> simp

theorem Sound.settle (sound : Sound l) : Schedule.settle l = l.does .poll := by
  have rests := sound.rests
  rcases l.does_poll with ⟨idle,still⟩ | ⟨m,_,_,polls,polled⟩
  · rw [still]
    change Schedule.settleWithin (9999+1) l = l
    rw [Schedule.settleWithin,act_poll,idle]
  · rw [polled] at rests ⊢
    change Schedule.settleWithin (9998+1+1) l = l.polled m
    rw [Schedule.settleWithin,act_poll,polls]
    change Schedule.settleWithin (9998+1) (l.polled m) = l.polled m
    rw [Schedule.settleWithin,act_poll,rests]

theorem Sound.settled (sound : Sound l) : Comes l (Schedule.settle l) ∧ (Schedule.settle l).poll = none := by
  rw [sound.settle]
  exact ⟨comes_poll l,sound.rests⟩

theorem poll_now (polled : l.poll = some next) : next.now = l.now := by
  rcases l.does_poll with ⟨rests,_⟩ | ⟨m,_,_,polls,_⟩
  · cases rests.symm.trans polled
  · cases Option.some.inj (polls.symm.trans polled)
    rfl

theorem moves_now (moves : Schedule.Moves l last) : last.now = l.now := by
  induction moves with
  | rest => rfl
  | move performed _ ih => exact ih.trans (poll_now performed)

theorem settle_now (l : Lookout) : (Schedule.settle l).now = l.now := moves_now (Schedule.settle_moves l)

theorem reach_now (t : Nat) (l : Lookout) : (Schedule.reach t l).now = Time.wake t+l.now%millisecond :=
  settle_now (Schedule.advance t l)

theorem Sound.reach (sound : Sound l) (rests : l.poll = none) (onward : l.now ≤ Time.wake t+l.now%millisecond)
    (near : Time.wake t+l.now%millisecond < Time.horizon) :
    Comes l (Schedule.reach t l) ∧ (Schedule.reach t l).poll = none := by
  have passes : Comes l (Schedule.advance t l) := comes_clock rests onward near
  obtain ⟨settles,rests⟩ := (sound.comes passes).settled
  exact ⟨passes.trans settles,rests⟩

theorem fraction (t n : Nat) : (Time.wake t+n%millisecond)%millisecond = n%millisecond := by
  unfold Time.wake millisecond
  omega

theorem runWithin_now (fuel : Nat) (l : Lookout) :
    (Schedule.runWithin stop fuel l).now = Time.wake stop+l.now%millisecond := by
  induction fuel generalizing l with
  | zero => exact reach_now stop l
  | succ fuel ih =>
      unfold Schedule.runWithin
      split
      · next deadline _ =>
          split
          · rw [ih,reach_now,fraction]
          · exact reach_now stop l
      · exact reach_now stop l

theorem Sound.runWithin (sound : Sound l) (rests : l.poll = none) (onward : l.now ≤ Time.wake stop+l.now%millisecond)
    (near : Time.wake stop+l.now%millisecond < Time.horizon) (fuel : Nat) :
    Comes l (Schedule.runWithin stop fuel l) ∧ (Schedule.runWithin stop fuel l).poll = none := by
  induction fuel generalizing l with
  | zero => exact sound.reach rests onward near
  | succ fuel ih =>
      unfold Schedule.runWithin
      split
      · next deadline _ =>
          split
          · next between =>
              change l.now < Time.wake deadline ∧ Time.wake deadline ≤ stop at between
              have within : Time.wake deadline ≤ Time.wake stop := Nat.le_trans between.2 (Time.le_wake stop)
              obtain ⟨comes,rests⟩ := sound.reach (t := deadline) rests (by omega) (by omega)
              have clock := reach_now deadline l
              obtain ⟨onwards,rests⟩ := ih (sound.comes comes) rests (by rw [clock,fraction]; omega)
                (by rw [clock,fraction]; exact near)
              exact ⟨comes.trans onwards,rests⟩
          · exact sound.reach rests onward near
      · exact sound.reach rests onward near

theorem Sound.run (sound : Sound l) (near : (Schedule.run ms l).now < Time.horizon) :
    Comes l (Schedule.run ms l) ∧ (Schedule.run ms l).poll = none := by
  unfold Schedule.run at near ⊢
  split
  · exact sound.settled
  · next elapses =>
      rw [if_neg elapses] at near
      obtain ⟨settles,rests⟩ := sound.settled
      rw [Schedule.runUntil] at near ⊢
      rw [runWithin_now] at near
      change Time.wake (min Time.horizon (Time.wake (l.now+_)))+_ < _ at near
      have clock := settle_now l
      have before := sound.near
      have later := Time.le_wake (min Time.horizon (Time.wake (l.now+Time.wait (ms*millisecond))))
      have later' := Time.le_wake (l.now+Time.wait (ms*millisecond))
      have onward : (Schedule.settle l).now ≤ Time.wake (min Time.horizon
          (Time.wake (l.now+Time.wait (ms*millisecond))))+(Schedule.settle l).now%millisecond := by omega
      obtain ⟨comes,rests⟩ := (sound.comes settles).runWithin rests onward near _
      exact ⟨settles.trans comes,rests⟩

-- What is ordered comes about by a lawful run, and leaves nothing undone.
theorem obey_comes (sound : Sound l) (rests : l.poll = none) (proper : o.Proper)
    (near : (l.obey o).now < Time.horizon) : Comes l (l.obey o) ∧ (l.obey o).poll = none := by
  have settled {next : Lookout} (comes : Comes l next) :
      Comes l (Schedule.settle next) ∧ (Schedule.settle next).poll = none := by
    obtain ⟨settles,rests⟩ := (sound.comes comes).settled
    exact ⟨comes.trans settles,rests⟩
  cases o with
  | mark peer => exact settled (comes_use l (.mark peer))
  | setPatience peer patience => exact settled (comes_use l (.setPatience peer patience))
  | register callback => exact settled (comes_register l callback)
  | start interval => exact settled (comes_start proper)
  | stop => exact settled (comes_stop rests)
  | clear => exact settled (comes_use l .clear)
  | run ms => exact sound.run near
  | jump ahead =>
      have clock : (l.obey (.jump ahead)).now = l.now+ahead := settle_now {l with now := l.now+ahead}
      exact settled (comes_clock rests (Nat.le_add_right _ _) (clock ▸ near))

theorem orders_comes (patience : Nat) (os : List Order) (proper : ∀ o ∈ os, o.Proper)
    (near : ∀ before, before <+: os → (before.foldl obey (create patience)).now < Time.horizon) :
    Comes (create patience) (os.foldl obey (create patience)) ∧ (os.foldl obey (create patience)).poll = none := by
  have fresh : Sound (create patience) := ⟨.opened patience,Watch.opened_regular patience,rfl,rfl⟩
  induction os using List.reverseRecOn with
  | nil => exact ⟨.refl _,rfl⟩
  | append_singleton before o ih =>
      have earlier := ih (fun o present => proper o (List.mem_append_left _ present)) fun first within =>
        near first (within.trans (List.prefix_append _ _))
      have last := near (before ++ [o]) (List.prefix_refl _)
      rw [List.foldl_concat] at last ⊢
      obtain ⟨comes,rests⟩ := earlier
      have proper := proper o (List.mem_append_right _ (List.mem_singleton_self _))
      obtain ⟨onwards,rests⟩ := obey_comes (fresh.comes comes) rests proper last
      exact ⟨comes.trans onwards,rests⟩

-- Whatever holds of a detector and its loops after a lawful run holds after any orders that keep the clock below the
-- last tick. A stop that is ordered is one that is all over: its loop has left.
theorem orders_come (patience : Nat) (os : List Order) (proper : ∀ o ∈ os, o.Proper)
    (near : ∀ before, before <+: os → (before.foldl obey (create patience)).now < Time.horizon) :
    ∃ xs, Watch.Lawful xs (.opened patience) ∧
      let w := (Watch.opened patience).run xs
      w.lookout = os.foldl obey (create patience) ∧ w.Rests := by
  obtain ⟨comes,rests⟩ := orders_comes patience os proper near
  obtain ⟨xs,lawful,stands⟩ := comes (.opened patience) ⟨Watch.opened_regular patience,rfl,rfl⟩
  exact ⟨xs,lawful,stands.lookout,by rw [stands.lookout]; exact rests,stands.nobody⟩

end LeaderElection.Lookout
