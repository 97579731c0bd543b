import LeaderElection.Proofs.Desk.Basic
import LeaderElection.Proofs.Node.Deadline

namespace LeaderElection

-- Of events only a timeout makes a node stand.
theorem Event.call_due {τ : Type} {e : Event τ} {n : Node} (calls : e.call? = some c) (seeks : n.Seeks now c) :
    n.standing.timeoutDue now = true := by
  cases c with
  | timeout => exact seeks
  | candidacy =>
      cases e with
      | alarm a => cases a <;> cases calls
      | _ => cases calls
  | _ => exact seeks.elim

namespace Desk

variable {τ : Type}

-- Time does not go back, and timeouts are drawn from the given range.
def Orderly (r : Range) (d : Desk τ) : Happening τ → Prop
  | .pass instant => d.now ≤ instant
  | .take draw => r.Holds draw
  | .wake draw => r.Holds draw
  | _ => True

-- Since `last` the node has been refreshed again and again, each time less than `least` after the time before.
inductive Sustained (least : Nat) : Nat → Desk τ → List (Happening τ) → Prop where
  | ended : Sustained least last d []
  | onward (soon : d.now < last+least) (rest : Sustained least last (d.does x) xs) : Sustained least last d (x :: xs)
  | again (soon : d.now < last+least) (refreshed : d.Sees Node.Refreshed x)
      (rest : Sustained least d.now (d.does x) xs) : Sustained least last d (x :: xs)

-- Nothing has made the node stand since `moment`, and nothing will for as long as it has drawn at least.
structure Rested (least moment : Nat) (d : Desk τ) : Prop where
  past : moment ≤ d.now
  spared : ∀ n, d.node? = some n → n.Spared (moment+least)

variable {r : Range} {least moment : Nat} {d : Desk τ} {x : Happening τ} {n : Node}

theorem opened_rested (holds : r.Holds first) (roster : Roster) (timings : Timings) :
    Rested r.start start (opened start first roster timings : Desk τ) := by
  refine ⟨Nat.le_refl _,?_⟩
  rintro n present deadline timer
  cases present
  cases timer
  exact Nat.add_le_add_left holds.least start

theorem does_now (orderly : d.Orderly r x) : d.now ≤ (d.does x).now := by
  cases x with
  | pass instant => exact orderly
  | _ => exact Nat.le_refl _

theorem Rested.does (orderly : d.Orderly r x) (rested : d.Rested r.start moment) :
    (d.does x).Rested r.start moment := by
  refine ⟨Nat.le_trans rested.past (does_now orderly),?_⟩
  intro m after
  obtain ⟨n,present,rfl | ⟨deed,befallen,rfl⟩⟩ := does_node after
  · exact rested.spared m present
  · have spared := rested.spared n present
    rcases deed_parts befallen with ⟨draw,_,c,rfl,_,_,rfl⟩ | ⟨draw,rfl,rfl⟩
    · exact spared.apply (Nat.add_le_add rested.past (Range.Holds.least orderly)) c
    · intro deadline timer
      exact spared deadline (Node.wake_deadline d.now draw n ▸ timer)

theorem Sees.stirs (refreshed : d.Sees Node.Refreshed x) : d.Sees Node.Stirred x := by
  obtain ⟨n,deed,present,befallen,refreshed⟩ := refreshed
  exact ⟨n,deed,present,befallen,.refreshed refreshed⟩

-- Nobody stands before its deadline.
theorem Rested.begins (rested : d.Rested least moment) (begins : d.Begins t x) : moment+least ≤ d.now := by
  obtain ⟨n,deed,present,befallen,begins⟩ := begins
  rcases deed_parts befallen with ⟨draw,e,c,rfl,_,calls,rfl⟩ | ⟨draw,rfl,rfl⟩
  · obtain ⟨deadline,timer,due⟩ := Node.timeoutDue_deadline.mp (Event.call_due calls begins.1)
    exact Nat.le_trans (rested.spared n present deadline timer) due
  · exact begins.elim

-- Whatever stirs the node leaves it waiting for the least timeout at least.
theorem Sees.rested (orderly : d.Orderly r x) (stirred : d.Sees Node.Stirred x) :
    (d.does x).Rested r.start d.now := by
  obtain ⟨n,deed,present,befallen,stirred⟩ := stirred
  refine ⟨does_now orderly,?_⟩
  intro m after
  cases Option.some.inj ((does_deed present befallen).symm.trans after)
  rcases deed_parts befallen with ⟨draw,e,c,rfl,_,calls,rfl⟩ | ⟨draw,rfl,rfl⟩
  · exact stirred.rearmed.spared (Nat.add_le_add_left (Range.Holds.least orderly) d.now)
  · exact absurd stirred Node.wake_calm

theorem Rested.run {xs : List (Happening τ)} (rested : d.Rested r.start moment) (orderly : Along (Orderly r) d xs) :
    (d.run xs).Rested r.start moment :=
  along_keeps (fun _ _ => Rested.does) orderly rested

-- A follower that is refreshed often enough stands nowhere in between.
theorem Sustained.calm {xs ys zs : List (Happening τ)} (sustained : Sustained r.start last d xs)
    (orderly : Along (Orderly r) d xs) (rested : d.Rested r.start last) (split : xs = ys ++ y :: zs) :
    ¬ (d.run ys).Begins t y := by
  induction sustained generalizing ys with
  | ended => simp at split
  | onward soon _ ih =>
      cases ys with
      | nil =>
          cases split
          intro begins
          exact Nat.not_le_of_lt soon (rested.begins begins)
      | cons x ys =>
          cases split
          exact ih orderly.2 (rested.does orderly.1) rfl
  | again soon refreshed _ ih =>
      cases ys with
      | nil =>
          cases split
          intro begins
          exact Nat.not_le_of_lt soon (rested.begins begins)
      | cons x ys =>
          cases split
          exact ih orderly.2 (refreshed.stirs.rested orderly.1) rfl

theorem timeout_stale {now draw : Nat} {n : Node} (waits : ∀ deadline, n.deadline? = some deadline → now < deadline)
    (rest : List (Event τ)) (held : Bool) :
    Mailbox.take now draw ⟨.running n,.alarm .electionTimeout :: rest,held⟩ =
      some ⟨⟨.running n,rest,held⟩,[],[],none,[.staleTimeout n.standing]⟩ := by
  have stale : n.standing.timeoutDue now = false := by
    rw [Bool.eq_false_iff]
    intro due
    obtain ⟨deadline,timer,passed⟩ := Node.timeoutDue_deadline.mp due
    exact Nat.not_le_of_lt (waits deadline timer) passed
  simp [Mailbox.take,Mailbox.handle,Mailbox.turn,Node.onTimeout_stale now draw stale,Step.only]

-- However late or often timeouts are handled, a node that has stirred does not stand again before it
-- has waited for the least timeout.
theorem quiet_before_candidacy (roster : Roster) (timings : Timings) (start first : Nat)
    (holds : timings.election.Holds first) (xs : List (Happening τ))
    (orderly : Along (Orderly timings.election) (opened start first roster timings) xs) :
    let d : Desk τ := opened start first roster timings
    let least := timings.election.start
    (∀ past x between y later t, xs = past ++ x :: (between ++ y :: later) →
      let early := d.run past
      let late := (early.does x).run between
      early.Sees Node.Stirred x → late.Begins t y → early.now+least ≤ late.now) ∧
    (∀ past y later t, xs = past ++ y :: later → (d.run past).Begins t y → start+least ≤ (d.run past).now) ∧
    (∀ past n rest held draw, (d.run past).mailbox = ⟨.running n,.alarm .electionTimeout :: rest,held⟩ →
      n.role = .leader ∨ (∃ deadline, n.deadline? = some deadline ∧ (d.run past).now < deadline) →
      (d.run past).mailbox.take (d.run past).now draw =
        some ⟨⟨.running n,rest,held⟩,[],[],none,[.staleTimeout n.standing]⟩) ∧
    (∀ past x between later, xs = past ++ x :: (between ++ later) →
      let early := d.run past
      early.Sees Node.Refreshed x → Sustained least early.now (early.does x) between →
      ∀ before y after t, between = before ++ y :: after → ¬ ((early.does x).run before).Begins t y) := by
  intro d least
  refine ⟨?_,?_,?_,?_⟩
  · intro past x between y later t split early late stirred begins
    rw [split] at orderly
    obtain ⟨_,now,after⟩ := along_append.mp orderly
    have rested := (stirred.rested now).run (along_append.mp after).1
    exact rested.begins begins
  · intro past y later t split begins
    rw [split] at orderly
    have rested : d.Rested least start := opened_rested holds roster timings
    exact (rested.run (along_append.mp orderly).1).begins begins
  · intro past n rest held draw waiting stale
    rw [waiting]
    refine timeout_stale ?_ rest held
    intro deadline timer
    rcases stale with leads | ⟨_,same,before⟩
    · obtain ⟨beat,office⟩ := Node.leader_exact.mp leads
      simp [Node.deadline?,office] at timer
    · cases timer.symm.trans same
      exact before
  · intro past x between later split early refreshed sustained before y after t within
    rw [split] at orderly
    obtain ⟨_,now,after⟩ := along_append.mp orderly
    have rested := refreshed.stirs.rested now
    exact sustained.calm (along_append.mp after).1 rested within

-- A timeout that waits behind a heartbeat comes to nothing, the next one is in time.
theorem candidacy_put_off :
    let d : Desk Unit := opened 0 5 ⟨⟨"b"⟩,⟨"b",100⟩,[⟨⟨"a"⟩,⟨"a",100⟩⟩,⟨⟨"c"⟩,⟨"c",100⟩⟩]⟩ ⟨1,⟨5,10⟩,1⟩
    let told := d.run [.pass 5,.post (.heartbeat () ⟨.one,⟨"a"⟩⟩),.post (.alarm .electionTimeout)]
    let waiting := (told.does (.take 6)).run [.take 5,.pass 11,.post (.alarm .electionTimeout)]
    told.Sees Node.Refreshed (.take 6) ∧ (∃ t, waiting.Begins t (.take 5)) ∧ told.now+5 ≤ waiting.now := by
  intro d told waiting
  have refreshed : told.Sees Node.Refreshed (.take 6) := ⟨_,_,rfl,rfl,.heard ⟨_,rfl,rfl⟩⟩
  have begins : waiting.Begins ⟨2,by decide⟩ (.take 5) := ⟨_,_,rfl,rfl,rfl,rfl⟩
  have orderly : d.Along (Orderly ⟨5,10⟩) [.pass 5,.post (.heartbeat () ⟨.one,⟨"a"⟩⟩),.post (.alarm .electionTimeout),
      .take 6,.take 5,.pass 11,.post (.alarm .electionTimeout),.take 5] := by
    simp only [Along,Orderly,Range.Holds]
    decide
  obtain ⟨quiet,_⟩ := quiet_before_candidacy _ ⟨1,⟨5,10⟩,1⟩ 0 5 (by simp [Range.Holds]) _ orderly
  exact ⟨refreshed,⟨_,begins⟩,quiet [_,_,_] _ [_,_,_] _ [] _ rfl refreshed.stirs begins⟩

end Desk
end LeaderElection
