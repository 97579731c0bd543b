import LeaderElection.Proofs.Desk.Beats
import LeaderElection.Proofs.Timer

namespace LeaderElection

-- What a call may make of an election timer: it stays, it is put off, a new one is started, or it is dropped.
inductive ElectionTimer.Timed (now draw : Nat) : Option ElectionTimer → Option ElectionTimer → Prop where
  | kept : Timed now draw timer timer
  | reset (t : ElectionTimer) : Timed now draw (some t) (some (t.reset now draw))
  | started : Timed now draw timer (some (.start now draw))
  | dropped : Timed now draw timer none

namespace ElectionTimer

variable {now draw : Nat} {first second third : Option ElectionTimer}

-- One call takes one draw, so that putting a timer off twice puts it off once.
theorem Timed.trans (early : Timed now draw first second) (late : Timed now draw second third) : Timed now draw first third := by
  cases late with
  | kept => exact early
  | reset t =>
      cases early with
      | kept => exact .reset t
      | reset t => exact .reset t
      | started => exact .started
  | started => exact .started
  | dropped => exact .dropped

end ElectionTimer

namespace Node

open ElectionTimer (Timed)

-- The election timer that a node has unless it leads.
def timer? (n : Node) : Option ElectionTimer := match n.standing.office with
  | .leader _ => none
  | .candidate _ timer => some timer
  | .follower _ timer => some timer

variable {now draw : Nat} {n next : Node} {c : Call}

theorem met_timed (now draw : Nat) (t : Term) (n : Node) : Timed now draw n.timer? (n.met now draw t).timer? := by
  by_cases later : n.term < t
  · rw [met_later now draw later]
    exact .started
  · rw [met_current now draw later]
    exact .kept

theorem defer_timed (now draw : Nat) (n : Node) : Timed now draw n.timer? (n.defer now draw).timer? := by
  unfold timer?
  rw [defer_standing,Standing.defer]
  cases office : n.standing.office with
  | leader beat =>
      rw [office]
      exact .kept
  | candidate votes timer =>
      rw [office]
      exact .kept
  | follower leader timer => exact .reset timer

theorem accept_timed (accepted : n.accept now draw l = some next) : Timed now draw n.timer? next.timer? := by
  unfold accept at accepted
  cases office : n.standing.office with
  | leader beat =>
      rw [office] at accepted
      cases accepted
  | candidate votes timer =>
      rw [office] at accepted
      cases accepted
      exact .started
  | follower leader timer =>
      rw [office] at accepted
      dsimp only at accepted
      split at accepted
      · cases accepted
        exact .kept
      · cases accepted
        have same : n.timer? = some timer := by rw [timer?,office]
        rw [same]
        exact .kept

theorem Change.timed (change : Change now draw n c next) : Timed now draw n.timer? next.timer? := by
  cases change with
  | kept => exact .kept
  | stepped => exact met_timed now draw _ n
  | voted => exact (met_timed now draw _ n).trans (defer_timed now draw _)
  | followed _ _ accepted => exact ((met_timed now draw _ n).trans (accept_timed accepted)).trans (defer_timed now draw _)
  | stood => exact .started
  | sole => exact .dropped
  | counted running =>
      unfold timer?
      rw [running]
      exact .kept
  | elected => exact .dropped

theorem timer_rings {t : ElectionTimer} (timed : n.timer? = some t) : n.rings = Time.wake t.slumber.deadline := by
  unfold timer? at timed
  unfold rings
  cases office : n.standing.office with
  | leader beat =>
      rw [office] at timed
      cases timed
  | candidate votes timer =>
      rw [office] at timed
      cases timed
      rfl
  | follower leader timer =>
      rw [office] at timed
      cases timed
      rfl

theorem timer_none : n.timer? = none ↔ n.role = .leader := by
  unfold timer? role Standing.role
  cases n.standing.office <;> simp

-- A round of the timer's task is one of the election timer's, if there is one.
theorem wake_timed {t : ElectionTimer} (timed : n.timer? = some t) (woken : n.wake now draw = some (next,alarm)) :
    ∃ after fires, t.wake now draw = some (after,fires) ∧ next.timer? = some after ∧
      alarm = if fires then some .electionTimeout else none := by
  unfold timer? at timed
  unfold wake at woken
  cases office : n.standing.office with
  | leader beat =>
      rw [office] at timed
      cases timed
  | candidate votes timer =>
      rw [office] at timed woken
      cases timed
      obtain ⟨⟨after,fires⟩,rung,same⟩ := Option.map_eq_some_iff.mp woken
      cases same
      exact ⟨after,fires,rung,rfl,rfl⟩
  | follower leader timer =>
      rw [office] at timed woken
      cases timed
      obtain ⟨⟨after,fires⟩,rung,same⟩ := Option.map_eq_some_iff.mp woken
      cases same
      exact ⟨after,fires,rung,rfl,rfl⟩

end Node

namespace Desk

variable {τ : Type} {d : Desk τ} {x : Happening τ} {v : Vigil}

def timer? (d : Desk τ) : Option ElectionTimer := d.node?.bind Node.timer?

-- When the timer's task says that it is time for an election.
def fires : Happening τ → Desk τ → List Nat
  | .wake draw,d => if (d.mailbox.wake d.now draw).map Prod.snd = some (some .electionTimeout) then [d.now] else []
  | _,_ => []

def fired : List (Happening τ) → Desk τ → List Nat
  | [],_ => []
  | x :: rest,d => d.fires x ++ fired rest (d.does x)

-- A vigil over the timer of a node at its desk.
structure Keeps (v : Vigil) (d : Desk τ) : Prop where
  now : v.now = d.now
  timer : v.timer = d.timer?

variable {xs : List (Happening τ)}

theorem timer_parts (timed : d.timer? = some t) :
    ∃ n now events held, d = ⟨now,.running n,events,held⟩ ∧ n.timer? = some t := by
  obtain ⟨n,present,own⟩ := Option.bind_eq_some_iff.mp timed
  obtain ⟨now,events,held,same⟩ := node_parts present
  exact ⟨n,now,events,held,same,own⟩

-- Time goes on as long as the task sleeps.
theorem Keeps.pass {now : Nat} {n : Node} {events : List (Event τ)} {held : Bool}
    (keeps : Keeps v ⟨now,.running n,events,held⟩) (timed : n.timer? = some t)
    (punctual : Punctual ⟨now,.running n,events,held⟩ (.pass instant)) :
    Keeps (v.does (.pass instant)) ⟨instant,.running n,events,held⟩ ∧ (v.does (.pass instant)).fired = v.fired := by
  obtain ⟨onward,still⟩ := punctual
  have present : v.timer = some t := keeps.timer.trans timed
  rcases Nat.eq_or_lt_of_le onward with same | later
  · have still : v.now = instant := keeps.now.trans same
    have unmoved : v.does (.pass instant) = v := by
      rw [Vigil.does,← still]
      exact ite_self v
    rw [unmoved]
    exact ⟨⟨still,keeps.timer⟩,rfl⟩
  · have asleep : instant ≤ Time.wake t.slumber.deadline := by
      by_contra past
      have early : now < Time.wake t.slumber.deadline :=
        Node.timer_rings timed ▸ (still_running.mp (still now (Nat.le_refl _) later)).2.2
      have last := (still_running.mp (still _ (Nat.le_of_lt early) (Nat.not_le.mp past))).2.2
      rw [Node.timer_rings timed] at last
      exact Nat.lt_irrefl _ last
    have passed : v.does (.pass instant) = {v with now := instant} := by
      refine if_pos ⟨keeps.now ▸ onward,?_⟩
      rw [Vigil.asleep,present]
      exact decide_eq_true asleep
    rw [passed]
    exact ⟨⟨rfl,keeps.timer⟩,rfl⟩

theorem Keeps.reset {now : Nat} {n after : Node} {events rest : List (Event τ)} {held : Bool}
    (keeps : Keeps v ⟨now,.running n,events,held⟩) (timed : n.timer? = some t) (put : after.timer? = some (t.reset now draw)) :
    Keeps (v.does (.reset draw)) ⟨now,.running after,rest,held⟩ ∧ (v.does (.reset draw)).fired = v.fired := by
  have present : v.timer = some t := keeps.timer.trans timed
  have same : v.now = now := keeps.now
  have goes : v.does (.reset draw) = {v with timer := some (t.reset v.now draw), stirred := v.stirred ++ [v.now]} := by
    rw [Vigil.does,present]
    rfl
  rw [goes,same]
  exact ⟨⟨rfl,put.symm⟩,rfl⟩

theorem Keeps.wake {now : Nat} {n after : Node} {events later : List (Event τ)} {held : Bool}
    (keeps : Keeps v ⟨now,.running n,events,held⟩) (timed : n.timer? = some t) (woken : n.wake now draw = some (after,alarm)) :
    Keeps (v.does (.wake draw)) ⟨now,.running after,later,held⟩ ∧
      (v.does (.wake draw)).fired = v.fired ++ fires (.wake draw) ⟨now,.running n,events,held⟩ := by
  obtain ⟨timer,expired,rung,set,rings⟩ := Node.wake_timed timed woken
  have present : v.timer = some t := keeps.timer.trans timed
  have same : v.now = now := keeps.now
  have rung : v.timer.bind (fun t => t.wake v.now draw) = some (timer,expired) := by
    rw [present,same,Option.bind_some]
    exact rung
  have heard : fires (.wake draw) ⟨now,.running n,events,held⟩ = if expired then [now] else [] := by
    rw [fires,Mailbox.wake_running,woken,rings]
    cases expired <;> rfl
  rw [Vigil.does,rung,heard,← same]
  cases expired with
  | false => exact ⟨⟨rfl,set.symm⟩,(List.append_nil _).symm⟩
  | true => exact ⟨⟨rfl,set.symm⟩,rfl⟩

-- What happens at a desk while its node has an election timer: the vigil goes on, with the firings there are, or it
-- begins anew with another timer, or the timer is gone.
theorem Keeps.does (keeps : Keeps v d) (timed : d.timer? = some t) (punctual : d.Punctual x) :
    (∃ acts, Keeps (v.run acts) (d.does x) ∧ (v.run acts).fired = v.fired ++ d.fires x) ∨
      (∃ draw, Keeps (.armed (d.does x).now draw) (d.does x)) ∨ (d.does x).timer? = none := by
  obtain ⟨n,now,events,held,rfl,own⟩ := timer_parts timed
  have went := goes now n events held x
  generalize does x ⟨now,.running n,events,held⟩ = last, sends x _ = sent at went ⊢
  have stays {events' : List (Event τ)} {held' : Bool} : Keeps v ⟨now,.running n,events',held'⟩ := ⟨keeps.now,keeps.timer⟩
  cases went with
  | @passed instant =>
      obtain ⟨kept,fired⟩ := keeps.pass own punctual
      exact .inl ⟨[.pass instant],kept,fired.trans (List.append_nil _).symm⟩
  | @called e rest c draw first calls =>
      have change := (Node.apply_change now draw n c).timed
      rw [own] at change
      generalize after : (n.apply now draw c).node.timer? = timer at change
      cases change with
      | kept => exact .inl ⟨[],⟨keeps.now,keeps.timer.trans (own.trans after.symm)⟩,(List.append_nil _).symm⟩
      | reset =>
          obtain ⟨kept,fired⟩ := keeps.reset own after
          exact .inl ⟨[.reset draw],kept,fired.trans (List.append_nil _).symm⟩
      | started => exact .inr (.inl ⟨draw,rfl,after.symm⟩)
      | dropped => exact .inr (.inr after)
  | ended gone => exact .inr (.inr (by rw [timer?,gone]; rfl))
  | @slept draw asleep =>
      have silent : fires (.wake draw) ⟨now,.running n,events,held⟩ = [] := by
        rw [fires,Mailbox.wake_running,asleep]
        rfl
      exact .inl ⟨[],stays,silent ▸ (List.append_nil _).symm⟩
  | @woke draw after alarm woken => exact .inl ⟨[.wake draw],keeps.wake own woken⟩
  | _ => exact .inl ⟨[],stays,(List.append_nil _).symm⟩

-- A timer that was not there before has just been started.
theorem does_started (timeless : d.timer? = none) (timed : (d.does x).timer? = some t) :
    ∃ draw, Keeps (.armed (d.does x).now draw) (d.does x) := by
  obtain ⟨m,after,own⟩ := Option.bind_eq_some_iff.mp timed
  obtain ⟨n,present,same | ⟨deed,befallen,same⟩⟩ := does_node after
  · subst same
    cases timeless.symm.trans (show d.timer? = some t by rw [timer?,present]; exact own)
  · have leads : n.timer? = none := by rw [← timeless,timer?,present]; rfl
    rcases deed_parts befallen with ⟨draw,e,c,rfl,_,_,rfl⟩ | ⟨draw,rfl,rfl⟩
    · have started : (n.apply d.now draw c).node.timer? = some t := (congrArg Node.timer? same).symm.trans own
      have change := (Node.apply_change d.now draw n c).timed
      rw [leads,started] at change
      cases change
      exact ⟨draw,rfl,timed.symm⟩
    · obtain ⟨_,_,_,role,_⟩ := Node.does_wake d.now draw n
      have still : m.timer? = none := Node.timer_none.mpr (same ▸ role.trans (Node.timer_none.mp leads))
      cases still.symm.trans own

theorem fired_append (before after : List (Happening τ)) (d : Desk τ) :
    d.fired (before ++ after) = d.fired before ++ (d.run before).fired after := by
  induction before generalizing d with
  | nil => rfl
  | cons x rest ih => simp only [List.cons_append,fired,run,ih,List.append_assoc]

-- Wherever a punctual run has come to, the election timer there is has been watched since it was started: it has
-- been put off, and has fired, as in a vigil.
theorem desk_keeps_vigil (start first : Nat) (roster : Roster) (timings : Timings)
    (punctual : Along Punctual (opened start first roster timings) xs)
    (timed : ((opened start first roster timings).run xs).timer? = some t) : ∃ past since draw acts, xs = past ++ since ∧
      let begun := (opened start first roster timings).run past
      let v := (Vigil.armed begun.now draw).run acts
      Keeps v (begun.run since) ∧ v.fired = begun.fired since := by
  let d : Desk τ := opened start first roster timings
  have anew {xs : List (Happening τ)} (started : ∃ draw, Keeps (.armed (d.run xs).now draw) (d.run xs)) :
      ∃ past since draw acts, xs = past ++ since ∧ Keeps ((Vigil.armed (d.run past).now draw).run acts) ((d.run past).run since) ∧
        ((Vigil.armed (d.run past).now draw).run acts).fired = (d.run past).fired since := by
    obtain ⟨draw,keeps⟩ := started
    exact ⟨xs,[],draw,[],(List.append_nil xs).symm,keeps,rfl⟩
  induction xs using List.reverseRecOn generalizing t with
  | nil => exact anew ⟨first,rfl,rfl⟩
  | append_singleton ys y ih =>
      obtain ⟨before,last⟩ := along_append.mp punctual
      rw [run_append] at timed
      cases early : (d.run ys).timer? with
      | none =>
          refine anew ?_
          rw [run_append]
          exact does_started early timed
      | some t' =>
          obtain ⟨past,since,draw,acts,rfl,keeps,fired⟩ := ih before early
          rw [run_append] at early last timed
          rcases keeps.does early last.1 with ⟨more,after,fires⟩ | started | gone
          · refine ⟨past,since ++ [y],draw,acts ++ more,List.append_assoc .., ?_,?_⟩
            · rw [run_append,Vigil.run_append]
              exact after
            · rw [Vigil.run_append,fires,fired_append,fired]
              exact congrArg _ (List.append_nil _).symm
          · refine anew ?_
            rw [run_append,run_append]
            exact started
          · cases gone.symm.trans timed

end Desk
end LeaderElection
