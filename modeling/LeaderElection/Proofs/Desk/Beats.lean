import LeaderElection.Proofs.Basic
import LeaderElection.Proofs.Desk.Basic
import LeaderElection.Proofs.Node.Pace

namespace LeaderElection

-- One request for each peer, all at one instant.
def Roster.circular (request : Request) (instant : Nat) (r : Roster) : List (Nat × Dispatch) :=
  r.peers.map fun peer => (instant,⟨peer,request⟩)

namespace Desk

variable {τ : Type}

-- What is sent in a run, as far as it is wanted.
def sentFor (wanted : Request → Bool) (xs : List (Happening τ)) (d : Desk τ) : List (Nat × Dispatch) :=
  (d.sent xs).filter fun s => wanted s.2.request

variable {d : Desk τ} {x y : Happening τ} {xs : List (Happening τ)} {n : Node} {t : Term} {wanted : Request → Bool}

theorem broadcast_circular (request : Request) (instant : Nat) (n : Node) :
    (n.broadcast request).map (instant,·) = n.roster.circular request instant := by
  simp [Node.broadcast,Roster.circular]

theorem sentFor_none (unwanted : ∀ past x later s, xs = past ++ x :: later → s ∈ (d.run past).sends x →
    wanted s.request = false) : d.sentFor wanted xs = [] := by
  refine List.filter_eq_nil_iff.mpr ?_
  intro s sent
  obtain ⟨past,x,later,split,_,handed⟩ := sent_parts sent
  simp [unwanted past x later s.2 split handed]

theorem sentFor_split (past : List (Happening τ)) (x : Happening τ) (later : List (Happening τ)) :
    d.sentFor wanted (past ++ x :: later) = d.sentFor wanted past ++
      (((d.run past).sends x).map ((d.run past).now,·)).filter (fun s => wanted s.2.request) ++
      ((d.run past).does x).sentFor wanted later := by
  simp [sentFor,sent_append,sent,List.append_assoc]

-- A candidacy raises the term to its own, so it comes but once.
theorem begins_apart (begins : d.Begins t x) (between : List (Happening τ)) :
    ¬ ((d.does x).run between).Begins t y := by
  rintro ⟨m,_,present',_,again⟩
  obtain ⟨n,deed,present,befallen,begins⟩ := begins
  obtain ⟨n',deeds,after,rfl⟩ := run_node present'
  cases Option.some.inj ((does_deed present befallen).symm.trans after)
  have onward := ((n.does deed).run_onward deeds).term_le
  have reached : (n.does deed).ballot.term = t := begins.reaches
  rw [reached] at onward
  exact Nat.not_le_of_lt again.earlier onward

theorem Begins.sends (begins : d.Begins t x) (present : d.node? = some n) :
    d.sends x = n.broadcast (.vote ⟨t,n.me⟩) := by
  obtain ⟨m,deed,present',befallen,begins⟩ := begins
  cases Option.some.inj (present.symm.trans present')
  cases deed with
  | call now draw c =>
      rw [sends_deed present befallen]
      exact begins.sends
  | wake now draw => exact begins.elim

theorem sends_asks {s : Dispatch} (sent : s ∈ d.sends x) (asks : s.request.asks t = true) : d.Begins t x := by
  obtain ⟨n,draw,e,c,present,rfl,_,_,befallen,sent⟩ := sends_parts sent
  exact ⟨n,_,present,befallen,Node.apply_asks sent asks⟩

theorem unwanted_none {handed : List Dispatch} (instant : Nat) (unwanted : ∀ s ∈ handed, wanted s.request = false) :
    (handed.map (instant,·)).filter (fun s => wanted s.2.request) = [] := by
  refine List.filter_eq_nil_iff.mpr ?_
  intro s sent
  obtain ⟨dispatch,present,rfl⟩ := List.mem_map.mp sent
  simp [unwanted dispatch present]

-- A broadcast is wanted as a whole or not at all.
theorem broadcast_wanted (request : Request) (instant : Nat) (n : Node) (wants : wanted request = true) :
    ((n.broadcast request).map (instant,·)).filter (fun s => wanted s.2.request) =
      n.roster.circular request instant := by
  rw [broadcast_circular,List.filter_eq_self]
  intro s sent
  obtain ⟨peer,_,rfl⟩ := List.mem_map.mp sent
  exact wants

-- Each peer is asked for its vote in a term once, at the moment the candidacy for it begins.
theorem votes_asked_once (past : List (Happening τ)) (later : List (Happening τ)) (begins : (d.run past).Begins t x)
    (present : (d.run past).node? = some n) : d.sentFor (Request.asks t) (past ++ x :: later) =
      n.roster.circular (.vote ⟨t,n.me⟩) (d.run past).now := by
  have before : d.sentFor (Request.asks t) past = [] := by
    refine sentFor_none ?_
    intro early y between s split handed
    rw [Bool.eq_false_iff]
    intro asks
    refine begins_apart (sends_asks handed asks) between ?_ (y := x) (t := t)
    rw [split,run_append] at begins
    exact begins
  have after : ((d.run past).does x).sentFor (Request.asks t) later = [] := by
    refine sentFor_none ?_
    intro between y late s _ handed
    rw [Bool.eq_false_iff]
    intro asks
    exact begins_apart begins between (sends_asks handed asks)
  rw [sentFor_split,before,after,begins.sends present,broadcast_wanted _ _ _ (by simp [Request.asks])]
  simp

theorem votes_unasked (idle : ∀ past x later, xs = past ++ x :: later → ¬ (d.run past).Begins t x) :
    d.sentFor (Request.asks t) xs = [] := by
  refine sentFor_none ?_
  intro past x later s split handed
  rw [Bool.eq_false_iff]
  intro asks
  exact idle past x later split (sends_asks handed asks)

end Desk

def Event.ticks {τ : Type} (t : Term) : Event τ → Bool
  | .alarm (.heartbeatTick t') => decide (t' = t)
  | _ => false

-- The heartbeats of so many rounds, the first one at `start`, each when it is due.
def Roster.beats (t : Term) (start interval rounds : Nat) (r : Roster) : List (Nat × Dispatch) :=
  (List.range rounds).flatMap fun k => r.circular (.heartbeat ⟨t,r.me⟩) (Time.beat start interval k)

namespace Desk

variable {τ : Type}

-- Nothing can be done at an instant: no event waits, and the timer's task is asleep.
def Still (now : Nat) (m : Mailbox τ) : Prop := ∀ draw, m.take now draw = none ∧ m.wake now draw = none

-- The clock goes on once nothing is left to do. The timer's task is the only one to say that it is time for a
-- heartbeat.
def Punctual (d : Desk τ) : Happening τ → Prop
  | .pass instant => d.now ≤ instant ∧ ∀ s, d.now ≤ s → s < instant → Still s d.mailbox
  | .post e => ∀ t, e.ticks t = false
  | _ => True

def Leads (t : Term) (d : Desk τ) : Prop := ∃ n, d.node? = some n ∧ n.Leads t

-- What holds of a desk throughout a punctual run. A tick that waits is one of the present leadership or
-- of an earlier one.
structure Regular (timings : Timings) (d : Desk τ) : Prop where
  paced : ∀ n, d.node? = some n → n.Paced ∧ n.timings = timings
  waiting : ∀ n t, d.node? = some n → 0 < d.mailbox.events.countP (Event.ticks t) → t < n.term ∨ n.Leads t

-- How a leadership that began at `start` stands after a number of rounds: the next one is ahead, or its
-- tick waits to be handled, unless nobody holds the node any more. Or it is over.
inductive Tenure (t : Term) (start interval rounds : Nat) : Desk τ → Prop where
  | ahead (term : n.term = t) (office : n.standing.office = .leader ⟨t,interval,Time.beat start interval rounds⟩)
      (soon : instant ≤ Time.beat start interval rounds) (none : events.countP (Event.ticks t) = 0) :
      Tenure t start interval rounds ⟨instant,.running n,events,held⟩
  | ticked (term : n.term = t) (office : n.standing.office = .leader ⟨t,interval,Time.beat start interval (rounds+1)⟩)
      (due : instant = Time.beat start interval rounds)
      (one : events.countP (Event.ticks t) = 1 ∨ (events.countP (Event.ticks t) = 0 ∧ held = false)) :
      Tenure t start interval rounds ⟨instant,.running n,events,held⟩
  | lost (past : ∀ n, d.node? = some n → t < n.term) : Tenure t start interval rounds d

variable {d : Desk τ} {x y : Happening τ} {n m : Node} {t : Term} {timings : Timings} {start interval rounds : Nat}

theorem still_running {now : Nat} {events : List (Event τ)} {held : Bool} :
    Still now ⟨.running n,events,held⟩ ↔ events = [] ∧ held = true ∧ now < n.rings := by
  have wakes : ∀ draw, Mailbox.wake now draw ⟨.running n,events,held⟩ = none ↔ now < n.rings := by
    intro draw
    rw [Mailbox.wake_running,Option.map_eq_none_iff]
    exact Node.wake_none
  constructor
  · intro still
    have asleep := (wakes 0).mp (still 0).2
    have idle := (still 0).1
    cases events with
    | cons e rest => cases idle
    | nil =>
        cases held with
        | true => exact ⟨rfl,rfl,asleep⟩
        | false => cases idle
  · rintro ⟨rfl,rfl,asleep⟩ draw
    exact ⟨rfl,(wakes draw).mpr asleep⟩

theorem still_before {instant s : Nat} (empty : d.mailbox.events.isEmpty = true) (held : d.mailbox.held = true)
    (rings : d.node?.map Node.rings = some instant) (before : s < instant) : Still s d.mailbox := by
  obtain ⟨n,present,rfl⟩ := Option.map_eq_some_iff.mp rings
  obtain ⟨now,events,held',rfl⟩ := node_parts present
  exact still_running.mpr ⟨List.isEmpty_iff.mp empty,held,before⟩

theorem leads_exact : d.Leads t ↔ d.node?.map (fun n => (n.term,n.role)) = some (t,.leader) := by
  simp [Leads,Node.Leads,Node.status,Option.map_eq_some_iff]

instance : Decidable (d.Leads t) := decidable_of_iff _ leads_exact.symm

theorem ticks_exact {e : Event τ} : e.ticks t = true ↔ e = .alarm (.heartbeatTick t) := by
  unfold Event.ticks
  split
  · simp
  · next other => simp; exact fun same => other t same

theorem ticks_first {e : Event τ} {rest : List (Event τ)} (none : (e :: rest).countP (Event.ticks t) = 0) :
    e.ticks t = false ∧ rest.countP (Event.ticks t) = 0 := by
  rw [List.countP_cons] at none
  cases ticks : e.ticks t with
  | true => simp [ticks] at none
  | false => simpa [ticks] using none

-- The timer's task adds nothing to the ticks that wait but one of the present leadership.
theorem woken_ticks {now draw : Nat} {events : List (Event τ)} {held : Bool} (paced : n.Paced)
    (woken : n.wake now draw = some (m,alarm))
    (ticking : 0 < (if held then events ++ alarm.toList.map .alarm else events).countP (Event.ticks t)) :
    0 < events.countP (Event.ticks t) ∨ n.Leads t := by
  cases held with
  | false => exact .inl ticking
  | true =>
      rcases Node.woken_parts woken with ⟨beat,office,_,rfl,_⟩ | ⟨_,other⟩
      · obtain ⟨same,_⟩ := paced beat office
        by_cases current : n.term = t
        · exact .inr (current ▸ Node.office_leads office)
        · exact .inl (by simpa [Event.ticks,same,current] using ticking)
      · refine .inl ?_
        have silent : (alarm.toList.map Event.alarm : List (Event τ)).countP (Event.ticks t) = 0 := by
          cases alarm with
          | none => rfl
          | some a =>
              have other := other t
              simp only [ne_eq,Option.some.injEq] at other
              cases a with
              | electionTimeout => rfl
              | heartbeatTick t' => simpa [Event.ticks] using other
        simpa [List.countP_append,silent] using ticking

theorem opened_regular (start first : Nat) (roster : Roster) (timings : Timings) :
    Regular timings (opened start first roster timings : Desk τ) := by
  refine ⟨?_,?_⟩
  · rintro n present
    cases present
    exact ⟨Node.created_paced start first roster timings,rfl⟩
  · intro n t _ waiting
    cases waiting

theorem Regular.does (regular : Regular timings d) (punctual : d.Punctual x) : Regular timings (d.does x) := by
  refine ⟨?_,?_⟩
  · intro m after
    obtain ⟨n,present,rfl | ⟨deed,_,rfl⟩⟩ := does_node after
    · exact regular.paced m present
    · obtain ⟨paced,same⟩ := regular.paced n present
      exact ⟨paced.does deed,(n.does_timings deed).trans same⟩
  · intro m t after ticking
    cases present : d.node? with
    | none => simp [(does_stopped present x).1] at after
    | some n =>
        have waiting := regular.waiting n t present
        have paced := (regular.paced n present).1
        obtain ⟨now,events,held,rfl⟩ := node_parts present
        have went := goes now n events held x
        generalize does x ⟨now,.running n,events,held⟩ = last, sends x _ = sent at went after ticking
        cases went with
        | @posted e _ =>
            cases after
            refine waiting ?_
            have other := punctual t
            simpa [List.countP_append,other] using ticking
        | @called e rest c draw first calls =>
            cases after
            have onward := (n.does_onward (.call now draw c)).term_le
            rcases waiting (Nat.lt_of_lt_of_le ticking (by simp [first,List.countP_cons])) with earlier | leads
            · exact .inl (Nat.lt_of_lt_of_le earlier onward)
            · obtain ⟨beat,office⟩ := leads.office
              obtain ⟨rfl,_⟩ := leads
              rcases (Node.apply_change now draw n c).office office with ⟨kept,same⟩ | later
              · exact .inr ⟨same,Node.leader_exact.mpr ⟨beat,kept⟩⟩
              · exact .inl later
        | skipped first _ =>
            cases after
            exact waiting (Nat.lt_of_lt_of_le ticking (by simp [first,List.countP_cons]))
        | ended gone => simp [gone] at after
        | woke woken =>
            cases after
            obtain ⟨same,leading⟩ := Node.wake_leads woken t
            rw [same,leading]
            rcases woken_ticks paced woken ticking with old | leads
            · exact waiting old
            · exact .inr leads
        | _ => cases after; exact waiting ticking

-- A leadership begins with a round that is due at once.
theorem Regular.tenure (regular : Regular timings d) (anew : ¬ d.Leads t) (leads : (d.does x).Leads t) :
    Tenure t d.now timings.heartbeat 0 (d.does x) := by
  obtain ⟨m,after,leads⟩ := leads
  cases present : d.node? with
  | none => simp [(does_stopped present x).1] at after
  | some n =>
      have waiting := regular.waiting n t present
      obtain ⟨_,same⟩ := regular.paced n present
      have idle : ¬ n.Leads t := fun led => anew ⟨n,present,led⟩
      obtain ⟨now,events,held,rfl⟩ := node_parts present
      have went := goes now n events held x
      generalize Desk.does x ⟨now,.running n,events,held⟩ = last, Desk.sends x _ = sent at went after ⊢
      cases went with
      | @called e rest c draw first calls =>
          cases after
          have office := (Node.apply_change now draw n c).leads leads idle
          have onward := (n.does_onward (.call now draw c)).term_le
          refine .ahead leads.1 ?_ (Nat.le_refl _) ?_
          · rw [office,same]
            rfl
          · refine Nat.eq_zero_of_not_pos ?_
            intro ticking
            rcases waiting (Nat.lt_of_lt_of_le ticking (by simp [first,List.countP_cons])) with earlier | led
            · obtain ⟨rfl,_⟩ := leads
              exact Nat.not_le_of_lt earlier onward
            · exact idle led
      | ended gone => simp [gone] at after
      | woke woken =>
          cases after
          exact absurd ((Node.wake_leads woken t).2.mp leads) idle
      | _ => cases after; exact absurd leads idle

theorem call_ticks {e : Event τ} (calls : e.call? = some (.tick t)) : e.ticks t = true := by
  cases e with
  | alarm a => cases a <;> cases calls; simp [Event.ticks]
  | _ => cases calls

theorem unticked {now draw : Nat} {e : Event τ} {c : Call} (calls : e.call? = some c) (other : e.ticks t = false) :
    ∀ s ∈ (n.apply now draw c).sends, s.request.beats t = false := by
  intro s sent
  rw [Bool.eq_false_iff]
  intro beats
  obtain ⟨rfl,_⟩ := Node.apply_beats sent beats
  simp [call_ticks calls] at other

theorem leading_rings (office : n.standing.office = .leader beat) : n.rings = beat.next := by
  simp [Node.rings,office]

-- The clock does not go beyond the moment at which the next round is due.
theorem passed_soon {now instant next : Nat} {events : List (Event τ)} {held : Bool}
    (office : n.standing.office = .leader ⟨t,interval,next⟩) (soon : now ≤ next)
    (still : ∀ s, now ≤ s → s < instant → Still s ⟨.running n,events,held⟩) : instant ≤ next := by
  refine Nat.le_of_not_lt ?_
  intro beyond
  have asleep := (still_running.mp (still next soon beyond)).2.2
  rw [leading_rings office] at asleep
  exact Nat.lt_irrefl _ asleep

theorem Tenure.lost_does (past : ∀ n, d.node? = some n → t < n.term) :
    (∀ n, (d.does x).node? = some n → t < n.term) ∧ ∀ s ∈ d.sends x, s.request.beats t = false := by
  refine ⟨?_,?_⟩
  · intro m after
    obtain ⟨n,present,rfl | ⟨deed,_,rfl⟩⟩ := does_node after
    · exact past m present
    · exact Nat.lt_of_lt_of_le (past n present) (n.does_onward deed).term_le
  · intro s sent
    obtain ⟨n,draw,e,c,present,_,_,_,_,sent⟩ := sends_parts sent
    rw [Bool.eq_false_iff]
    intro beats
    obtain ⟨_,leads⟩ := Node.apply_beats sent beats
    have later := past n present
    rw [show n.term = t from leads.1] at later
    exact Term.lt_irrefl t later

theorem Tenure.later {now : Nat} {events : List (Event τ)} {held : Bool} (later : t < n.term) :
    Tenure t start interval rounds ⟨now,.running n,events,held⟩ := by
  refine .lost ?_
  rintro m present
  cases present
  exact later

theorem ahead_does {now : Nat} {events : List (Event τ)} {held : Bool} (term : n.term = t)
    (office : n.standing.office = .leader ⟨t,interval,Time.beat start interval rounds⟩)
    (soon : now ≤ Time.beat start interval rounds) (none : events.countP (Event.ticks t) = 0)
    (punctual : Punctual ⟨now,.running n,events,held⟩ x) (went : Goes now n events held x last handed) :
    Tenure t start interval rounds last ∧ ∀ s ∈ handed, s.request.beats t = false := by
  cases went with
  | passed => exact ⟨.ahead term office (passed_soon office soon punctual.2) none,by simp⟩
  | posted _ => exact ⟨.ahead term office soon (by simp [List.countP_append,none,punctual t]),by simp⟩
  | @called e rest c draw first calls =>
      subst first
      obtain ⟨other,none⟩ := ticks_first none
      refine ⟨?_,unticked calls other⟩
      rcases (Node.apply_change now draw n c).office office with ⟨kept,same⟩ | later
      · exact .ahead (same.trans term) kept soon none
      · exact .later (term ▸ later)
  | skipped first _ =>
      subst first
      exact ⟨.ahead term office soon (ticks_first none).2,by simp⟩
  | ended gone => exact ⟨.lost (by simp [gone]),by simp⟩
  | woke woken =>
      rcases Node.woken_parts woken with ⟨beat,office',due,rfl,rfl⟩ | ⟨idle,_⟩
      · cases office.symm.trans office'
        have due : now = Time.beat start interval rounds := Nat.le_antisymm soon due
        have next : Time.wake (now+interval) = Time.beat start interval (rounds+1) := by rw [due,Time.beat]
        refine ⟨.ticked term (by rw [← next]) due ?_,by simp⟩
        cases held <;> simp [List.countP_append,none,Event.ticks]
      · exact absurd (Node.leader_exact.mpr ⟨_,office⟩) idle
  | _ => exact ⟨.ahead term office soon none,by simp⟩

theorem ticked_does {now : Nat} {events : List (Event τ)} {held : Bool} (positive : 0 < interval)
    (term : n.term = t) (office : n.standing.office = .leader ⟨t,interval,Time.beat start interval (rounds+1)⟩)
    (due : now = Time.beat start interval rounds)
    (one : events.countP (Event.ticks t) = 1 ∨ (events.countP (Event.ticks t) = 0 ∧ held = false))
    (punctual : Punctual ⟨now,.running n,events,held⟩ x) (went : Goes now n events held x last handed) :
    (Tenure t start interval rounds last ∧ ∀ s ∈ handed, s.request.beats t = false) ∨
    (Tenure t start interval (rounds+1) last ∧ handed = n.broadcast (.heartbeat ⟨t,n.me⟩)) := by
  cases went with
  | @passed instant =>
      obtain ⟨onward,still⟩ := punctual
      have stays : instant = now := by
        refine Nat.le_antisymm (Nat.le_of_not_lt ?_) onward
        intro beyond
        obtain ⟨rfl,rfl,_⟩ := still_running.mp (still now (Nat.le_refl _) beyond)
        simp at one
      subst stays
      exact .inl ⟨.ticked term office due one,by simp⟩
  | posted _ => exact .inl ⟨.ticked term office due (by simpa [List.countP_append,punctual t] using one),by simp⟩
  | @called e rest c draw first calls =>
      subst first
      cases ticks : e.ticks t with
      | true =>
          cases ticks_exact.mp ticks
          cases calls
          have none : rest.countP (Event.ticks t) = 0 := by simpa [List.countP_cons,ticks] using one
          have leads : n.Leads t := ⟨term,Node.leader_exact.mpr ⟨_,office⟩⟩
          simp only [Node.apply,leads.onTick]
          exact .inr ⟨.ahead term office (due ▸ Nat.le_of_lt (Time.beat_lt positive _)) none,rfl⟩
      | false =>
          have one : rest.countP (Event.ticks t) = 1 ∨ (rest.countP (Event.ticks t) = 0 ∧ held = false) := by
            simpa [List.countP_cons,ticks] using one
          refine .inl ⟨?_,unticked calls ticks⟩
          rcases (Node.apply_change now draw n c).office office with ⟨kept,same⟩ | later
          · exact .ticked (same.trans term) kept due one
          · exact .later (term ▸ later)
  | @skipped e rest _ first other =>
      subst first
      have ticks : e.ticks t = false := by
        rw [Bool.eq_false_iff]
        intro ticks
        cases ticks_exact.mp ticks
        cases other
      exact .inl ⟨.ticked term office due (by simpa [List.countP_cons,ticks] using one),by simp⟩
  | ended gone => exact .inl ⟨.lost (by simp [gone]),by simp⟩
  | woke woken =>
      rcases Node.woken_parts woken with ⟨beat,office',late,_,_⟩ | ⟨idle,_⟩
      · cases office.symm.trans office'
        exact absurd (due ▸ late) (Nat.not_le.mpr (Time.beat_lt positive rounds))
      · exact absurd (Node.leader_exact.mpr ⟨_,office⟩) idle
  | released => exact .inl ⟨.ticked term office due (one.imp_right fun gone => ⟨gone.1,rfl⟩),by simp⟩
  | _ => exact .inl ⟨.ticked term office due one,by simp⟩

-- What a happening makes of a leadership: a round is sent if its tick is handled, else nothing of it is.
theorem Tenure.does (positive : 0 < interval) (punctual : d.Punctual x) (tenure : Tenure t start interval rounds d) :
    (Tenure t start interval rounds (d.does x) ∧ ∀ s ∈ d.sends x, s.request.beats t = false) ∨
    (Tenure t start interval (rounds+1) (d.does x) ∧ d.now = Time.beat start interval rounds ∧
      ∃ n, d.node? = some n ∧ d.sends x = n.broadcast (.heartbeat ⟨t,n.me⟩)) := by
  cases tenure with
  | ahead term office soon none => exact .inl (ahead_does term office soon none punctual (goes _ _ _ _ x))
  | @ticked now held n events term office due one =>
      refine (ticked_does positive term office due one punctual (goes _ _ _ _ x)).imp_right ?_
      rintro ⟨after,handed⟩
      exact ⟨after,due,n,rfl,handed⟩
  | lost past =>
      obtain ⟨past,silent⟩ := Tenure.lost_does past
      exact .inl ⟨.lost past,silent⟩

theorem roster_beats_succ (t : Term) (start interval rounds : Nat) (r : Roster) : r.beats t start interval (rounds+1) =
    r.beats t start interval rounds ++ r.circular (.heartbeat ⟨t,r.me⟩) (Time.beat start interval rounds) := by
  simp [Roster.beats,List.range_succ]

-- All rounds of a leadership so far are sent, each at its time.
theorem Tenure.run {roster : Roster} {xs : List (Happening τ)} (positive : 0 < interval)
    (punctual : Along Punctual d xs) (own : ∀ n, d.node? = some n → n.roster = roster)
    (tenure : Tenure t start interval 0 d) : ∃ rounds, Tenure t start interval rounds (d.run xs) ∧
      d.sentFor (Request.beats t) xs = roster.beats t start interval rounds := by
  induction xs using List.reverseRecOn with
  | nil => exact ⟨0,tenure,by simp [sentFor,sent,Roster.beats]⟩
  | append_singleton ys y ih =>
      obtain ⟨before,now⟩ := along_append.mp punctual
      obtain ⟨rounds,tenure,sent⟩ := ih before
      rw [run_append,sentFor_split,sent]
      rcases tenure.does positive now.1 with ⟨after,silent⟩ | ⟨after,due,n,present,handed⟩
      · refine ⟨rounds,after,?_⟩
        simp [unwanted_none _ silent,sentFor,Desk.sent]
      · refine ⟨rounds+1,after,?_⟩
        obtain ⟨n',deeds,first,rfl⟩ := run_node present
        have same : (n'.run deeds).roster = roster := (Node.run_roster deeds n').trans (own n' first)
        have wanted := broadcast_wanted (.heartbeat ⟨t,roster.me⟩) (Time.beat start interval rounds) (n'.run deeds)
          (show Request.beats t (.heartbeat ⟨t,roster.me⟩) = true by simp [Request.beats])
        have me : (n'.run deeds).me = roster.me := congrArg Roster.me same
        rw [roster_beats_succ,handed,due,me,wanted,same]
        simp [sentFor,Desk.sent]

theorem Tenure.due (tenure : Tenure t start interval rounds d) (leads : d.Leads t) :
    d.now ≤ Time.beat start interval rounds ∧ (Still d.now d.mailbox → d.now < Time.beat start interval rounds) := by
  obtain ⟨m,present,leads⟩ := leads
  cases tenure with
  | ahead term office soon _ =>
      refine ⟨soon,?_⟩
      intro still
      have asleep := (still_running.mp still).2.2
      rw [leading_rings office] at asleep
      exact asleep
  | ticked _ _ due one =>
      refine ⟨Nat.le_of_eq due,?_⟩
      intro still
      obtain ⟨rfl,rfl,_⟩ := still_running.mp still
      simp at one
  | lost past =>
      have later := past m present
      rw [show m.term = t from leads.1] at later
      exact absurd later (Term.lt_irrefl t)

-- A leadership that is over is over for good.
theorem Leads.does (leads : d.Leads t) (x : Happening τ) :
    (d.does x).Leads t ∨ ∀ n, (d.does x).node? = some n → t < n.term := by
  obtain ⟨n,present,leads⟩ := leads
  cases after : (d.does x).node? with
  | none => exact .inr nofun
  | some m =>
      obtain ⟨n',present',kept⟩ := does_node after
      cases Option.some.inj (present.symm.trans present')
      rcases kept with rfl | ⟨deed,_,rfl⟩
      · exact .inl ⟨m,after,leads⟩
      · rcases Node.does_leads leads deed with kept | later
        · exact .inl ⟨_,after,kept⟩
        · refine .inr ?_
          intro m same
          cases same
          exact later

theorem Leads.run (leads : d.Leads t) (xs : List (Happening τ)) :
    (d.run xs).Leads t ∨ ∀ n, (d.run xs).node? = some n → t < n.term := by
  induction xs using List.reverseRecOn with
  | nil => exact .inl leads
  | append_singleton ys y ih =>
      rw [run_append]
      rcases ih with leads | past
      · exact leads.does y
      · exact .inr (Tenure.lost_does past).1

theorem sends_beats {s : Dispatch} (sent : s ∈ d.sends x) (beats : s.request.beats t = true) :
    d.Leads t ∧ d.mailbox.events.head? = some (.alarm (.heartbeatTick t)) := by
  obtain ⟨n,draw,e,c,present,_,first,calls,_,sent⟩ := sends_parts sent
  obtain ⟨rfl,leads⟩ := Node.apply_beats sent beats
  exact ⟨⟨n,present,leads⟩,first.trans (congrArg some (ticks_exact.mp (call_ticks calls)))⟩

theorem tick_stale {draw : Nat} (first : d.mailbox.events.head? = some (.alarm (.heartbeatTick t))) (stale : ¬ d.Leads t) :
    d.sends (.take draw) = [] := by
  cases present : d.node? with
  | none => exact (does_stopped present _).2
  | some n =>
      have befallen : d.deed? (.take draw) = some (.call d.now draw (.tick t)) := by simp [deed?,first,Event.call?]
      rw [sends_deed present befallen]
      have stale : ¬ n.Leads t := fun leads => stale ⟨n,present,leads⟩
      simp [Node.apply,Node.onTick_stale stale,Step.map,Step.only]

end Desk
end LeaderElection
