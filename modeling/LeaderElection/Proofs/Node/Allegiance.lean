import LeaderElection.Proofs.Basic
import LeaderElection.Proofs.Node.Pace
import LeaderElection.Station

namespace LeaderElection

-- What can arrive in a term whose leader is not contested: alarms, the leader's heartbeats, and replies
-- that tell of no later term.
def Event.Tame {τ : Type} (t : Term) (leader : NodeId) : Event τ → Prop
  | .alarm _ => True
  | .heartbeat _ h => h = ⟨t,leader⟩
  | .heartbeatReply _ _ (.ok reply) => ¬ t < reply.term
  | .heartbeatReply _ _ (.error _) => True
  | _ => False

def Reply.Tame (t : Term) : Reply → Prop
  | .heartbeat reply => ¬ t < reply.term
  | _ => True

def Deed.time : Deed → Nat
  | .call now _ _ => now
  | .wake now _ => now

namespace Node

structure Reigns (t : Term) (interval next : Nat) (n : Node) : Prop where
  term : n.term = t
  office : n.standing.office = .leader ⟨t,interval,next⟩

structure Obeys (t : Term) (leader : NodeId) (deadline : Nat) (n : Node) : Prop where
  term : n.term = t
  office : ∃ slumber, n.standing.office = .follower (some leader) ⟨deadline,slumber⟩
  known : n.roster.contains leader = true

-- A node that has just accepted a heartbeat, whatever it was before.
def Heard (now : Nat) (r : Range) (h : Heartbeat) (n : Node) : Prop :=
  ∃ (before : Node) (draw : Nat), r.Holds draw ∧ HeartbeatReply.Accepts (before.onHeartbeat now draw h).answer ∧
    n = (before.onHeartbeat now draw h).node

-- A node to which nothing has happened later than now.
def Lived (now : Nat) (n : Node) : Prop :=
  ∃ start first roster timings deeds, (∀ d ∈ deeds, d.time ≤ now) ∧
    n = (create start first roster timings).run deeds

def Prompt (now : Nat) (n : Node) : Prop := ∀ beat, n.standing.office = .leader beat →
  beat.next ≤ Time.wake (now+n.timings.heartbeat)

variable {τ : Type} {now draw interval next deadline : Nat} {n : Node} {t : Term} {leader : NodeId} {e : Event τ}

theorem Reigns.leads (reigns : n.Reigns t interval next) : n.Leads t :=
  ⟨reigns.term,leader_exact.mpr ⟨_,reigns.office⟩⟩

theorem Obeys.follows (obeys : n.Obeys t leader deadline) : n.role = .follower := by
  obtain ⟨slumber,office⟩ := obeys.office
  simp [role,Standing.role,office]

theorem Obeys.waits (obeys : n.Obeys t leader deadline) : n.deadline? = some deadline := by
  obtain ⟨slumber,office⟩ := obeys.office
  rw [deadline?,office]

theorem onHeartbeatReply_tame (now draw : Nat) {result : Except TransportError HeartbeatReply} (term : n.term = t)
    (tame : Event.Tame t leader (.heartbeatReply peer t' result : Event τ)) :
    (n.onHeartbeatReply now draw peer t' result).node = n ∧ (n.onHeartbeatReply now draw peer t' result).sends = [] := by
  cases result with
  | error e => exact ⟨rfl,rfl⟩
  | ok reply =>
      refine ⟨?_,onHeartbeatReply_sends ..⟩
      rw [onHeartbeatReply_node]
      exact met_current now draw (term ▸ tame)

-- A leader refuses heartbeats of its own term, whoever sends them.
theorem Reigns.onHeartbeat (reigns : n.Reigns t interval next) (now draw : Nat) (leader : NodeId) :
    ∃ refusal notices, n.onHeartbeat now draw ⟨t,leader⟩ = .only (.error refusal) n notices ∧ refusal.current = t := by
  have current : ¬ n.term < t := reigns.term ▸ Term.lt_irrefl _
  have reached : ¬ t < n.term := reigns.term ▸ Term.lt_irrefl _
  cases known : n.roster.contains leader with
  | false => exact ⟨_,_,onHeartbeat_stranger now draw (h := ⟨t,leader⟩) known,reigns.term⟩
  | true =>
      have met : n.met now draw t = n := met_current now draw current
      have refused : (n.met now draw t).accept now draw leader = none := by
        rw [met]
        exact (accept_none now draw).mpr reigns.leads.2
      have rival := onHeartbeat_rival now draw (h := ⟨t,leader⟩) known reached refused
      rw [met] at rival
      exact ⟨_,_,rival,rfl⟩

-- A follower accepts its leader's heartbeats and waits anew.
theorem Obeys.onHeartbeat (obeys : n.Obeys t leader deadline) (now draw : Nat) :
    ∃ notices, n.onHeartbeat now draw ⟨t,leader⟩ = ⟨.ok ⟨true,t⟩,n.defer now draw,[],some leader,notices⟩ := by
  have current : ¬ n.term < t := obeys.term ▸ Term.lt_irrefl _
  have reached : ¬ t < n.term := obeys.term ▸ Term.lt_irrefl _
  have accepted : (n.met now draw t).accept now draw leader = some n := by
    obtain ⟨slumber,office⟩ := obeys.office
    rw [met_current now draw current,accept,office]
    simp
  have answered := onHeartbeat_accepted now draw (h := ⟨t,leader⟩) obeys.known reached accepted
  rw [obeys.term] at answered
  exact ⟨_,answered⟩

theorem Obeys.defer (obeys : n.Obeys t leader deadline) (now draw : Nat) :
    (n.defer now draw).Obeys t leader (now+draw) ∧ (n.defer now draw).status = n.status := by
  obtain ⟨slumber,office⟩ := obeys.office
  have deferred : (n.standing.defer now draw).office = .follower (some leader) ⟨now+draw,slumber⟩ := by
    simp [Standing.defer,office,ElectionTimer.reset]
  refine ⟨⟨obeys.term,⟨slumber,deferred⟩,obeys.known⟩,?_⟩
  simp [status,role,Standing.role,Standing.leader,deferred,office,Node.term,me]

-- A leader goes on as before, and sends heartbeats at its ticks.
theorem Reigns.handle (reigns : n.Reigns t interval next) (tame : e.Tame t leader) (now draw : Nat)
    (rest : List (Event τ)) (held : Bool) :
    let turn := Mailbox.handle now draw n e rest held
    turn.mailbox = ⟨.running n,rest,held⟩ ∧ (∀ r ∈ turn.receipts, r.2.reply.Tame t) ∧
      (e = .alarm (.heartbeatTick t) ∧ turn.sends = n.broadcast (.heartbeat ⟨t,n.me⟩) ∨
        e ≠ .alarm (.heartbeatTick t) ∧ turn.sends = []) := by
  cases e with
  | alarm a =>
      cases a with
      | electionTimeout =>
          have stale : n.standing.timeoutDue now = false := by simp [Standing.timeoutDue,reigns.office]
          simp [Mailbox.handle,Mailbox.turn,onTimeout_stale now draw stale,Step.only]
      | heartbeatTick t' =>
          by_cases same : t' = t
          · subst same
            simp [Mailbox.handle,Mailbox.turn,reigns.leads.onTick]
          · have stale : ¬ n.Leads t' := fun leads => same (leads.1.symm.trans reigns.term)
            simp [Mailbox.handle,Mailbox.turn,onTick_stale stale,Step.only,same]
  | heartbeat asker h =>
      cases tame
      obtain ⟨refusal,notices,refused,current⟩ := reigns.onHeartbeat now draw leader
      simp [Mailbox.handle,Mailbox.turn,refused,Step.only,Receipt.reply,Reply.ofHeartbeat,Reply.Tame,current,Term.lt_irrefl]
  | heartbeatReply peer t' result =>
      obtain ⟨same,silent⟩ := onHeartbeatReply_tame now draw reigns.term tame
      simp [Mailbox.handle,Mailbox.turn,same,silent]
  | _ => exact tame.elim

-- Whatever else can arrive leaves a follower as it is.
theorem Obeys.handle_other (obeys : n.Obeys t leader deadline) (soon : now < deadline) (tame : e.Tame t leader)
    (other : ∀ asker, e ≠ .heartbeat asker ⟨t,leader⟩) (draw : Nat) (rest : List (Event τ)) (held : Bool) :
    let turn := Mailbox.handle now draw n e rest held
    turn.mailbox = ⟨.running n,rest,held⟩ ∧ turn.receipts = [] ∧ turn.sends = [] := by
  obtain ⟨slumber,office⟩ := obeys.office
  cases e with
  | alarm a =>
      cases a with
      | electionTimeout =>
          have stale : n.standing.timeoutDue now = false := by
            simp [Standing.timeoutDue,office,ElectionTimer.expired,Nat.not_le_of_lt soon]
          simp [Mailbox.handle,Mailbox.turn,onTimeout_stale now draw stale,Step.only]
      | heartbeatTick t' =>
          have stale : ¬ n.Leads t' := fun leads => by cases obeys.follows.symm.trans leads.2
          simp [Mailbox.handle,Mailbox.turn,onTick_stale stale,Step.only]
  | heartbeat asker h =>
      cases tame
      exact absurd rfl (other asker)
  | heartbeatReply peer t' result =>
      obtain ⟨same,silent⟩ := onHeartbeatReply_tame now draw obeys.term tame
      simp [Mailbox.handle,Mailbox.turn,same,silent]
  | _ => exact tame.elim

-- The timer's task of a follower that is not yet to stand says nothing.
theorem Obeys.wake (obeys : n.Obeys t leader deadline) (soon : now < deadline) (woken : n.wake now draw = some (after,alarm)) :
    after.Obeys t leader deadline ∧ after.status = n.status ∧ after.timings = n.timings ∧ alarm = none := by
  obtain ⟨slumber,office⟩ := obeys.office
  simp only [Node.wake,office,Option.map_eq_some_iff] at woken
  obtain ⟨⟨⟨moved,slumber'⟩,fires⟩,rung,same⟩ := woken
  have kept : moved = deadline := ElectionTimer.wake_deadline rung
  have silent : fires = false := ElectionTimer.wake_early soon rung
  subst kept silent
  cases same
  refine ⟨⟨obeys.term,⟨slumber',rfl⟩,obeys.known⟩,?_,rfl,rfl⟩
  simp [status,role,Standing.role,Standing.leader,Node.term,me,office]

theorem Reigns.wake (reigns : n.Reigns t interval next) (woken : n.wake now draw = some (after,alarm)) :
    next ≤ now ∧ after.Reigns t interval (Time.wake (now+interval)) ∧ after.status = n.status ∧
      after.timings = n.timings ∧ after.roster = n.roster ∧ alarm = some (.heartbeatTick t) := by
  rcases woken_parts woken with ⟨beat,office,due,rfl,rfl⟩ | ⟨idle,_⟩
  · cases reigns.office.symm.trans office
    refine ⟨due,⟨reigns.term,rfl⟩,?_,rfl,rfl,rfl⟩
    simp [status,role,Standing.role,Standing.leader,Node.term,me,office]
  · exact absurd reigns.leads.2 idle

theorem Heard.obeys {r : Range} {h : Heartbeat} (heard : n.Heard now r h) :
    ∃ draw, r.Holds draw ∧ n.Obeys h.term h.leader (now+draw) := by
  obtain ⟨before,draw,holds,accepts,rfl⟩ := heard
  obtain ⟨known,reached⟩ := accepts_admitted accepts
  obtain ⟨next,accepted,parts⟩ := accepts_parts accepts
  obtain ⟨_,ballot,roster,⟨timer,standing⟩,_⟩ := accept_parts now draw accepted
  rw [parts]
  have deferred : (next.standing.defer now draw).office = .follower (some h.leader) ⟨now+draw,timer.slumber⟩ := by
    simp [Standing.defer,standing,ElectionTimer.reset]
  refine ⟨draw,holds,?_,⟨_,deferred⟩,?_⟩
  · exact (congrArg Ballot.term ballot).trans (met_term now draw reached)
  · change next.roster.contains h.leader = true
    rw [roster,met_roster]
    exact known

-- A leader never sleeps longer than its interval.
theorem Prompt.does (prompt : n.Prompt now) (paced : n.Paced) (d : Deed) (past : d.time ≤ now) : (n.does d).Prompt now := by
  intro beat office
  rw [does_timings]
  have soon := Time.le_wake (now+n.timings.heartbeat)
  cases d with
  | call time draw c =>
      have past : time ≤ now := past
      have change := apply_change time draw n c
      by_cases led : n.Leads (n.apply time draw c).node.term
      · obtain ⟨beat',office'⟩ := led.office
        rcases change.office office' with ⟨kept,_⟩ | later
        · cases office.symm.trans kept
          exact prompt beat office'
        · exact absurd later (led.1 ▸ Term.lt_irrefl _)
      · cases office.symm.trans (change.leads (office_leads office) led)
        change time ≤ _
        omega
  | wake time draw =>
      cases woken : n.wake time draw with
      | none =>
          have kept : n.does (.wake time draw) = n := by simp [Node.does,woken]
          exact prompt beat (kept ▸ office)
      | some result =>
          have woke : n.does (.wake time draw) = result.1 := by simp [Node.does,woken]
          rw [woke] at office
          rcases woken_parts woken with ⟨beat',office',_,_,same⟩ | ⟨idle,_⟩
          · rw [same] at office
            cases office
            rw [(paced beat' office').2]
            exact Time.wake_mono (Nat.add_le_add_right past _)
          · exact absurd ((wake_leads woken result.1.term).2.mp (office_leads office)).2 idle

theorem Lived.prompt (lived : n.Lived now) : n.Paced ∧ n.Prompt now := by
  obtain ⟨start,first,roster,timings,deeds,past,rfl⟩ := lived
  have created : (create start first roster timings).Paced ∧ (create start first roster timings).Prompt now :=
    ⟨created_paced start first roster timings,by simp [Prompt,create]⟩
  generalize create start first roster timings = n at created ⊢
  induction deeds generalizing n with
  | nil => exact created
  | cons d rest ih =>
      obtain ⟨paced,prompt⟩ := created
      exact ih (fun d later => past d (List.mem_cons_of_mem _ later)) _
        ⟨paced.does d,prompt.does paced d (past d (List.mem_cons_self ..))⟩

theorem Lived.reigns (lived : n.Lived now) (leads : n.Leads t) :
    ∃ next, n.Reigns t n.timings.heartbeat next ∧ next ≤ Time.wake (now+n.timings.heartbeat) := by
  obtain ⟨paced,prompt⟩ := lived.prompt
  obtain ⟨⟨term,interval,next⟩,office⟩ := leads.office
  obtain ⟨rfl,rfl⟩ := paced _ office
  cases leads.1
  exact ⟨next,⟨rfl,office⟩,prompt _ office⟩

end Node
end LeaderElection
