import LeaderElection.Proofs.Node.Deadline
import LeaderElection.Proofs.Node.Sends

namespace LeaderElection

def Request.asks (t : Term) : Request → Bool
  | .vote r => decide (r.term = t)
  | .heartbeat _ => false

def Request.beats (t : Term) : Request → Bool
  | .vote _ => false
  | .heartbeat h => decide (h.term = t)

theorem ElectionTimer.wake_none {now draw : Nat} (timer : ElectionTimer) :
    timer.wake now draw = none ↔ now < Time.wake timer.slumber.deadline := by
  unfold wake Time.passed
  by_cases woken : Time.wake timer.slumber.deadline ≤ now
  · simp only [woken,decide_true,if_true]
    split
    · split <;> simp [Nat.not_lt_of_le woken]
    · simp [Nat.not_lt_of_le woken]
  · simp [woken,Nat.lt_of_not_le woken]

namespace Node

-- When the timer's task goes round next.
def rings (n : Node) : Nat := match n.standing.office with
  | .leader beat => beat.next
  | .candidate _ timer => Time.wake timer.slumber.deadline
  | .follower _ timer => Time.wake timer.slumber.deadline

-- A leader beats for its own term, and at the interval it was given.
def Paced (n : Node) : Prop := ∀ beat, n.standing.office = .leader beat →
  beat.term = n.term ∧ beat.interval = n.timings.heartbeat

variable {now draw : Nat} {n next : Node} {c : Call} {d : Deed} {t : Term} {beat : HeartbeatTimer}

theorem Change.timings (change : Change now draw n c next) : next.timings = n.timings := by
  have met : ∀ t, (n.met now draw t).timings = n.timings := by
    intro t
    unfold Node.met meet
    split <;> rfl
  cases change with
  | stepped _ _ => exact met _
  | voted _ _ _ => exact met _
  | followed _ _ accepted =>
      unfold accept at accepted
      split at accepted
      · cases accepted
      · cases accepted; exact met _
      · split at accepted <;> cases accepted <;> exact met _
  | _ => rfl

theorem Leads.office (leads : n.Leads t) : ∃ beat, n.standing.office = .leader beat := leader_exact.mp leads.2

theorem office_leads (office : n.standing.office = .leader beat) : n.Leads n.term :=
  ⟨rfl,leader_exact.mpr ⟨beat,office⟩⟩

theorem defer_leading {s : Standing} (office : s.office = .leader beat) : (s.defer now draw).office = .leader beat := by
  unfold Standing.defer
  split
  · next follows => simp [office] at follows
  · exact office

-- An office of leader is kept as it is until the term is over.
theorem Change.office (change : Change now draw n c next) (office : n.standing.office = .leader beat) :
    (next.standing.office = .leader beat ∧ next.term = n.term) ∨ n.term < next.term := by
  cases change with
  | kept => exact .inl ⟨office,rfl⟩
  | stepped _ later =>
      rw [met_later now draw later]
      exact .inr later
  | @voted b r _ reached cast =>
      change _ ∧ b.term = n.term ∨ n.term < b.term
      rw [Ballot.cast_term cast]
      by_cases later : n.term < r.term
      · exact .inr (Nat.lt_of_lt_of_eq later (congrArg Term.number (met_term now draw reached).symm))
      · rw [met_current now draw later]
        exact .inl ⟨defer_leading office,rfl⟩
  | @followed after h _ reached accepted =>
      obtain ⟨follows,ballot,_⟩ := accept_parts now draw accepted
      refine .inr ?_
      by_cases later : n.term < h.term
      · change n.term < after.ballot.term
        rw [ballot,met_later now draw later]
        exact later
      · rw [met_current now draw later] at follows
        exact absurd (leader_exact.mpr ⟨beat,office⟩) follows
  | stood _ began _ => exact .inr (Term.lt_next (Ballot.stand_exact.mp began).1)
  | sole _ began _ => exact .inr (Term.lt_next (Ballot.stand_exact.mp began).1)
  | counted running _ _ _ => simp [running] at office
  | elected running _ _ _ => simp [running] at office

-- Whoever comes to lead a term starts to beat at once.
theorem Change.leads (change : Change now draw n c next) (leads : next.Leads t) (anew : ¬ n.Leads t) :
    next.standing.office = .leader (.start now n.timings.heartbeat t) := by
  obtain ⟨rfl,leads⟩ := leads
  have leads : next.role = .leader := leads
  cases change with
  | kept => exact absurd ⟨rfl,leads⟩ anew
  | stepped _ later =>
      rw [met_later now draw later] at leads
      cases leads
  | @voted b r _ _ cast =>
      rw [role,defer_standing,Standing.defer_role] at leads
      have same : n.met now draw r.term = n := met_busy fun follows => by cases follows.symm.trans leads
      rw [same] at leads cast
      exact absurd ⟨(Ballot.cast_term cast).symm,leads⟩ anew
  | followed _ _ accepted =>
      rw [role,defer_standing,Standing.defer_role] at leads
      cases (accept_follows accepted).symm.trans leads
  | stood _ _ _ => cases leads
  | sole _ _ _ => rfl
  | counted _ _ _ _ => cases leads
  | elected _ _ _ _ => rfl

theorem created_paced (now draw : Nat) (roster : Roster) (timings : Timings) :
    (create now draw roster timings).Paced := nofun

theorem Paced.apply (paced : n.Paced) (now draw : Nat) (c : Call) : (n.apply now draw c).node.Paced := by
  intro beat office
  have change := apply_change now draw n c
  have leads := office_leads office
  by_cases led : n.Leads (n.apply now draw c).node.term
  · obtain ⟨beat',office'⟩ := led.office
    rcases change.office office' with ⟨kept,same⟩ | later
    · cases office.symm.trans kept
      rw [same,change.timings]
      exact paced beat office'
    · exact absurd later (led.1 ▸ Term.lt_irrefl _)
  · cases office.symm.trans (change.leads leads led)
    rw [change.timings]
    exact ⟨rfl,rfl⟩

theorem does_timings (n : Node) (d : Deed) : (n.does d).timings = n.timings := by
  cases d with
  | call now draw c => exact (apply_change now draw n c).timings
  | wake now draw =>
      obtain ⟨office,same,_⟩ := does_wake now draw n
      rw [same]

theorem run_timings (n : Node) (deeds : List Deed) : (n.run deeds).timings = n.timings := by
  induction deeds generalizing n with
  | nil => rfl
  | cons d rest ih => exact (ih (n.does d)).trans (does_timings n d)

-- Only a leader's timer's task says that it is time for a heartbeat. The others' leave the office open.
theorem woken_parts (woken : n.wake now draw = some (next,alarm)) :
    (∃ beat, n.standing.office = .leader beat ∧ beat.next ≤ now ∧ alarm = some (.heartbeatTick beat.term) ∧
      next = {n with standing := {n.standing with
        office := .leader {beat with next := Time.wake (now+beat.interval)}}}) ∨
    (n.role ≠ .leader ∧ ∀ t, alarm ≠ some (.heartbeatTick t)) := by
  unfold wake at woken
  unfold role Standing.role
  split at woken
  · next beat office =>
      obtain ⟨after,rung,same⟩ := Option.map_eq_some_iff.mp woken
      cases same
      unfold HeartbeatTimer.wake at rung
      split at rung
      · next due =>
          cases rung
          exact .inl ⟨beat,office,due,rfl,rfl⟩
      · cases rung
  · next office =>
      obtain ⟨⟨_,fires⟩,_,same⟩ := Option.map_eq_some_iff.mp woken
      cases fires <;> cases same <;> simp [office]
  · next office =>
      obtain ⟨⟨_,fires⟩,_,same⟩ := Option.map_eq_some_iff.mp woken
      cases fires <;> cases same <;> simp [office]

theorem wake_leads (woken : n.wake now draw = some (next,alarm)) (t : Term) :
    next.term = n.term ∧ (next.Leads t ↔ n.Leads t) := by
  obtain ⟨_,same,_,role,_⟩ := wake_parts woken
  have term : next.term = n.term := by rw [same]; rfl
  refine ⟨term,?_⟩
  change next.term = t ∧ next.role = .leader ↔ n.term = t ∧ n.role = .leader
  rw [term,role]

theorem does_leads (leads : n.Leads t) (d : Deed) : (n.does d).Leads t ∨ t < (n.does d).term := by
  cases d with
  | call now draw c =>
      obtain ⟨beat,office⟩ := leads.office
      obtain ⟨rfl,_⟩ := leads
      exact ((apply_change now draw n c).office office).imp_left fun kept =>
        ⟨kept.2,leader_exact.mpr ⟨beat,kept.1⟩⟩
  | wake now draw =>
      cases woken : n.wake now draw with
      | none => simpa [does,woken] using Or.inl leads
      | some result => simpa [does,woken] using Or.inl ((wake_leads woken t).2.mpr leads)

theorem Paced.wake (paced : n.Paced) (woken : n.wake now draw = some (next,alarm)) : next.Paced := by
  intro beat office
  rcases woken_parts woken with ⟨beat',office',_,_,rfl⟩ | ⟨idle,_⟩
  · cases office
    exact paced beat' office'
  · exact absurd ((wake_leads woken next.term).2.mp (office_leads office)).2 idle

theorem Paced.does (paced : n.Paced) (d : Deed) : (n.does d).Paced := by
  cases d with
  | call now draw c => exact paced.apply now draw c
  | wake now draw =>
      cases woken : n.wake now draw with
      | none => simpa [Node.does,woken] using paced
      | some result => simpa [Node.does,woken] using paced.wake woken

theorem wake_none : n.wake now draw = none ↔ now < n.rings := by
  unfold wake rings
  cases n.standing.office with
  | leader beat => simp [HeartbeatTimer.wake]
  | candidate votes timer => simp [timer.wake_none]
  | follower leader timer => simp [timer.wake_none]

theorem Leads.onTick (leads : n.Leads t) : n.onTick t = ⟨(),n,n.broadcast (.heartbeat ⟨t,n.me⟩),none,[]⟩ := by
  obtain ⟨term,role⟩ := leads
  have term : n.term = t := term
  have role : n.role = .leader := role
  simp [Node.onTick,term,role]

theorem onTick_stale (stale : ¬ n.Leads t) : n.onTick t = .only () n [.staleTick t n.standing] := by
  refine if_pos ?_
  by_cases term : n.term = t
  · exact .inr fun role => stale ⟨term,role⟩
  · exact .inl term

theorem Begins.earlier (begins : n.Begins t d) : n.term < t := by
  cases d with
  | call now draw c => exact Term.lt_next begins.2
  | wake now draw => exact begins.elim

theorem Begins.reaches (begins : n.Begins t d) : (n.does d).term = t := by
  rcases begins.parts with ⟨_,_,_,after⟩ | ⟨_,_,_,after⟩ <;> rw [after] <;> rfl

-- Votes in a term are asked for at the outset of the candidacy for it, and at no other time.
theorem Begins.sends (begins : n.Begins t (.call now draw c)) :
    (n.apply now draw c).sends = n.broadcast (.vote ⟨t,n.me⟩) := by
  obtain ⟨seeks,next⟩ := begins
  have began : n.ballot.stand n.me = some ⟨t,some n.me⟩ := Ballot.stand_exact.mpr ⟨next,rfl⟩
  rw [seeks_stands seeks]
  by_cases alone : quorum n.roster.size ≤ 1
  · rw [stand_sole now draw began alone]
    have none : n.roster.peers = [] := by
      unfold quorum Roster.size at alone
      exact List.eq_nil_of_length_eq_zero (by omega)
    simp [Step.map,Step.only,broadcast,none]
  · rw [stand_asking now draw began (Nat.lt_of_not_le alone)]
    rfl

theorem apply_asks {d : Dispatch} (sent : d ∈ (n.apply now draw c).sends) (asks : d.request.asks t = true) :
    n.Begins t (.call now draw c) := by
  obtain ⟨_,asked | beaten⟩ := apply_sends sent
  · have current : (n.apply now draw c).node.term = t := by simpa [asked.request,Request.asks] using asks
    have busy : (n.apply now draw c).node.role ≠ .follower := by simp [asked.running]
    refine (does_stands (d := .call now draw c) ⟨current,busy⟩).resolve_left ?_
    rintro ⟨same,_⟩
    have later : n.term < (n.apply now draw c).node.term := Term.lt_next (Ballot.stand_exact.mp asked.began).1
    rw [show n.term = t from same,current] at later
    exact Term.lt_irrefl t later
  · simp [beaten.request,Request.asks] at asks

theorem stand_unbeaten {d : Dispatch} (sent : d ∈ (n.stand now draw).sends) : d.request.beats t = false := by
  obtain ⟨_,asked⟩ := stand_sends sent
  rw [asked.request]
  rfl

-- Heartbeats of a term are sent at its ticks, and at no other time.
theorem apply_beats {d : Dispatch} (sent : d ∈ (n.apply now draw c).sends) (beats : d.request.beats t = true) :
    c = .tick t ∧ n.Leads t := by
  cases c with
  | tick t' =>
      have sent : d ∈ (n.onTick t').sends := sent
      by_cases leads : n.Leads t'
      · rw [leads.onTick] at sent
        obtain ⟨_,request⟩ := broadcast_parts n sent
        have same : t' = t := by simpa [request,Request.beats] using beats
        exact ⟨congrArg Call.tick same,same ▸ leads⟩
      · simp [onTick_stale leads,Step.only] at sent
  | candidacy =>
      have sent : d ∈ (n.stand now draw).sends := sent
      simp [stand_unbeaten sent] at beats
  | timeout =>
      have sent : d ∈ (n.onTimeout now draw).sends := sent
      cases due : n.standing.timeoutDue now with
      | true =>
          rw [onTimeout_due now draw due] at sent
          simp [stand_unbeaten sent] at beats
      | false => simp [onTimeout_stale now draw due,Step.only] at sent
  | term t' => cases sent
  | voteRequest r =>
      have sent : d ∈ (n.onVoteRequest now draw r).sends := sent
      simp [onVoteRequest_sends] at sent
  | heartbeat h =>
      have sent : d ∈ (n.onHeartbeat now draw h).sends := sent
      simp [onHeartbeat_sends] at sent
  | voteReply peer t' result =>
      have sent : d ∈ (n.onVoteReply now draw peer t' result).sends := sent
      simp [onVoteReply_sends] at sent
  | heartbeatReply peer t' result =>
      have sent : d ∈ (n.onHeartbeatReply now draw peer t' result).sends := sent
      simp [onHeartbeatReply_sends] at sent

end Node
end LeaderElection
