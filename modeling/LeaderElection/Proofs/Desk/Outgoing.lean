import LeaderElection.Proofs.Desk.Beats

namespace LeaderElection

namespace Desk

variable {τ : Type} {d : Desk τ} {x y : Happening τ} {t : Term} {roster : Roster} {timings : Timings}

theorem run_roster (own : ∀ n, d.node? = some n → n.roster = roster) (xs : List (Happening τ)) :
    ∀ n, (d.run xs).node? = some n → n.roster = roster := by
  intro n present
  obtain ⟨n',deeds,first,rfl⟩ := run_node present
  exact (Node.run_roster deeds n').trans (own n' first)

theorem opened_roster (start first : Nat) (roster : Roster) (timings : Timings) :
    ∀ n, (opened start first roster timings : Desk τ).node? = some n → n.roster = roster := by
  intro n present
  cases present
  rfl

-- There is one moment at most at which a candidacy for a term begins.
theorem begins_once {past past' later later' : List (Happening τ)} (split : past ++ x :: later = past' ++ y :: later')
    (begins : (d.run past).Begins t x) (begins' : (d.run past').Begins t y) : past = past' := by
  rcases List.append_eq_append_iff.mp split with ⟨between,rfl,rest⟩ | ⟨between,rfl,rest⟩
  · cases between with
    | nil => simp
    | cons z between =>
        cases rest
        rw [run_append] at begins'
        exact absurd begins' (begins_apart begins between)
  · cases between with
    | nil => simp
    | cons z between =>
        cases rest
        rw [run_append] at begins
        exact absurd begins (begins_apart begins' between)

-- A node that comes to lead a term has not sent any heartbeat of it before.
theorem unbeaten {past : List (Happening τ)} (anew : ¬ (d.run past).Leads t) (leads : ((d.run past).does x).Leads t) :
    d.sentFor (Request.beats t) past = [] := by
  refine sentFor_none ?_
  intro early z between s split handed
  rw [Bool.eq_false_iff]
  intro beats
  rcases (sends_beats handed beats).1.run (z :: between) with still | gone
  · rw [split,run_append] at anew
    exact anew still
  · rw [← run_append,← split] at gone
    obtain ⟨n,present,leads⟩ := leads
    have later := (Tenure.lost_does gone).1 n present
    rw [show n.term = t from leads.1] at later
    exact Term.lt_irrefl t later

-- From the moment a node comes to lead a term it sends its heartbeats at every interval.
theorem beats_on_time {past later : List (Happening τ)} (regular : Regular timings d)
    (own : ∀ n, d.node? = some n → n.roster = roster) (positive : 0 < timings.heartbeat)
    (punctual : Along Punctual d (past ++ x :: later)) (anew : ¬ (d.run past).Leads t)
    (leads : ((d.run past).does x).Leads t) :
    ∃ rounds, Tenure t (d.run past).now timings.heartbeat rounds (d.run (past ++ x :: later)) ∧
      d.sentFor (Request.beats t) (past ++ x :: later) = roster.beats t (d.run past).now timings.heartbeat rounds := by
  obtain ⟨before,_,after⟩ := along_append.mp punctual
  have regular : Regular timings (d.run past) := along_keeps (fun _ _ now held => held.does now) before regular
  have silent : ∀ s ∈ (d.run past).sends x, s.request.beats t = false := by
    intro s handed
    rw [Bool.eq_false_iff]
    exact fun beats => anew (sends_beats handed beats).1
  have own := run_roster (run_roster own past) [x]
  obtain ⟨rounds,tenure,sent⟩ := (regular.tenure anew leads).run positive after own
  refine ⟨rounds,?_,?_⟩
  · rw [run_append]
    exact tenure
  · rw [sentFor_split,unbeaten anew leads,unwanted_none _ silent,sent]
    simp

-- A candidacy in a run: votes are asked for at its beginning, once of every peer, and no other one is for its term.
structure Canvassed (t : Term) (roster : Roster) (d : Desk τ) (past : List (Happening τ)) (x : Happening τ)
    (xs : List (Happening τ)) : Prop where
  sent : d.sentFor (Request.asks t) xs = roster.circular (.vote ⟨t,roster.me⟩) (d.run past).now
  handed : (d.run past).sends x = roster.peers.map (fun peer => ⟨peer,.vote ⟨t,roster.me⟩⟩)
  single : ∀ past' x' later, xs = past' ++ x' :: later → (d.run past').Begins t x' → past' = past

-- A leadership in a run: as many rounds of heartbeats are sent as have been due, each when it was due. The first is
-- due at the start, and the next one at the first whole millisecond that an interval has passed by since.
structure Beating (t : Term) (roster : Roster) (start interval rounds : Nat) (d : Desk τ) (xs : List (Happening τ)) :
    Prop where
  sent : d.sentFor (Request.beats t) xs = roster.beats t start interval rounds
  later : ∀ k, IsLeast {instant | millisecond ∣ instant ∧ Time.beat start interval k+interval ≤ instant}
    (Time.beat start interval (k+1))
  whole : millisecond ∣ start → millisecond ∣ interval → ∀ k, Time.beat start interval k = start+k*interval
  ahead : (d.run xs).Leads t → (d.run xs).now ≤ Time.beat start interval rounds ∧
    (Still (d.run xs).now (d.run xs).mailbox → (d.run xs).now < Time.beat start interval rounds)

-- Whatever arrives in a run: votes are asked for once in each candidacy, of every peer, and heartbeats
-- are sent by a leader at its ticks only. If nothing is put off, that is at once and then at every
-- interval for as long as it leads.
theorem requests_disciplined {me : NodeId} {members : List Member} (accepted : Roster.ofMembers me members = .ok roster) (timings : Timings)
    (start first : Nat) (xs : List (Happening τ)) :
    let d : Desk τ := opened start first roster timings
    (roster.me = me ∧ roster.peers.length+1 = members.length ∧ (roster.peers.map Member.id).Nodup ∧
      me ∉ roster.peers.map Member.id) ∧
    (∀ t past x later, xs = past ++ x :: later → (d.run past).Begins t x → Canvassed t roster d past x xs) ∧
    (∀ t, (∀ past x later, xs = past ++ x :: later → ¬ (d.run past).Begins t x) →
      d.sentFor (Request.asks t) xs = []) ∧
    (∀ t past x later s, xs = past ++ x :: later → s ∈ (d.run past).sends x → s.request.beats t = true →
      (d.run past).Leads t ∧ (d.run past).mailbox.events.head? = some (.alarm (.heartbeatTick t))) ∧
    (∀ t past draw later, xs = past ++ .take draw :: later →
      (d.run past).mailbox.events.head? = some (.alarm (.heartbeatTick t)) → ¬ (d.run past).Leads t →
      (d.run past).sends (.take draw) = []) ∧
    (0 < timings.heartbeat → Along Punctual d xs → ∀ t past x later, xs = past ++ x :: later →
      ¬ (d.run past).Leads t → ((d.run past).does x).Leads t →
        ∃ rounds, Beating t roster (d.run past).now timings.heartbeat rounds d xs) := by
  intro d
  have own := opened_roster (τ := τ) start first roster timings
  have mine : roster.me = me := Roster.ofMembers_me accepted
  refine ⟨⟨mine,Roster.ofMembers_size accepted,Roster.ofMembers_distinct accepted⟩,?_,?_,?_,?_,?_⟩
  · rintro t past x later rfl begins
    obtain ⟨n,_,present,_⟩ := id begins
    have same : n.roster = roster := run_roster own past n present
    have mine : n.me = roster.me := congrArg Roster.me same
    refine ⟨?_,?_,?_⟩
    · rw [votes_asked_once past later begins present,same,mine]
    · rw [begins.sends present,Node.broadcast,same,mine]
    · intro past' x' later' split begins'
      exact (begins_once split begins begins').symm
  · intro t idle
    exact votes_unasked idle
  · intro t past x later s _ handed beats
    exact sends_beats handed beats
  · intro t past draw later _ first stale
    exact tick_stale first stale
  · rintro positive punctual t past x later rfl anew leads
    have regular : Regular timings d := opened_regular start first roster timings
    obtain ⟨rounds,tenure,sent⟩ := beats_on_time regular own positive punctual anew leads
    exact ⟨rounds,sent,fun _ => Time.wake_least _,fun begins whole k => Time.beat_whole begins whole k,tenure.due⟩

-- One member of three that wins an election and leads through two rounds.
theorem two_rounds_of_trio :
    let roster : Roster := ⟨⟨"a"⟩,⟨"a",100⟩,trio.tail⟩
    let d : Desk Unit := opened 0 (5*millisecond) roster ⟨millisecond,⟨5*millisecond,9*millisecond⟩,1⟩
    let past : List (Happening Unit) := [.pass (5*millisecond),.wake (5*millisecond),.take (5*millisecond),
      .post (.voteReply ⟨"b"⟩ .one (.ok ⟨true,.one⟩))]
    let later : List (Happening Unit) := [.wake 0,.take 0,.pass (6*millisecond),.wake 0,.take 0]
    d.sentFor (Request.asks .one) (past ++ .take 0 :: later) =
        roster.circular (.vote ⟨.one,⟨"a"⟩⟩) (5*millisecond) ∧
      ∃ rounds, d.sentFor (Request.beats .one) (past ++ .take 0 :: later) =
        roster.beats .one (5*millisecond) millisecond rounds ∧ 6*millisecond ≤ 5*millisecond+rounds*millisecond := by
  intro roster d past later
  have accepted : Roster.ofMembers ⟨"a"⟩ trio = .ok roster := rfl
  have punctual : Along Punctual d (past ++ .take 0 :: later) := by
    have first : ∀ s, 0 ≤ s → s < 5*millisecond → Still s d.mailbox :=
      fun s _ before => still_before (by decide) (by decide) (by decide) before
    have second : ∀ s, 5*millisecond ≤ s → s < 6*millisecond →
        Still s (d.run (past ++ [.take 0,.wake 0,.take 0])).mailbox :=
      fun s _ before => still_before (by decide) (by decide) (by decide) before
    exact ⟨⟨by decide,first⟩,True.intro,True.intro,fun _ => rfl,True.intro,True.intro,True.intro,
      ⟨by decide,second⟩,True.intro,True.intro,True.intro⟩
  obtain ⟨_,asked,_,_,_,beaten⟩ := requests_disciplined accepted ⟨millisecond,⟨5*millisecond,9*millisecond⟩,1⟩ 0
    (5*millisecond) (past ++ .take 0 :: later)
  have begins : (d.run [.pass (5*millisecond),.wake (5*millisecond)]).Begins .one (.take (5*millisecond)) := by
    refine ⟨_,_,rfl,rfl,?_,rfl⟩
    change Standing.timeoutDue _ _ = true
    decide
  have anew : ¬ (d.run past).Leads .one := by decide
  have leads : ((d.run past).does (.take 0)).Leads .one := by decide
  have still : (d.run (past ++ .take 0 :: later)).Leads .one := by decide
  refine ⟨(asked _ [_,_] _ _ rfl begins).sent,?_⟩
  obtain ⟨rounds,beating⟩ := beaten (by decide) punctual _ _ _ _ rfl anew leads
  have ahead := (beating.ahead still).1
  have whole : Time.beat (5*millisecond) millisecond rounds = 5*millisecond+rounds*millisecond :=
    beating.whole (by decide) (by decide) rounds
  exact ⟨rounds,beating.sent,whole ▸ ahead⟩

-- A leadership that begins between two whole milliseconds has its second round less than a millisecond late, and a
-- tick that comes from elsewhere sends one at any time.
theorem second_round_late :
    let roster : Roster := ⟨⟨"a"⟩,⟨"a",100⟩,trio.tail⟩
    let d : Desk Unit := opened 0 5000000 roster ⟨1000000,⟨5000000,9000000⟩,1⟩
    let won : List (Happening Unit) := [.pass 5000000,.wake 5000000,.take 5000000,.pass 5300000,
      .post (.voteReply ⟨"b"⟩ .one (.ok ⟨true,.one⟩)),.take 0,.wake 0,.take 0]
    let onward : List (Happening Unit) := [.pass 6300000,.wake 0,.take 0,.pass 7000000,.wake 0,.take 0]
    let prompted : List (Happening Unit) := [.pass 5600000,.post (.alarm (.heartbeatTick .one)),.take 0]
    let round := roster.circular (.heartbeat ⟨.one,⟨"a"⟩⟩)
    Along Punctual d (won ++ onward) ∧ ((d.run won).now = 5300000 ∧ (d.run won).Leads .one) ∧
      d.sentFor (Request.beats .one) (won ++ onward) = round 5300000 ++ round 7000000 ∧
      d.sentFor (Request.beats .one) (won ++ prompted) = round 5300000 ++ round 5600000 := by
  intro roster d won onward prompted round
  have first : ∀ s, 0 ≤ s → s < 5000000 → Still s d.mailbox :=
    fun s _ before => still_before (by decide) (by decide) (by decide) before
  have second : ∀ s, 5000000 ≤ s → s < 5300000 →
      Still s (d.run [.pass 5000000,.wake 5000000,.take 5000000]).mailbox := by
    intro s _ before
    have soon : s < 10000000 := Nat.lt_trans before (by decide)
    exact still_before (by decide) (by decide) (by decide) soon
  have third : ∀ s, s < 7000000 → Still s (d.run won).mailbox :=
    fun s before => still_before (by decide) (by decide) (by decide) before
  have fourth : ∀ s, s < 7000000 → Still s (d.run (won ++ [.pass 6300000,.wake 0,.take 0])).mailbox :=
    fun s before => still_before (by decide) (by decide) (by decide) before
  have punctual : Along Punctual d (won ++ onward) :=
    ⟨⟨by decide,first⟩,True.intro,True.intro,⟨by decide,second⟩,fun _ => rfl,True.intro,True.intro,True.intro,
      ⟨by decide,fun s _ before => third s (Nat.lt_trans before (by decide))⟩,True.intro,True.intro,
      ⟨by decide,fun s _ before => fourth s before⟩,True.intro,True.intro,True.intro⟩
  exact ⟨punctual,⟨by decide,by decide⟩,by decide,by decide⟩

end Desk
end LeaderElection
