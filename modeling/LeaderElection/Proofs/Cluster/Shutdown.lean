import LeaderElection.Proofs.Cluster.Closing

namespace LeaderElection.Cluster

variable {c : Cluster} {s : Nat} {r : Resident} {x : Act} {a : Address} {config : Config}

theorem rest_exact (lives : c.residents.find? s = some r) :
    c.rest s = {c with residents := c.residents.put s {r with station := r.station.rest}} := change_exact lives _

theorem answer_nobody (receipts : List (Nat × Receipt)) (nobody : ∀ p ∈ c.passages, receipts.lookup p.ticket = none) :
    c.answer receipts = c := by
  unfold answer
  congr 1
  refine (List.map_congr_left ?_).trans (List.map_id _)
  intro p present
  rw [nobody p present]
  rfl

-- Shutting down once more: the next number is used up, and the detector is put to rest again.
theorem shutdown_again (orderly : c.Orderly) (lives : c.residents.find? s = some r) (spent : r.Spent) :
    let again := (c.close s).rest s
    again = {c with residents := again.residents, counter := c.counter+1} ∧
      again.residents.find? = Function.update c.residents.find? s (some {r with station := r.station.rest}) := by
  have closed : c.close s = {c with residents := c.residents.put s r, counter := c.counter+1} := by
    rw [close_exact lives,Guard.finish_exact,spent.disarmed,spent.again]
    have there : (c.residents.put s r).find? s = some r := Directory.find?_put_self ..
    rw [post_refused there (Mailbox.post_stopped spent.stopped _)]
    refine answer_nobody _ ?_
    intro p present
    have earlier : (p.ticket == c.counter) = false := beq_false_of_ne (Nat.ne_of_lt (orderly.tickets p present))
    simp [Event.refused,Event.asker?,List.lookup_cons,earlier]
  have there : (c.close s).residents.find? s = some r := by
    rw [closed]
    exact Directory.find?_put_self ..
  intro again
  have rested : again = _ := rest_exact there
  rw [rested,closed]
  refine ⟨rfl,?_⟩
  dsimp only
  rw [Directory.find?_put,Directory.find?_put,Function.update_idem]

theorem finish_free (free : c.network.handlers.find? a = none) (g : Guard) :
    (g.finish c.network).2.handlers.find? a = none := by
  rw [Guard.finish_exact]
  dsimp only
  split
  · exact Directory.remove_free free
  · exact free

-- Nobody gets an address that is free but by claiming it.
theorem free_does (free : c.network.handlers.find? a = none) (unclaimed : ¬ x.claims a) :
    (c.does x).network.handlers.find? a = none := by
  have effect := does_effect x c
  generalize c.does x = after at effect ⊢
  cases effect with
  | goes goes => exact goes.handlers ▸ free
  | occupied => exact (Directory.find?_put_other _ (fun same => unclaimed same.symm) _).trans free
  | vacated => exact Directory.remove_free free
  | adjusted => exact free
  | founded accepted =>
      refine (Directory.find?_put_other _ ?_ _).trans free
      exact fun same => unclaimed ((Config.own_address accepted).mpr same)
  | closed lives =>
      rw [close_exact lives,(post_apart ..).1]
      exact finish_free free _
  | abandoned lives =>
      rw [abandon_exact lives]
      exact finish_free free _

theorem free_live {xs : List Act} (free : c.network.handlers.find? a = none) (unclaimed : ∀ x ∈ xs, ¬ x.claims a) :
    (c.live xs).network.handlers.find? a = none := by
  induction xs generalizing c with
  | nil => exact free
  | cons x rest ih =>
      exact ih (free_does free (unclaimed x List.mem_cons_self)) fun y later => unclaimed y (List.mem_cons_of_mem _ later)

-- A creation with the network and the clock of a cluster. The member is there where it has been made.
def attempt (latest : Nat) (config : Config) (c : Cluster) : Attempt × Cluster :=
  let (ended,after) := config.attempt latest c.counter c.now
    (c.draws.within config.options.filled.timings.election) c.network
  match ended with
  | .made _ station guard => (ended,{c with
      network := after
      residents := c.residents.put c.counter (.fresh config.me guard station)
      serials := c.serials.put config.me c.counter
      counter := c.counter+1
      draws := c.draws.next})
  | _ => (ended,{c with network := after})

-- A creation that does not fail comes to what a launch comes to, and one that fails changes nothing.
inductive Attempted (c : Cluster) (config : Config) : Attempt × Cluster → Prop where
  | refused (failed : c.launch config = .error cause) : Attempted c config (.refused cause,c)
  | broken : Attempted c config (.broken,c)
  | made {guard : Guard} (made : c.launch config = .ok (roster,station,guard,after)) :
      Attempted c config (.made roster station guard,c.found config)

variable {roster : Roster} {station : Station} {guard : Guard} {network : Network Nat}

theorem found_exact (made : c.launch config = .ok (roster,station,guard,network)) : c.found config = {c with
    network
    residents := c.residents.put c.counter (.fresh config.me guard station)
    serials := c.serials.put config.me c.counter
    counter := c.counter+1
    draws := c.draws.next} := by
  rw [found,made]

theorem start_failed (failed : c.launch config = .error e) : c.start config = (.error e,c) := by
  have refused : config.launch (fun a => c.network.register a c.counter) c.now
      (c.draws.within config.options.filled.timings.election) = .error e := failed
  simp only [start,refused]

theorem attempt_attempted (latest : Nat) (config : Config) (c : Cluster) :
    c.Attempted config (c.attempt latest config) := by
  cases launched : c.launch config with
  | error cause =>
      have failed : config.launch (fun a => c.network.register a c.counter) c.now
          (c.draws.within config.options.filled.timings.election) = .error cause := launched
      rw [attempt,Config.attempt,failed]
      exact .refused launched
  | ok made =>
      obtain ⟨roster,station,guard,network⟩ := made
      obtain ⟨_,_,free,_,rfl,rfl⟩ := (launched ▸ launch_launched config c).made_parts
      have succeeds : config.launch (fun a => c.network.register a c.counter) c.now
          (c.draws.within config.options.filled.timings.election) = .ok (roster,station,⟨roster.address,true⟩,_) := launched
      let draw := c.draws.within config.options.filled.timings.election
      rcases Nat.lt_or_ge latest (c.now+draw) with late | time
      · have comes : config.attempt latest c.counter c.now draw c.network = (.broken,c.network) := by
          rw [Config.attempt,succeeds]
          simp [draw,Nat.not_le.mpr late,Guard.finish,Directory.put_remove free]
        rw [attempt,comes]
        exact .broken
      · have comes : config.attempt latest c.counter c.now draw c.network =
            (.made roster station ⟨roster.address,true⟩,
              {c.network with handlers := c.network.handlers.put roster.address c.counter}) := by
          rw [Config.attempt,succeeds]
          exact if_pos time
        have entered : c.Attempted config (_,c.found config) := .made launched
        rw [found_exact launched] at entered
        rw [attempt,comes]
        exact entered

theorem attempt_ended (latest : Nat) (config : Config) (c : Cluster) :
    (c.attempt latest config).1 = (config.attempt latest c.counter c.now
      (c.draws.within config.options.filled.timings.election) c.network).1 := by
  unfold attempt
  dsimp only
  split <;> rfl

-- Letting go of a member and giving a free address to another may come in either order.
theorem abandon_placed (orderly : c.Orderly) (free : c.network.handlers.find? a = none) (n : Nat) (s : Nat) :
    Cluster.abandon {c with network := {c.network with handlers := c.network.handlers.put a n}} s =
      {c.abandon s with network := {(c.abandon s).network with handlers := (c.abandon s).network.handlers.put a n}} := by
  cases lives : c.residents.find? s with
  | none => simp only [Cluster.abandon,lives]
  | some r =>
      have placed := abandon_exact (c := {c with
        network := {c.network with handlers := c.network.handlers.put a n}}) lives
      rw [placed,abandon_exact lives,Guard.finish_exact,Guard.finish_exact]
      cases armed : r.guard.armed with
      | false => rfl
      | true =>
          have elsewhere : r.guard.address ≠ a := by
            rintro rfl
            cases free.symm.trans (orderly.serves s r lives armed).1
          simp only [if_true,Directory.remove_put _ elsewhere]

-- What a start comes to: a predecessor of the same id is let go, and then everything comes to rest.
theorem start_found (orderly : c.Orderly) (made : c.launch config = .ok (roster,station,guard,network)) :
    c.start config =
      (.ok (roster,station),Schedule.settle (((c.serial? config.me).elim c c.abandon).found config)) := by
  have launched : config.launch (fun a => c.network.register a c.counter) c.now
      (c.draws.within config.options.filled.timings.election) = .ok (roster,station,guard,network) := made
  obtain ⟨valid,accepted,free,rfl,rfl,rfl⟩ := (made ▸ launch_launched config c).made_parts
  simp only [start,launched]
  congr 2
  cases c.serial? config.me with
  | none => exact (found_exact made).symm
  | some old =>
      obtain ⟨now,counter,draws⟩ : (c.abandon old).now = c.now ∧ (c.abandon old).counter = c.counter ∧
          (c.abandon old).draws = c.draws := by
        cases lives : c.residents.find? old with
        | none => simp only [abandon,lives,and_self]
        | some r => simp only [abandon_exact lives,and_self]
      have made' := (launch_launched config (c.abandon old)).made_exact valid accepted
        (free_does free (x := .abandon old) id)
      rw [now,counter,draws] at made'
      rw [Option.elim,Option.elim,abandon_placed orderly free,found_exact made',counter,draws]
      rfl

theorem shutdown_closes {id : NodeId} (owned : c.owned? id = some (s,r)) :
    c.shutdown id = some (Schedule.settle ((Schedule.settle (c.close s)).rest s)) := by
  have lives : c.residents.find? s = some r := by
    simp only [owned?,Option.bind_eq_bind,Option.bind_eq_some_iff] at owned
    obtain ⟨t,_,q,lives,same⟩ := owned
    split at same
    · cases same
      exact lives
    · cases same
  rw [shutdown,owned,close,lives]
  rfl

-- A cluster comes to rest by making moves.
theorem settle_live (c : Cluster) : ∃ ms : List Move, Schedule.settle c = c.live (ms.map .move) := by
  have moves := Schedule.settle_moves c
  generalize Schedule.settle c = last at moves
  induction moves with
  | rest => exact ⟨[],rfl⟩
  | @move m first after last performed _ ih =>
      obtain ⟨ms,same⟩ := ih
      refine ⟨m :: ms,same.trans ?_⟩
      have does : first.does (.move m) = after := by rw [does,show perform m first = some after from performed]; rfl
      rw [List.map_cons,live,does]

-- A member keeps its address until its owner ends that.
theorem found_serves (orderly : c.Orderly) (made : c.launch config = .ok (roster,station,guard,network)) {during : List Act}
    (lasting : ∀ x ∈ during, ¬ x.ends c.counter) :
    ((c.found config).live during).Has c.counter fun r => r.guard = ⟨roster.address,true⟩ := by
  obtain ⟨_,_,_,_,guard',_⟩ := (made ▸ launch_launched config c).made_parts
  have fresh : (c.found config).Has c.counter fun r => r.guard = ⟨roster.address,true⟩ := by
    rw [found_exact made]
    exact ⟨_,Directory.find?_put_self ..,guard'⟩
  have founded : (c.found config).Orderly := orderly.does (.found config)
  exact fresh.live founded fun x listed => guard_lasting (lasting x listed) _

-- A loop that has been told to stop has stopped once it had as many turns, or once nothing is left to do.
theorem close_stops (orderly : c.Orderly) (serving : c.Has s fun r => r.guard = ⟨a,true⟩) {closing : List Act}
    (done : c.waiting s < closing.countP (Act.takes s) ∨ Schedule.act ((c.close s).live closing) = none) :
    ((c.close s).live closing).Stopped s := by
  obtain ⟨r,lives,_,near⟩ := close_closing orderly serving
  have closes : (c.close s).Has s fun r => r.station.mailbox.Closing (c.waiting s+1) := ⟨r,lives,near⟩
  have closed : (c.close s).Orderly := orderly.does (.close s)
  rcases done with turns | idle
  · exact turns_stop closed closes turns
  · exact idle_stopped idle (closes.live closed fun x _ => closing_lasting _ x)

-- A loop that has stopped leaves the rest of a shutdown to be done, whatever has happened meanwhile.
theorem rest_leaves (orderly : c.Orderly) (serving : c.Has s fun r => r.guard = ⟨a,true⟩) {closing : List Act}
    (stopped : ((c.close s).live closing).Stopped s) : let e := (c.close s).live closing
    (e.rest s).Has s Resident.Gone ∧ (e.rest s).network = e.network ∧
      ∀ t, t ≠ s → (e.rest s).residents.find? t = e.residents.find? t := by
  intro e
  obtain ⟨q,lives,disarmed,_⟩ := close_closing orderly serving
  have ended : (c.close s).Has s fun r => r.guard = ⟨a,false⟩ := ⟨q,lives,disarmed⟩
  have closed : (c.close s).Orderly := orderly.does (.close s)
  obtain ⟨r,there,guard⟩ := ended.live closed fun x _ => disarmed_lasting a x
  obtain ⟨r',there',exited⟩ := stopped
  cases there.symm.trans there'
  have spent : r.guard.armed = false := by rw [guard]
  rw [rest_exact there]
  refine ⟨⟨_,Directory.find?_put_self ..,Resident.rest_gone spent exited⟩,rfl,?_⟩
  exact fun t other => Directory.find?_put_other _ other _

-- A member that comes to be under the next number, with nothing but its own address.
structure Enters (config : Config) (c : Cluster) (roster : Roster) (station : Station) (guard : Guard)
    (fresh : Cluster) : Prop where
  starts : c.start config =
    (.ok (roster,station),Schedule.settle (((c.serial? config.me).elim c c.abandon).found config))
  found : fresh = c.found config
  vacant : c.residents.find? c.counter = none
  handlers : fresh.network.handlers.find? = Function.update c.network.handlers.find? roster.address (some c.counter)
  residents : fresh.residents.find? = Function.update c.residents.find? c.counter (some (.fresh config.me guard station))

theorem enters (orderly : c.Orderly) (made : c.launch config = .ok (roster,station,guard,network)) :
    Enters config c roster station guard (c.found config) := by
  obtain ⟨_,_,_,_,_,placed⟩ := (made ▸ launch_launched config c).made_parts
  refine ⟨start_found orderly made,rfl,?_,?_,?_⟩
  · cases lives : c.residents.find? c.counter with
    | none => rfl
    | some r => exact absurd (orderly.numbered _ r lives) (Nat.lt_irrefl _)
  · rw [found_exact made,placed]
    exact Directory.find?_put ..
  · rw [found_exact made]
    exact Directory.find?_put ..

-- A member that serves an address, and the first part of its shutdown.
structure Shuts (s : Nat) (a : Address) (d : Cluster) : Prop where
  serving : d.network.handlers.find? a = some s
  partition : (d.close s).network.partition = d.network.partition
  removed : (d.close s).network.handlers.find? = Function.update d.network.handlers.find? a none
  others : ∀ t, t ≠ s → (d.close s).residents.find? t = d.residents.find? t
  asked : ∀ id r, d.owned? id = some (s,r) →
    d.shutdown id = some (Schedule.settle ((Schedule.settle (d.close s)).rest s))
  settled : ∃ ms : List Move, Schedule.settle (d.close s) = (d.close s).live (ms.map .move)
  stops : ∀ closing, let e := (d.close s).live closing
    d.waiting s < closing.countP (Act.takes s) ∨ Schedule.act e = none → e.Stopped s
  vacant : ∀ (later : List Act) (next : Config) (latest : Nat), let e := (d.close s).live later
    (∀ x ∈ later, ¬ x.claims a) → next.options.filled.Valid → next.Admitted → ⟨next.me,a⟩ ∈ next.members →
    e.now+e.draws.within next.options.filled.timings.election ≤ latest →
    ∃ roster station guard, (e.attempt latest next).1 = .made roster station guard

theorem shuts (orderly : c.Orderly) (lives : c.residents.find? s = some r) (guard : r.guard = ⟨a,true⟩) :
    Shuts s a c := by
  obtain ⟨network,others⟩ := close_apart lives guard
  have serving := (orderly.serves s r lives (by rw [guard])).1
  have free : (c.close s).network.handlers.find? a = none := by
    rw [network]
    exact Directory.find?_remove_self ..
  refine ⟨by rwa [guard] at serving,by rw [network],?_,others,fun id r owned => shutdown_closes owned,
    settle_live (c.close s),fun closing => close_stops orderly ⟨r,lives,guard⟩,?_⟩
  · rw [network]
    exact Directory.find?_removed ..
  · intro later next latest e unclaimed valid admitted own time
    have ends := next.attempt_ends e.network e.counter e.now
      (e.draws.within next.options.filled.timings.election) latest
    obtain ⟨roster,station,guard,made⟩ := ends.made.mpr ⟨valid,admitted,⟨a,own,free_live free unclaimed⟩,time⟩
    exact ⟨roster,station,guard,attempt_ended latest next e ▸ made⟩

-- The second part, for a member whose loop has stopped: its monitor and its memory of peers go too.
structure Rests (s : Nat) (e : Cluster) : Prop where
  adjusts : e.rest s = e.does (.adjust s fun kept => kept.stop.1.clear)
  network : (e.rest s).network = e.network
  others : ∀ t, t ≠ s → (e.rest s).residents.find? t = e.residents.find? t
  gone : (e.rest s).Has s Resident.Gone

-- After a shutdown nothing is answered any more. Another one stops the monitor and forgets the peers once more,
-- if there are any by then, and does nothing else.
structure Rested (s : Nat) (f : Cluster) : Prop where
  answers : ∀ asker, f.post s (.status asker) = f.answer [(asker,.stopped)]
  again : ∃ r, f.residents.find? s = some r ∧ r.Spent ∧
    (f.close s).rest s = {f with residents := ((f.close s).rest s).residents, counter := f.counter+1} ∧
    ((f.close s).rest s).residents.find? =
      Function.update f.residents.find? s (some {r with station := r.station.rest})
  nothing : f.Has s Resident.Gone → ((f.close s).rest s).residents.find? = f.residents.find?

theorem rested (orderly : c.Orderly) (has : c.Has s Resident.Spent) : Rested s c := by
  obtain ⟨r,lives,spent⟩ := has
  obtain ⟨same,residents⟩ := shutdown_again orderly lives spent
  refine ⟨fun asker => post_refused lives (Mailbox.post_stopped spent.stopped _),⟨r,lives,spent,same,residents⟩,?_⟩
  rintro ⟨r',lives',gone⟩
  cases lives.symm.trans lives'
  rw [residents,gone.again,← lives,Function.update_eq_self]

-- A creation takes its own address or changes nothing, and a shutdown gives back what the creation took. Anything
-- may happen in between and afterwards.
theorem shutdown_undoes_creation (config : Config) (latest : Nat) :
    (∀ {η : Type} (net : Network η) (handler : η) (now draw : Nat),
      let result := config.attempt latest handler now draw net
      config.Ends net handler now draw latest result.1 result.2) ∧
    ∀ (draws : Draws) (past : List Act),
      let c := (create draws).live past
      let result := c.attempt latest config
      result.1 = (config.attempt latest c.counter c.now (c.draws.within config.options.filled.timings.election)
        c.network).1 ∧
      ((∀ roster station guard, result.1 ≠ .made roster station guard) → result.2 = c) ∧
      (∀ cause, result.1 = .refused cause → c.start config = (.error cause,c)) ∧
      ∀ roster station guard, result.1 = .made roster station guard →
        let s := c.counter
        Enters config c roster station guard result.2 ∧
        ∀ during, (∀ x ∈ during, ¬ x.ends s) →
          let d := result.2.live during
          Shuts s roster.address d ∧
          ∀ closing, let e := (d.close s).live closing
            e.Stopped s → Rests s e ∧
            ∀ after, let f := (e.rest s).live after
              Rested s f ∧ ((∀ x ∈ after, ¬ x.adjusts s) → f.Has s Resident.Gone) := by
  refine ⟨fun net handler now draw => config.attempt_ends net handler now draw latest,?_⟩
  intro draws past c result
  have orderly : c.Orderly := (Orderly.created draws).live past
  have attempted : c.Attempted config result := attempt_attempted latest config c
  refine ⟨attempt_ended latest config c,?_,?_,?_⟩
  · intro failed
    generalize result = ended at attempted failed
    cases attempted with
    | refused => rfl
    | broken => rfl
    | made => exact absurd rfl (failed _ _ _)
  · intro cause refused
    generalize result = ended at attempted refused
    cases attempted with
    | refused failed =>
        cases refused
        exact start_failed failed
    | broken => cases refused
    | made => cases refused
  · intro roster station guard made s
    obtain ⟨network,launched,found⟩ : ∃ network, c.launch config = .ok (roster,station,guard,network) ∧
        result.2 = c.found config := by
      generalize result = ended at attempted made
      cases attempted with
      | refused => cases made
      | broken => cases made
      | made launched =>
          cases made
          exact ⟨_,launched,rfl⟩
    rw [found]
    refine ⟨enters orderly launched,?_⟩
    intro during lasting d
    have orderly' : d.Orderly := (orderly.does (.found config)).live during
    obtain ⟨r,lives,held⟩ := found_serves orderly launched lasting
    refine ⟨shuts orderly' lives held,?_⟩
    intro closing e stopped
    obtain ⟨gone,network,others⟩ := rest_leaves orderly' ⟨r,lives,held⟩ stopped
    refine ⟨⟨rfl,network,others,gone⟩,?_⟩
    intro after f
    have ended : e.Orderly := (orderly'.does (.close s)).live closing
    have rests : (e.rest s).Orderly := ended.does (.adjust s fun kept => kept.stop.1.clear)
    have spent : (e.rest s).Has s Resident.Spent := gone.imp fun _ there => ⟨there.1,there.2.toSpent⟩
    refine ⟨rested (rests.live after) (spent.live rests fun x _ => spent_lasting s x),?_⟩
    exact fun untouched => gone.live rests fun x listed => gone_lasting (untouched x listed)

def alone : Config := ⟨⟨"a"⟩,[⟨⟨"a"⟩,⟨"a",1⟩⟩],⟨none,none,none,none,none,none⟩⟩

theorem alone_admitted : alone.options.filled.Valid ∧ alone.Admitted := by
  refine ⟨⟨by decide,by decide,by decide,by decide,by decide⟩,by decide,fun id => ?_⟩
  exact Nat.lt_succ_of_le List.count_le_length

-- A member shuts down that has heard of another. Its address is given to nobody else before.
theorem alone_comes_back :
    let d := (create ⟨fun _ => 0,0⟩).live [.found alone,.adjust 0 fun d => d.mark 3 ⟨"b"⟩]
    let e := (d.close 0).live [.move (.take 0)]
    (∃ cause, (d.attempt Time.last alone).1 = .refused (.serving cause)) ∧ (d.attempt Time.last alone).2 = d ∧
    d.network.handlers.find? ⟨"a",1⟩ = some 0 ∧ (d.close 0).network.handlers.find? ⟨"a",1⟩ = none ∧
    (e.rest 0).Has 0 Resident.Gone ∧ ∃ roster station guard, (e.attempt Time.last alone).1 = .made roster station guard := by
  intro d e
  obtain ⟨valid,admitted⟩ := alone_admitted
  have listed : (⟨⟨"a"⟩,⟨"a",1⟩⟩ : Member) ∈ alone.members := List.mem_singleton_self _
  obtain ⟨law,runs⟩ := shutdown_undoes_creation alone Time.last
  obtain ⟨_,_,_,made⟩ := runs ⟨fun _ => 0,0⟩ []
  obtain ⟨_,lives⟩ := made _ _ _ rfl
  obtain ⟨shuts,stops⟩ := lives [.adjust 0 fun d => d.mark 3 ⟨"b"⟩] (by simp [Act.ends])
  have stopped : e.Stopped 0 := shuts.stops [.move (.take 0)] (.inl (by decide))
  obtain ⟨rests,_⟩ := stops [.move (.take 0)] stopped
  obtain ⟨same,unmade,_⟩ := runs ⟨fun _ => 0,0⟩ [.found alone,.adjust 0 fun d => d.mark 3 ⟨"b"⟩]
  have served : d.network.handlers.find? ⟨"a",1⟩ = some 0 := shuts.serving
  obtain ⟨cause,refused⟩ := (law d.network d.counter d.now
    (d.draws.within alone.options.filled.timings.election)).taken.mpr ⟨valid,admitted,_,listed,served ▸ nofun⟩
  have refused' : (d.attempt Time.last alone).1 = .refused (.serving cause) := same.trans refused
  refine ⟨⟨cause,refused'⟩,unmade fun _ _ _ made => ?_,served,?_,rests.gone,?_⟩
  · cases refused'.symm.trans made
  · exact (congrFun shuts.removed _).trans (Function.update_self ..)
  · exact shuts.vacant [.move (.take 0)] alone Time.last (by simp [Act.claims]) valid admitted listed (by decide)

def patient : Config := {alone with options := ⟨some (UInt64.size/2*1000*millisecond),some (UInt64.size*1000*millisecond),
  none,none,none,none⟩}

-- A second shutdown forgets what was heard of after the first. And no member comes to be, whatever is drawn, where
-- the clock ends before the first timeout.
theorem second_shutdown_forgets :
    let c := (create ⟨fun _ => 0,0⟩).found alone
    let e := ((c.close 0).live [.move (.take 0)]).rest 0
    let f := e.live [.adjust 0 fun d => d.mark 3 ⟨"b"⟩]
    let known (c : Cluster) := (c.residents.find? 0).map fun r => r.station.detector.known
    e.Has 0 Resident.Gone ∧ known f = some [⟨"b"⟩] ∧ known ((f.close 0).rest 0) = some [] ∧
    patient.options.filled.Valid ∧ patient.Admitted ∧
    ∀ draws, ((create draws).attempt Time.last patient).1 = .broken := by
  intro c e f known
  have valid : patient.options.filled.Valid := ⟨by decide,by decide,by decide,by decide,by decide⟩
  have heard : known f = some (NodeId.sort [⟨"b"⟩]) := rfl
  have forgotten : known ((f.close 0).rest 0) = some (NodeId.sort []) := rfl
  rw [NodeId.sort,List.mergeSort_singleton] at heard
  rw [NodeId.sort,List.mergeSort_nil] at forgotten
  refine ⟨⟨_,rfl,⟨rfl,rfl⟩,rfl,rfl⟩,heard,forgotten,valid,alone_admitted.2,?_⟩
  intro draws
  have listed : (⟨⟨"a"⟩,⟨"a",1⟩⟩ : Member) ∈ patient.members := List.mem_singleton_self _
  have drawn := draws.within_holds patient.options.filled.timings.election
  rw [Range.Holds,if_neg (by decide)] at drawn
  have late : Time.last < patient.options.filled.timings.election.start := by decide
  have ends := patient.attempt_ends Network.empty 0 0 (draws.within patient.options.filled.timings.election) Time.last
  rw [attempt_ended]
  exact ends.broken.mpr ⟨valid,alone_admitted.2,⟨_,listed,rfl⟩,
    Nat.lt_of_lt_of_le late (Nat.le_trans drawn.1 (Nat.le_add_left _ _))⟩

end LeaderElection.Cluster
