import LeaderElection.Proofs.Transit
import LeaderElection.Simulation.Traffic

namespace LeaderElection

def Shipment.crossing (x : Shipment) : Crossing := ⟨x.origin,x.target,x.deadline,none⟩

namespace Traffic

-- What can happen to traffic between one look at its arrivals and the next. Its clock waits for nobody but
-- those who are due.
inductive Goes (t : Traffic) : Traffic → Prop where
  | dispatch (tag : Option String) (origin target : Address) (request : Request) (timeout : Nat) :
      Goes t (t.dispatch tag origin target request timeout)
  | finish (finished : t.finish i = some next) : Goes t next
  | register (r : Responder) (address : Address) : Goes t (t.register r address).2
  | release (name : String) : Goes t (t.release name)
  | order (o : Partition.Order) : Goes t {t with network := t.network.obey o}
  | pass (onward : t.now ≤ instant) (early : ∀ x ∈ t.shipments, instant ≤ Time.wake x.deadline) :
      Goes t {t with now := instant}

inductive Course : Traffic → Prop where
  | begun : Course create
  | goes (before : Course t) (goes : Goes t next) : Course next

-- Traffic and a transit that has come as far: each shipment has its serial number, each name its guard.
structure Shows (s : Transit Responder) (serials : List Nat) (held : String → Option Nat) (t : Traffic) : Prop where
  now : s.now = t.now
  network : s.network = t.network
  results : s.results.map Prod.snd = t.arrivals.map fun a => (a.time,a.delivery)
  under : serials.map s.waiting.find? = t.shipments.map fun x => some x.crossing
  distinct : serials.Nodup
  keys : ∀ k ∈ s.waiting.keys, k ∈ serials
  below : ∀ k ∈ serials, k < s.serial
  guards : ∀ name, t.guards.find? name = (held name).bind fun i => s.guards[i]?
  within : ∀ name i, held name = some i → i < s.guards.length
  apart : ∀ a b i, held a = some i → held b = some i → a = b

variable {t next : Traffic} {s : Transit Responder} {serials : List Nat} {held : String → Option Nat}

theorem Shows.tracks (shows : Shows s serials held t) :
    s.waiting.Tracks s.serial serials (t.shipments.map Shipment.crossing) :=
  ⟨by rw [shows.under,List.map_map]; rfl,shows.distinct,shows.keys,shows.below⟩

theorem Shows.begun : Shows (.opened 0) [] (fun _ => none) create :=
  ⟨rfl,rfl,rfl,rfl,List.nodup_nil,nofun,nofun,fun _ => rfl,nofun,nofun⟩

theorem Shows.order (shows : Shows s serials held t) (o : Partition.Order) :
    Shows (s.does (.order o)) serials held {t with network := t.network.obey o} :=
  {shows with network := congrArg (fun net => Network.obey net o) shows.network}

theorem Shows.pass (shows : Shows s serials held t) (onward : t.now ≤ instant)
    (early : ∀ x ∈ t.shipments, instant ≤ Time.wake x.deadline) :
    Shows (s.does (.pass instant)) serials held {t with now := instant} := by
  have idle : s.idle instant = true := by
    refine List.all_eq_true.mpr ?_
    intro k present
    obtain ⟨y,held,found⟩ := shows.tracks.value present
    obtain ⟨x,shipped,rfl⟩ := List.mem_map.mp held
    rw [found]
    simpa [Shipment.crossing] using early x shipped
  have moved : s.does (.pass instant) = {s with now := instant} := if_pos ⟨shows.now ▸ onward,idle⟩
  rw [moved]
  exact {shows with now := rfl}

theorem Shows.dispatch (shows : Shows s serials held t) (tag : Option String) (origin target : Address)
    (request : Request) (timeout : Nat) : ∃ serials',
    Shows (s.does (.send origin target request timeout)) serials' held
      (t.dispatch tag origin target request timeout) := by
  have routed : s.network.route origin target = t.network.route origin target := by rw [shows.network]
  rw [Transit.does]
  unfold Transit.send Traffic.dispatch
  rw [routed]
  cases t.network.route origin target with
  | error e =>
      refine ⟨serials,{shows with results := ?_, below := ?_}⟩
      · simp [shows.results,shows.now]
      · exact fun k known => Nat.lt_succ_of_lt (shows.below k known)
  | ok r =>
      have tracked := shows.tracks.put ⟨origin,target,s.now+timeout,none⟩
      refine ⟨serials ++ [s.serial],{shows with
        under := ?_, distinct := tracked.distinct, keys := tracked.keys, below := tracked.below}⟩
      rw [tracked.under]
      simp [Shipment.crossing,shows.now]

-- A guard that is let go leaves the others in place.
theorem Shows.release (shows : Shows s serials held t) (name : String) : ∃ acts,
    Shows (s.run acts) serials held (t.release name) ∧
      ∀ i, held name ≠ some i → (s.run acts).guards[i]? = s.guards[i]? := by
  have known := shows.guards name
  unfold Traffic.release
  cases present : held name with
  | none =>
      rw [present] at known
      rw [known]
      exact ⟨[],shows,fun _ _ => rfl⟩
  | some i =>
      have short := shows.within name i present
      have found := List.getElem?_eq_getElem short
      rw [present,Option.bind_some,found] at known
      rw [known]
      have acted : s.run [.withdraw i] = {s with
          network := (s.guards[i].finish t.network).2, guards := s.guards.set i (s.guards[i].finish t.network).1} := by
        rw [Transit.run,Transit.does,Transit.withdraw,found,shows.network]
        rfl
      refine ⟨[.withdraw i],?_,?_⟩
      · rw [acted]
        refine {shows with network := rfl, guards := ?_, within := ?_}
        · intro other
          rw [Directory.find?_put]
          by_cases same : other = name
          · subst same
            rw [Function.update_self,present,Option.bind_some,List.getElem?_set_self short]
          · rw [Function.update_of_ne same,shows.guards other]
            cases taken : held other with
            | none => rfl
            | some j =>
                have differ : i ≠ j := by
                  rintro rfl
                  exact same (shows.apart other name i taken present)
                rw [Option.bind_some,Option.bind_some,List.getElem?_set_ne differ]
        · intro other j taken
          rw [List.length_set]
          exact shows.within other j taken
      · intro j differ
        rw [acted,List.getElem?_set_ne fun same => differ (congrArg some same)]

-- A shipment that is over: its serial number is not used any more.
theorem Shows.ended (shows : Shows s serials held t) (numbered : serials[i]? = some k) (d : Delivery) (tag : Option String)
    {waiting : Directory Nat Crossing} (others : ∀ j, j ≠ k → waiting.find? j = s.waiting.find? j)
    (keys : ∀ j ∈ waiting.keys, j ≠ k ∧ j ∈ s.waiting.keys) :
    Shows {s with waiting, results := s.results ++ [(k,s.now,d)]} (serials.eraseIdx i) held
      {t with shipments := t.shipments.eraseIdx i, arrivals := t.arrivals ++ [⟨tag,t.now,d⟩]} := by
  have tracked := shows.tracks.drop numbered others keys
  refine {shows with results := ?_, under := ?_, distinct := tracked.distinct, keys := tracked.keys, below := tracked.below}
  · simp [shows.results,shows.now]
  · rw [tracked.under,List.eraseIdx_map,List.map_map]
    rfl

-- A shipment that is polled at its time: its handler is through with it by then, or it is too late.
theorem Shows.finish (shows : Shows s serials held t) (finished : t.finish i = some next) :
    ∃ acts, Shows (s.run acts) (serials.eraseIdx i) held next := by
  obtain ⟨x,found,finished⟩ := Option.bind_eq_some_iff.mp finished
  obtain ⟨d,arrived,same⟩ := Option.bind_eq_some_iff.mp finished
  cases same
  have crossing : (t.shipments.map Shipment.crossing)[i]? = some x.crossing := by
    rw [List.getElem?_map,found,Option.map_some]
  obtain ⟨k,numbered,waits⟩ := shows.tracks.number crossing
  have due : s.outcome {x.crossing with
      answer := if Time.passed x.readyAt t.now then some x.reply else none} = some d := by
    rw [← arrived]
    unfold Transit.outcome Traffic.outcome
    rw [shows.now,shows.network]
    cases Time.passed x.readyAt t.now <;> rfl
  cases ready : Time.passed x.readyAt t.now with
  | false =>
      rw [ready] at due
      refine ⟨[.poll k],?_⟩
      rw [Transit.run,Transit.does,Transit.poll_parts waits due]
      exact shows.ended numbered d _ (fun _ differ => Directory.find?_remove _ differ) fun _ => Directory.remove_keys_mem.mp
  | true =>
      rw [ready] at due
      refine ⟨[.answer k x.reply,.poll k],?_⟩
      let crossed : Crossing := {x.crossing with answer := some x.reply}
      let answered := {s with waiting := s.waiting.put k crossed}
      have acted : s.answer k x.reply = answered := Transit.answer_parts waits _
      have held : answered.waiting.find? k = some crossed := by
        rw [Directory.find?_put,Function.update_self]
      rw [Transit.run,Transit.run,Transit.run,Transit.does,Transit.does,acted,Transit.poll_parts held due]
      refine shows.ended numbered d _ ?_ ?_
      · intro j differ
        rw [Directory.find?_remove _ differ,Directory.find?_put,Function.update_of_ne differ]
      · intro j present
        obtain ⟨differ,known⟩ := Directory.remove_keys_mem.mp present
        exact ⟨differ,(Directory.put_keys_mem.mp known).resolve_left differ⟩

-- A name comes to hold a guard that no name holds.
theorem Shows.hold (shows : Shows s serials held t) (name : String) (found : s.guards[j]? = some g)
    (unheld : ∀ other i, held other = some i → i ≠ j) (begun : Directory String Nat) :
    Shows s serials (Function.update held name (some j)) {t with guards := t.guards.put name g, begun} := by
  refine {shows with guards := ?_, within := ?_, apart := ?_}
  · intro other
    rw [Directory.find?_put]
    by_cases same : other = name
    · rw [same,Function.update_self,Function.update_self,Option.bind_some,found]
    · rw [Function.update_of_ne same,Function.update_of_ne same]
      exact shows.guards other
  · intro other i taken
    by_cases same : other = name
    · rw [same,Function.update_self] at taken
      cases taken
      exact (List.getElem?_eq_some_iff.mp found).1
    · rw [Function.update_of_ne same] at taken
      exact shows.within other i taken
  · intro a b i
    by_cases first : a = name <;> by_cases second : b = name
    · exact fun _ _ => first.trans second.symm
    · rw [first,Function.update_self,Function.update_of_ne second]
      exact fun newest taken => absurd (Option.some.inj newest).symm (unheld b i taken)
    · rw [second,Function.update_self,Function.update_of_ne first]
      exact fun taken newest => absurd (Option.some.inj newest).symm (unheld a i taken)
    · rw [Function.update_of_ne first,Function.update_of_ne second]
      exact shows.apart a b i

-- A name that is taken over lets go of the guard it held, once there is another.
theorem Shows.register (shows : Shows s serials held t) (r : Responder) (address : Address) :
    ∃ acts held', Shows (s.run acts) serials held' (t.register r address).2 := by
  unfold Traffic.register
  cases tried : t.network.register address r with
  | error e => exact ⟨[],held,shows⟩
  | ok placed =>
      obtain ⟨g,network⟩ := placed
      have acted : s.does (.register address r) = {s with network, guards := s.guards ++ [g]} := by
        rw [Transit.does,Transit.register,shows.network,tried]
      have placed : Shows (s.does (.register address r)) serials held {t with network} := by
        rw [acted]
        refine {shows with network := rfl, guards := ?_, within := ?_}
        · intro name
          rw [shows.guards name]
          cases taken : held name with
          | none => rfl
          | some i => rw [Option.bind_some,Option.bind_some,List.getElem?_append_left (shows.within name i taken)]
        · intro name i taken
          rw [List.length_append]
          exact Nat.lt_add_right _ (shows.within name i taken)
      obtain ⟨acts,freed,others⟩ := placed.release r.name
      have newest : ((s.does (.register address r)).run acts).guards[s.guards.length]? = some g := by
        rw [others,acted]
        · exact List.getElem?_concat_length
        · exact fun taken => Nat.lt_irrefl _ (shows.within r.name _ taken)
      refine ⟨.register address r :: acts,_,freed.hold r.name newest ?_ _⟩
      exact fun name i taken => Nat.ne_of_lt (shows.within name i taken)

theorem Shows.goes (shows : Shows s serials held t) (goes : Goes t next) :
    ∃ acts serials' held', Shows (s.run acts) serials' held' next := by
  cases goes with
  | dispatch tag origin target request timeout =>
      obtain ⟨serials',shown⟩ := shows.dispatch tag origin target request timeout
      exact ⟨[.send origin target request timeout],serials',held,shown⟩
  | finish finished =>
      obtain ⟨acts,shown⟩ := shows.finish finished
      exact ⟨acts,_,held,shown⟩
  | register r address =>
      obtain ⟨acts,held',shown⟩ := shows.register r address
      exact ⟨acts,serials,held',shown⟩
  | release name =>
      obtain ⟨acts,shown,_⟩ := shows.release name
      exact ⟨acts,serials,held,shown⟩
  | order o => exact ⟨[.order o],serials,held,shows.order o⟩
  | @pass instant onward early => exact ⟨[.pass instant],serials,held,shows.pass onward early⟩

-- Whatever happens to traffic, it has come as far as some transit, with the same arrivals.
theorem traffic_in_transit (course : Course t) : ∃ acts,
    let s := (Transit.opened 0 : Transit Responder).run acts
    s.now = t.now ∧ s.network = t.network ∧ s.results.map Prod.snd = t.arrivals.map fun a => (a.time,a.delivery) := by
  have shown : ∃ acts serials held, Shows ((Transit.opened 0).run acts) serials held t := by
    induction course with
    | begun => exact ⟨[],[],_,.begun⟩
    | goes before goes ih =>
        obtain ⟨acts,serials,held,shows⟩ := ih
        obtain ⟨more,serials',held',next⟩ := shows.goes goes
        rw [← Transit.run_append] at next
        exact ⟨acts ++ more,serials',held',next⟩
  obtain ⟨acts,_,_,shows⟩ := shown
  exact ⟨acts,shows.now,shows.network,shows.results⟩

end Traffic
end LeaderElection
