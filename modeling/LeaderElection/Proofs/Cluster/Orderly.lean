import LeaderElection.Proofs.Cluster.Acts

namespace LeaderElection.Cluster

variable {c next : Cluster} {s : Nat} {r : Resident} {x : Act}

-- Numbers are given once. Whoever has a live guard serves its address, and nobody has let go of it.
structure Orderly (c : Cluster) : Prop where
  numbered : ∀ s r, c.residents.find? s = some r → s < c.counter
  serves : ∀ s r, c.residents.find? s = some r → r.guard.armed = true →
    c.network.handlers.find? r.guard.address = some s ∧ r.station.mailbox.held = true
  tickets : ∀ p ∈ c.passages, p.ticket < c.counter

theorem Orderly.created (draws : Draws) : (create draws).Orderly := by
  have nobody (s : Nat) (r : Resident) : (create draws).residents.find? s ≠ some r := Option.some_ne_none r ∘ Eq.symm
  exact ⟨fun s r lives => absurd lives (nobody s r),fun s r lives => absurd lives (nobody s r),
    fun _ present => absurd present List.not_mem_nil⟩

theorem Orderly.goes (orderly : c.Orderly) (goes : c.Goes next) : next.Orderly := by
  refine ⟨?_,?_,goes.tickets orderly.tickets⟩
  · intro s r lives
    obtain ⟨before,lived,_⟩ := goes.back lives
    exact Nat.lt_of_lt_of_le (orderly.numbered s before lived) goes.counter
  · intro s r lives armed
    obtain ⟨before,lived,chain⟩ := goes.back lives
    obtain ⟨guard,held⟩ := chain_kept chain
    rw [guard] at armed ⊢
    rw [held,goes.handlers]
    exact orderly.serves s before lived armed

-- Another network, on which whoever served an address still does.
theorem Orderly.moved (orderly : c.Orderly) {network : Network Nat} {counter : Nat} (later : c.counter ≤ counter)
    (serves : ∀ s r, c.residents.find? s = some r → r.guard.armed = true →
      c.network.handlers.find? r.guard.address = some s → network.handlers.find? r.guard.address = some s) :
    Orderly {c with network, counter} := by
  refine ⟨?_,?_,fun p present => Nat.lt_of_lt_of_le (orderly.tickets p present) later⟩
  · exact fun s r lives => Nat.lt_of_lt_of_le (orderly.numbered s r lives) later
  · exact fun s r lives armed => (orderly.serves s r lives armed).imp_left (serves s r lives armed)

-- A member that comes, or changes, where the others keep what they have.
theorem Orderly.put (orderly : c.Orderly) {network : Network Nat} {counter : Nat} {r : Resident}
    (later : c.counter ≤ counter) (numbered : s < counter)
    (serves : r.guard.armed = true → network.handlers.find? r.guard.address = some s ∧ r.station.mailbox.held = true)
    (others : ∀ t q, t ≠ s → c.residents.find? t = some q → q.guard.armed = true →
      c.network.handlers.find? q.guard.address = some t → network.handlers.find? q.guard.address = some t) :
    Orderly {c with network, residents := c.residents.put s r, counter} := by
  have found : ∀ t q, (c.residents.put s r).find? t = some q → t = s ∧ q = r ∨ t ≠ s ∧ c.residents.find? t = some q := by
    intro t q present
    by_cases same : t = s
    · subst same
      rw [Directory.find?_put_self] at present
      exact .inl ⟨rfl,(Option.some.inj present).symm⟩
    · rw [Directory.find?_put_other _ same] at present
      exact .inr ⟨same,present⟩
  refine ⟨?_,?_,fun p present => Nat.lt_of_lt_of_le (orderly.tickets p present) later⟩
  · intro t q present
    rcases found t q present with ⟨rfl,_⟩ | ⟨_,lives⟩
    · exact numbered
    · exact Nat.lt_of_lt_of_le (orderly.numbered t q lives) later
  · intro t q present armed
    rcases found t q present with ⟨rfl,rfl⟩ | ⟨other,lives⟩
    · exact serves armed
    · exact (orderly.serves t q lives armed).imp_left (others t q other lives armed)

-- The end of a guard, whatever else is done to the member that held it.
theorem Orderly.finish (orderly : c.Orderly) (lives : c.residents.find? s = some r) {r' : Resident} {counter : Nat}
    (later : c.counter ≤ counter) (ended : r'.guard = ⟨r.guard.address,false⟩) :
    Orderly {c with network := (r.guard.finish c.network).2, residents := c.residents.put s r', counter} := by
  have numbered := Nat.lt_of_lt_of_le (orderly.numbered s r lives) later
  refine orderly.put later numbered (fun armed => by rw [ended] at armed; cases armed) ?_
  intro t q other lives' armed holds
  rw [Guard.finish_exact]
  dsimp only
  split
  · next live =>
      have elsewhere : q.guard.address ≠ r.guard.address := by
        intro same
        rw [same,(orderly.serves s r lives live).1] at holds
        exact other (Option.some.inj holds).symm
      rw [Directory.find?_remove _ elsewhere]
      exact holds
  · exact holds

theorem Orderly.does (orderly : c.Orderly) (x : Act) : (c.does x).Orderly := by
  have effect := does_effect x c
  generalize c.does x = after at effect ⊢
  cases effect with
  | goes goes => exact orderly.goes goes
  | occupied free =>
      refine orderly.moved (Nat.le_succ _) ?_
      intro s r lives armed holds
      refine (Directory.find?_put_other _ ?_ _).trans holds
      rintro rfl
      cases free.symm.trans holds
  | vacated foreign =>
      refine orderly.moved (Nat.le_refl _) ?_
      intro s r lives armed holds
      refine (Directory.find?_remove _ ?_).trans holds
      rintro rfl
      rw [holds,Option.bind_some,lives] at foreign
      cases foreign
  | adjusted lives =>
      have serves := orderly.serves _ _ lives
      exact orderly.put (Nat.le_refl _) (orderly.numbered _ _ lives) serves fun _ _ _ _ _ holds => holds
  | founded accepted free held =>
      refine (orderly.put (Nat.le_succ _) (Nat.lt_succ_self _) (fun _ => ⟨Directory.find?_put_self ..,held⟩) ?_).goes
        (.beside rfl rfl (Nat.le_refl _) (List.Subset.refl _))
      intro t q other lives armed holds
      refine (Directory.find?_put_other _ ?_ _).trans holds
      intro taken
      rw [taken,free] at holds
      cases holds
  | @closed s r lives =>
      rw [close_exact lives]
      have ended : ({r with guard := ⟨r.guard.address,false⟩} : Resident).guard = ⟨r.guard.address,false⟩ := rfl
      exact (orderly.finish lives (Nat.le_succ _) ended).goes (post_goes s _ _)
  | abandoned lives =>
      rw [abandon_exact lives]
      exact orderly.finish lives (Nat.le_refl _) rfl

theorem Orderly.live (orderly : c.Orderly) (xs : List Act) : (c.live xs).Orderly := by
  induction xs generalizing c with
  | nil => exact orderly
  | cons x rest ih => exact ih (orderly.does x)

-- A member with some property is there.
def Has (s : Nat) (P : Resident → Prop) (c : Cluster) : Prop := ∃ r, c.residents.find? s = some r ∧ P r

-- A property that a member keeps, whatever the act.
structure Lasting (s : Nat) (P : Resident → Prop) (x : Act) : Prop where
  goes : ∀ r r', Resident.Goes r r' → P r → P r'
  adjusted : ∀ f, x = .adjust s f → ∀ r, P r → P {r with station := {r.station with detector := f r.station.detector}}
  closed : x = .close s → ∀ r, P r → P {r with guard := ⟨r.guard.address,false⟩}
  abandoned : x = .abandon s → ∀ r, P r → P {r with
    guard := ⟨r.guard.address,false⟩
    station := ⟨r.station.mailbox.release,r.station.detector.release⟩
    owned := false}

variable {P : Resident → Prop} {t : Nat}

theorem Has.goes (has : c.Has s P) (kept : ∀ r r', Resident.Goes r r' → P r → P r') (goes : c.Goes next) :
    next.Has s P := by
  obtain ⟨r,lives,holds⟩ := has
  obtain ⟨after,lives',chain⟩ := goes.forth lives
  refine ⟨after,lives',?_⟩
  clear lives'
  induction chain with
  | refl => exact holds
  | tail _ goes ih => exact kept _ _ goes ih

-- What is put in a member's place keeps the property, if it is put in this member's.
theorem Has.put (has : c.Has s P) (lives : c.residents.find? t = some r) {r' : Resident} (kept : t = s → P r → P r') :
    Has s P {c with residents := c.residents.put t r'} := by
  obtain ⟨q,found,holds⟩ := has
  by_cases same : s = t
  · subst same
    cases found.symm.trans lives
    exact ⟨r',Directory.find?_put_self ..,kept rfl holds⟩
  · exact ⟨q,(Directory.find?_put_other _ same r').trans found,holds⟩

theorem Has.does (orderly : c.Orderly) (lasting : Lasting s P x) (has : c.Has s P) : (c.does x).Has s P := by
  have effect := does_effect x c
  generalize c.does x = after at effect ⊢
  cases effect with
  | goes goes => exact has.goes lasting.goes goes
  | occupied => exact has
  | vacated => exact has
  | adjusted lives => exact has.put lives fun same => lasting.adjusted _ (same ▸ rfl) _
  | founded =>
      obtain ⟨r,lives,holds⟩ := has
      exact ⟨r,(Directory.find?_put_other _ (Nat.ne_of_lt (orderly.numbered s r lives)) _).trans lives,holds⟩
  | @closed t r lives =>
      rw [close_exact lives]
      have put : Has s P {c with
          network := (r.guard.finish c.network).2
          residents := c.residents.put t {r with guard := ⟨r.guard.address,false⟩}
          counter := c.counter+1} := has.put lives fun same => lasting.closed (same ▸ rfl) r
      exact put.goes lasting.goes (post_goes t _ _)
  | abandoned lives =>
      rw [abandon_exact lives]
      exact has.put lives fun same => lasting.abandoned (same ▸ rfl) _

theorem Has.live (orderly : c.Orderly) {xs : List Act} (lasting : ∀ x ∈ xs, Lasting s P x) (has : c.Has s P) :
    (c.live xs).Has s P := by
  induction xs generalizing c with
  | nil => exact has
  | cons x rest ih =>
      exact ih (orderly.does x) (fun y later => lasting y (List.mem_cons_of_mem _ later))
        (has.does orderly (lasting x List.mem_cons_self))

end LeaderElection.Cluster
