import LeaderElection.Creation
import LeaderElection.Proofs.Admission
import LeaderElection.Proofs.Tenure

namespace LeaderElection

-- What is asked of options, where those that are unset have their defaults.
structure Tuning.Valid (t : Tuning) : Prop where
  range : t.electionMin < t.electionMax
  beats : t.heartbeat < t.electionMin
  requests : t.rpc < t.electionMin
  beating : 0 < t.heartbeat
  polling : 0 < t.poll

theorem Tuning.fault?_none {t : Tuning} : t.fault? = none ↔ t.Valid := by
  unfold fault?
  split_ifs with range beats requests beating polling
  · exact iff_of_false nofun fun valid => Nat.not_lt.mpr range valid.range
  · exact iff_of_false nofun fun valid => Nat.not_lt.mpr beats valid.beats
  · exact iff_of_false nofun fun valid => Nat.not_lt.mpr requests valid.requests
  · exact iff_of_false nofun fun valid => valid.beating.ne' beating
  · exact iff_of_false nofun fun valid => valid.polling.ne' polling
  · exact iff_of_true rfl ⟨Nat.not_le.mp range,Nat.not_le.mp beats,Nat.not_le.mp requests,
      Nat.pos_of_ne_zero beating,Nat.pos_of_ne_zero polling⟩

theorem Options.tuning_valid {o : Options} (valid : o.filled.Valid) : o.tuning = .ok o.filled := by
  unfold tuning
  rw [Tuning.fault?_none.mpr valid]

theorem Options.tuning_invalid {o : Options} (invalid : ¬ o.filled.Valid) : ∃ cause, o.tuning = .error cause := by
  unfold tuning
  cases fault : o.filled.fault? with
  | none => exact absurd (Tuning.fault?_none.mp fault) invalid
  | some cause => exact ⟨cause,rfl⟩

namespace Config

-- The own id occurs exactly once, and no id occurs twice.
def Admitted (c : Config) : Prop :=
  (c.members.map Member.id).count c.me = 1 ∧ ∀ id, (c.members.map Member.id).count id < 2

-- How a creation comes out, by the first thing that is wrong.
inductive Launched {η : Type} (c : Config) (net : Network η) (handler : η) (now draw : Nat) :
    Except CreationError (Roster × Station × Guard × Network η) → Prop where
  | illegal (invalid : ¬ c.options.filled.Valid) (cause : OptionsError) :
      Launched c net handler now draw (.error (.illegalOptions cause))
  | unfit (valid : c.options.filled.Valid) (unfit : ¬ c.Admitted) (cause : RosterError) :
      Launched c net handler now draw (.error (.invalidCluster cause))
  | taken (valid : c.options.filled.Valid) (accepted : Roster.ofMembers c.me c.members = .ok roster)
      (taken : net.handlers.find? roster.address ≠ none) :
      Launched c net handler now draw (.error (.serving (.bind (roster.address.text ++ " already in use"))))
  | made (valid : c.options.filled.Valid) (accepted : Roster.ofMembers c.me c.members = .ok roster)
      (free : net.handlers.find? roster.address = none) :
      Launched c net handler now draw (.ok (roster,.launch now draw roster c.options.filled,⟨roster.address,true⟩,
        {net with handlers := net.handlers.put roster.address handler}))

variable {η : Type} {c : Config} {net : Network η} {handler : η} {now draw : Nat} {roster : Roster}
  {made : Except CreationError (Roster × Station × Guard × Network η)}

theorem admitted_exact : c.Admitted ↔ ∃ r, Roster.ofMembers c.me c.members = .ok r := by
  rw [Roster.ofMembers_accepted,Admitted,← List.count_pos_iff,List.nodup_iff_count_le_one]
  constructor
  · rintro ⟨once,single⟩
    exact ⟨fun id => Nat.le_of_lt_succ (single id),once ▸ Nat.one_pos⟩
  · rintro ⟨single,present⟩
    exact ⟨Nat.le_antisymm (single c.me) present,fun id => Nat.lt_succ_of_le (single id)⟩

-- A member has one address.
theorem own_address (accepted : Roster.ofMembers c.me c.members = .ok roster) {a : Address} :
    ⟨c.me,a⟩ ∈ c.members ↔ a = roster.address := by
  have own := Roster.ofMembers_self accepted
  constructor
  · intro listed
    have distinct := (Roster.ofMembers_exact.mp accepted).1
    exact congrArg Member.address (List.inj_on_of_nodup_map distinct listed own rfl)
  · rintro rfl
    exact own

theorem launch_launched (c : Config) (net : Network η) (handler : η) (now draw : Nat) :
    c.Launched net handler now draw (c.launch (fun a => net.register a handler) now draw) := by
  by_cases valid : c.options.filled.Valid
  · by_cases admitted : c.Admitted
    · obtain ⟨roster,accepted⟩ := admitted_exact.mp admitted
      have plan : c.plan = .ok (roster,c.options.filled) := by
        rw [plan,Options.tuning_valid valid,accepted]
        rfl
      by_cases free : net.handlers.find? roster.address = none
      · rw [launch,plan]
        dsimp only [bind,Except.bind]
        rw [Network.register_free free handler]
        exact .made valid accepted free
      · rw [launch,plan]
        dsimp only [bind,Except.bind]
        rw [Network.register_taken free handler]
        exact .taken valid accepted free
    · cases refused : Roster.ofMembers c.me c.members with
      | ok roster => exact absurd (admitted_exact.mpr ⟨roster,refused⟩) admitted
      | error cause =>
          rw [launch,plan,Options.tuning_valid valid,refused]
          exact .unfit valid admitted cause
  · obtain ⟨cause,fault⟩ := Options.tuning_invalid valid
    rw [launch,plan,fault]
    exact .illegal valid cause

theorem Launched.made_parts {station : Station} {g : Guard} {after : Network η}
    (launched : c.Launched net handler now draw (.ok (roster,station,g,after))) :
    c.options.filled.Valid ∧ Roster.ofMembers c.me c.members = .ok roster ∧ net.handlers.find? roster.address = none ∧
      station = .launch now draw roster c.options.filled ∧ g = ⟨roster.address,true⟩ ∧
      after = {net with handlers := net.handlers.put roster.address handler} := by
  cases launched with
  | made valid accepted free => exact ⟨valid,accepted,free,rfl,rfl,rfl⟩

theorem Launched.made_exact (launched : c.Launched net handler now draw made) (valid : c.options.filled.Valid)
    (accepted : Roster.ofMembers c.me c.members = .ok roster) (free : net.handlers.find? roster.address = none) :
    made = .ok (roster,.launch now draw roster c.options.filled,⟨roster.address,true⟩,
      {net with handlers := net.handlers.put roster.address handler}) := by
  cases launched with
  | illegal invalid => exact absurd valid invalid
  | unfit _ unfit => exact absurd (admitted_exact.mpr ⟨roster,accepted⟩) unfit
  | taken _ same taken =>
      cases accepted.symm.trans same
      exact absurd free taken
  | made _ same _ =>
      cases accepted.symm.trans same
      rfl

-- Which of its ends a creation comes to, and what it leaves of the network. The last instant of the clock is `latest`.
structure Ends (c : Config) (net : Network η) (handler : η) (now draw latest : Nat) (ended : Attempt)
    (after : Network η) : Prop where
  illegal : (∃ cause, ended = .refused (.illegalOptions cause)) ↔ ¬ c.options.filled.Valid
  unfit : (∃ cause, ended = .refused (.invalidCluster cause)) ↔ c.options.filled.Valid ∧ ¬ c.Admitted
  taken : (∃ cause, ended = .refused (.serving cause)) ↔ c.options.filled.Valid ∧ c.Admitted ∧
    ∃ a, ⟨c.me,a⟩ ∈ c.members ∧ net.handlers.find? a ≠ none
  broken : ended = .broken ↔ c.options.filled.Valid ∧ c.Admitted ∧
    (∃ a, ⟨c.me,a⟩ ∈ c.members ∧ net.handlers.find? a = none) ∧ latest < now+draw
  made : (∃ roster station guard, ended = .made roster station guard) ↔ c.options.filled.Valid ∧ c.Admitted ∧
    (∃ a, ⟨c.me,a⟩ ∈ c.members ∧ net.handlers.find? a = none) ∧ now+draw ≤ latest
  nothing : (∀ roster station guard, ended ≠ .made roster station guard) → after = net
  serves : ∀ roster station guard, ended = .made roster station guard → ⟨c.me,roster.address⟩ ∈ c.members ∧
    station = .launch now draw roster c.options.filled ∧ guard = ⟨roster.address,true⟩ ∧
    after.partition = net.partition ∧ after.handlers.find? = Function.update net.handlers.find? roster.address (some handler)

-- Each end has its condition, and together they leave none out.
theorem attempt_ends (c : Config) (net : Network η) (handler : η) (now draw latest : Nat) :
    let result := c.attempt latest handler now draw net
    c.Ends net handler now draw latest result.1 result.2 := by
  have launched := c.launch_launched net handler now draw
  unfold attempt
  generalize c.launch (fun a => net.register a handler) now draw = made at launched
  cases launched with
  | illegal invalid cause => constructor <;> simp [invalid]
  | unfit valid unfit cause => constructor <;> simp [valid,unfit]
  | taken valid accepted taken =>
      have admitted := admitted_exact.mpr ⟨_,accepted⟩
      constructor <;> simp [valid,admitted,own_address accepted,taken]
  | made valid accepted free =>
      have admitted := admitted_exact.mpr ⟨_,accepted⟩
      have own (a : Address) := own_address (a := a) accepted
      have given := Directory.put_remove free handler
      by_cases time : now+draw ≤ latest
      · have early := Nat.not_lt.mpr time
        constructor <;> simp [valid,admitted,own,free,time,early,Directory.find?_put]
      · have late := Nat.lt_of_not_ge time
        constructor <;> simp [valid,admitted,own,free,time,late,Guard.finish,given]

end Config
end LeaderElection
