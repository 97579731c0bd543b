import LeaderElection.Proofs.Transit

namespace LeaderElection

namespace Transit

-- What becomes of guards. They are numbered as they are handed out, and one that is stopped or dropped has
-- ended.
inductive Entry (η : Type) where
  | granted (guard : Nat) (a : Address) (handler : η)
  | ended (guard : Nat)

-- Any endpoint of the network may register, for itself or for another.
def entries : Act η → Transit η → List (Entry η)
  | .register a handler,t => match t.network.register a handler with
    | .error _ => []
    | .ok _ => [.granted t.guards.length a handler]
  | .withdraw i,_ => [.ended i]
  | _,_ => []

def ledger : List (Act η) → Transit η → List (Entry η)
  | [],_ => []
  | x :: rest,t => entries x t ++ ledger rest (t.does x)

-- A guard that is live: it was handed out for a handler at an address, and has not ended since.
def Holds (i : Nat) (a : Address) (handler : η) (past : List (Entry η)) : Prop :=
  Since (· = .granted i a handler) (· = .ended i) past

-- The table and the guards by what has become of them.
structure Follows (past : List (Entry η)) (t : Transit η) : Prop where
  armed : ∀ i a, t.guards[i]? = some ⟨a,true⟩ ↔ ∃ handler, Holds i a handler past
  table : ∀ a handler, t.network.handlers.find? a = some handler ↔ ∃ i, Holds i a handler past
  single : ∀ i j a handler other, Holds i a handler past → Holds j a other past → i = j
  proper : t.network.handlers.keys.Nodup

variable {t : Transit η} {past : List (Entry η)} {i j n : Nat} {a b : Address} {handler other : η} {x : Act η}

theorem ledger_append (before after : List (Act η)) (t : Transit η) :
    t.ledger (before ++ after) = t.ledger before ++ (t.run before).ledger after := by
  induction before generalizing t with
  | nil => rfl
  | cons x rest ih => simp only [List.cons_append,ledger,run,ih,List.append_assoc]

theorem holds_granted : Holds i b other (past ++ [.granted n a handler]) ↔
    (n = i ∧ a = b ∧ handler = other) ∨ Holds i b other past := by
  unfold Holds
  rw [since_snoc]
  simp

theorem holds_ended : Holds j b other (past ++ [.ended i]) ↔ i ≠ j ∧ Holds j b other past := by
  unfold Holds
  rw [since_snoc]
  simp

theorem Follows.opened (start : Nat) : Follows [] (opened start : Transit η) := by
  refine ⟨?_,?_,?_,List.nodup_nil⟩
  · exact fun i a => iff_of_false nofun fun ⟨_,held⟩ => not_since_nil held
  · exact fun a handler => iff_of_false nofun fun ⟨_,held⟩ => not_since_nil held
  · exact fun _ _ _ _ _ held => absurd held not_since_nil

theorem Follows.within (follows : Follows past t) (held : Holds i a handler past) : i < t.guards.length :=
  (List.getElem?_eq_some_iff.mp ((follows.armed i a).mpr ⟨handler,held⟩)).1

-- A guard is for one address and one handler.
theorem Follows.same (follows : Follows past t) (held : Holds i a handler past) (held' : Holds i b other past) :
    a = b ∧ handler = other := by
  have guard := (follows.armed i a).mpr ⟨handler,held⟩
  have guard' := (follows.armed i b).mpr ⟨other,held'⟩
  cases guard.symm.trans guard'
  have found := (follows.table a handler).mpr ⟨i,held⟩
  have found' := (follows.table a other).mpr ⟨i,held'⟩
  exact ⟨rfl,Option.some.inj (found.symm.trans found')⟩

theorem Follows.free (follows : Follows past t) :
    t.network.handlers.find? a = none ↔ ¬ ∃ i handler, Holds i a handler past := by
  rw [Option.eq_none_iff_forall_ne_some,exists_comm,not_exists]
  exact forall_congr' fun handler => not_congr (follows.table a handler)

-- A guard that is handed out is for an address that no other was live for.
theorem Follows.register (follows : Follows past t) (a : Address) (handler : η) :
    Follows (past ++ entries (.register a handler) t) (t.register a handler) := by
  by_cases free : t.network.handlers.find? a = none
  · have fresh := follows.free.mp free
    rw [entries,Transit.register,Network.register_free free]
    refine ⟨?_,?_,?_,Directory.put_keys_nodup follows.proper a handler⟩
    · intro i b
      simp only [holds_granted,exists_or,← follows.armed]
      rcases Nat.lt_trichotomy i t.guards.length with old | rfl | beyond
      · simp [List.getElem?_append_left old,Nat.ne_of_gt old]
      · simp
      · have longer : (t.guards ++ [(⟨a,true⟩ : Guard)]).length ≤ i := by
          rw [List.length_append]
          exact beyond
        rw [List.getElem?_eq_none longer,List.getElem?_eq_none (Nat.le_of_lt beyond)]
        simp [Nat.ne_of_lt beyond]
    · intro b k
      simp only [holds_granted,exists_or,← follows.table,Directory.find?_put]
      by_cases same : b = a
      · subst same
        simp [free]
      · have differ : ¬ a = b := fun same' => same same'.symm
        simp [Function.update_of_ne same,differ]
    · intro i j b k l held held'
      rcases holds_granted.mp held with ⟨rfl,rfl,rfl⟩ | old
      · rcases holds_granted.mp held' with ⟨same,_⟩ | old'
        · exact same
        · exact absurd ⟨j,l,old'⟩ fresh
      · rcases holds_granted.mp held' with ⟨_,rfl,_⟩ | old'
        · exact absurd ⟨i,k,old⟩ fresh
        · exact follows.single i j b k l old old'
  · rw [entries,Transit.register,Network.register_taken free,List.append_nil]
    exact follows

-- A guard that has ended before, or was never handed out, changes nothing.
theorem Follows.withdraw_ended (follows : Follows past t) (ended : ¬ ∃ a handler, Holds i a handler past) :
    t.withdraw i = t := by
  unfold withdraw
  cases found : t.guards[i]? with
  | none => rfl
  | some g =>
      have spent : g = ⟨g.address,false⟩ := by
        cases lives : g.armed with
        | false => rw [← lives]
        | true => exact absurd ⟨g.address,(follows.armed i g.address).mp (by rw [found,← lives])⟩ ended
      have same : t.guards.set i g = t.guards := by
        obtain ⟨short,rfl⟩ := List.getElem?_eq_some_iff.mp found
        exact List.set_getElem_self short
      rw [spent] at same ⊢
      simp only [Guard.finish,Bool.false_eq_true,if_false,same]

theorem Follows.withdraw_live (follows : Follows past t) (held : Holds i a handler past) : t.withdraw i =
    {t with
      network := {t.network with handlers := t.network.handlers.remove a}
      guards := t.guards.set i ⟨a,false⟩} := by
  have found := (follows.armed i a).mpr ⟨handler,held⟩
  rw [withdraw,found]
  rfl

theorem Follows.withdraw (follows : Follows past t) (i : Nat) : Follows (past ++ [.ended i]) (t.withdraw i) := by
  by_cases live : ∃ a handler, Holds i a handler past
  · obtain ⟨a,handler,held⟩ := live
    have short := follows.within held
    rw [follows.withdraw_live held]
    refine ⟨?_,?_,?_,Directory.remove_keys_nodup follows.proper a⟩
    · intro j b
      simp only [holds_ended,exists_and_left,← follows.armed]
      by_cases same : i = j
      · subst same
        simp [List.getElem?_set_self short]
      · simp [List.getElem?_set_ne same,same]
    · intro b k
      rw [Directory.find?_removed]
      by_cases same : b = a
      · subst same
        rw [Function.update_self]
        refine iff_of_false nofun ?_
        rintro ⟨j,held'⟩
        obtain ⟨differ,held'⟩ := holds_ended.mp held'
        exact differ (follows.single i j b handler k held held')
      · rw [Function.update_of_ne same,follows.table]
        refine exists_congr fun j => ?_
        rw [holds_ended]
        refine (and_iff_right_of_imp ?_).symm
        rintro held' rfl
        exact same (follows.same held' held).1
    · intro j k b one two held' held''
      exact follows.single j k b one two (holds_ended.mp held').2 (holds_ended.mp held'').2
  · have unchanged {j b k} : Holds j b k (past ++ [.ended i]) ↔ Holds j b k past := by
      rw [holds_ended]
      refine and_iff_right_of_imp ?_
      rintro held rfl
      exact live ⟨b,k,held⟩
    rw [follows.withdraw_ended live]
    refine ⟨?_,?_,?_,follows.proper⟩
    · simpa only [unchanged] using follows.armed
    · simpa only [unchanged] using follows.table
    · simpa only [unchanged] using follows.single

-- Whatever else happens to a network leaves its handlers and their guards as they are.
theorem does_others (unregistered : ∀ a handler, x ≠ .register a handler) (lasting : ∀ i, x ≠ .withdraw i) :
    (t.does x).network.handlers = t.network.handlers ∧ (t.does x).guards = t.guards ∧ entries x t = [] := by
  cases x with
  | order o => cases o <;> exact ⟨rfl,rfl,rfl⟩
  | register a handler => exact absurd rfl (unregistered a handler)
  | withdraw i => exact absurd rfl (lasting i)
  | send origin target request timeout =>
      rw [does,send]
      cases t.network.route origin target <;> exact ⟨rfl,rfl,rfl⟩
  | answer k reply =>
      rw [does,answer]
      cases t.waiting.find? k <;> exact ⟨rfl,rfl,rfl⟩
  | poll k =>
      rw [does,poll]
      cases (t.waiting.find? k).bind t.outcome <;> exact ⟨rfl,rfl,rfl⟩
  | pass instant =>
      rw [does]
      split <;> exact ⟨rfl,rfl,rfl⟩

theorem Follows.others (follows : Follows past t) (unregistered : ∀ a handler, x ≠ .register a handler)
    (lasting : ∀ i, x ≠ .withdraw i) : Follows (past ++ entries x t) (t.does x) := by
  obtain ⟨handlers,guards,silent⟩ := does_others (t := t) unregistered lasting
  rw [silent,List.append_nil]
  exact ⟨guards ▸ follows.armed,handlers ▸ follows.table,follows.single,handlers ▸ follows.proper⟩

theorem Follows.does (follows : Follows past t) (x : Act η) : Follows (past ++ entries x t) (t.does x) := by
  cases x with
  | register a handler => exact follows.register a handler
  | withdraw i => exact follows.withdraw i
  | _ => exact follows.others nofun nofun

theorem Follows.run (follows : Follows past t) (xs : List (Act η)) : Follows (past ++ t.ledger xs) (t.run xs) := by
  induction xs generalizing past t with
  | nil => rwa [ledger,List.append_nil]
  | cons x rest ih =>
      rw [ledger,← List.append_assoc]
      exact ih (follows.does x)

-- Whatever is registered, stopped and dropped, and in whatever order: the handlers are those of the live guards,
-- each at its own address. An address is given to one at a time, and only its holder can take it away.
theorem handlers_follow_guards (start : Nat) (xs : List (Act η)) :
    let t := (opened start).run xs
    let past := (opened start).ledger xs
    (∀ a handler, t.network.handlers.find? a = some handler ↔ ∃ i, Holds i a handler past) ∧
    (∀ a handler, (a,handler) ∈ t.network.handlers.entries ↔ ∃ i, Holds i a handler past) ∧
    t.network.handlers.keys.Nodup ∧
    (∀ i j a one two, Holds i a one past → Holds j a two past → i = j ∧ one = two) ∧
    (∀ a handler, (∃ placed, t.network.register a handler = .ok placed) ↔ ¬ ∃ i held, Holds i a held past) ∧
    (∀ a handler, (¬ ∃ i held, Holds i a held past) →
      (opened start).ledger (xs ++ [.register a handler]) = past ++ [.granted t.guards.length a handler]) ∧
    (∀ i a held handler, Holds i a held past →
      t.network.register a handler = .error (.bind (a.text ++ " already in use")) ∧
      t.does (.register a handler) = t) ∧
    (∀ i a handler, Holds i a handler past → (t.does (.withdraw i)).network.handlers.find? =
      Function.update t.network.handlers.find? a none) ∧
    ∀ i, (¬ ∃ a handler, Holds i a handler past) → t.does (.withdraw i) = t := by
  intro t past
  have follows : Follows past t := (Follows.opened start).run xs
  have taken {i a held} (holds : Holds i a held past) : t.network.handlers.find? a ≠ none := by
    rw [(follows.table a held).mpr ⟨i,holds⟩]
    exact nofun
  refine ⟨follows.table,?_,follows.proper,?_,?_,?_,?_,?_,fun i ended => follows.withdraw_ended ended⟩
  · intro a handler
    rw [Directory.entries_exact follows.proper,follows.table]
  · intro i j a one two held held'
    cases follows.single i j a one two held held'
    exact ⟨rfl,(follows.same held held').2⟩
  · intro a handler
    rw [← follows.free]
    constructor
    · rintro ⟨placed,granted⟩
      by_contra used
      cases (Network.register_taken used handler).symm.trans granted
    · exact fun free => ⟨_,Network.register_free free handler⟩
  · intro a handler free
    rw [ledger_append,ledger,ledger,entries,Network.register_free (follows.free.mpr free),List.append_nil]
  · intro i a held handler holds
    have refused := Network.register_taken (taken holds) handler
    exact ⟨refused,by rw [does,Transit.register,refused]⟩
  · intro i a handler held
    rw [does,follows.withdraw_live held,Directory.find?_removed]

-- A guard that is dropped after it was stopped, when another has the address.
theorem late_drop_spares_successor :
    let a : Address := ⟨"a",1⟩
    let xs : List (Act Nat) := [.register a 7,.withdraw 0,.register a 8]
    let t := (opened 0).run xs
    (∃ i, Holds i a 8 ((opened 0).ledger xs)) ∧ t.network.handlers.find? a = some 8 ∧ t.does (.withdraw 0) = t := by
  intro a xs t
  have past : (opened 0).ledger xs = ([.granted 0 a 7] ++ [.ended 0]) ++ [.granted 1 a 8] := rfl
  obtain ⟨table,_,_,_,_,_,_,_,ended⟩ := handlers_follow_guards 0 xs
  have live : Holds 1 a 8 ((opened 0).ledger xs) := by
    rw [past]
    exact holds_granted.mpr (.inl ⟨rfl,rfl,rfl⟩)
  refine ⟨⟨1,live⟩,(table a 8).mpr ⟨1,live⟩,ended 0 ?_⟩
  rintro ⟨b,handler,held⟩
  rw [past] at held
  rcases holds_granted.mp held with ⟨other,_⟩ | stopped
  · cases other
  · exact (holds_ended.mp stopped).1 rfl

end Transit
end LeaderElection
