import LeaderElection.Network
import LeaderElection.Proofs.Basic

namespace LeaderElection

namespace Partition

inductive Order where
  | isolate (a : Address)
  | cut (a b : Address)
  | heal (a : Address)

def obey (p : Partition) : Order → Partition
  | .isolate a => p.isolate a
  | .cut a b => p.cut a b
  | .heal a => p.heal a

def after (orders : List Order) : Partition := orders.foldl obey .none

def Isolated (a : Address) (orders : List Order) : Prop := Since (· = .isolate a) (· = .heal a) orders

def Severed (a b : Address) (orders : List Order) : Prop :=
  Since (fun o => o = .cut a b ∨ o = .cut b a) (fun o => o = .heal a ∨ o = .heal b) orders

variable {orders : List Order} {a b : Address}

theorem after_snoc (orders : List Order) (o : Order) : after (orders ++ [o]) = (after orders).obey o := by
  unfold after
  rw [List.foldl_append]
  rfl

theorem after_isolated : a ∈ (after orders).isolated ↔ Isolated a orders := by
  induction orders using List.reverseRecOn with
  | nil => exact iff_of_false nofun not_since_nil
  | append_singleton orders o ih =>
      unfold Isolated at ih ⊢
      rw [after_snoc,since_snoc,← ih]
      cases o with
      | isolate x => simp [obey,isolate,eq_comm]
      | cut x y => simp [obey,cut]
      | heal x => simp [obey,heal,@eq_comm _ x,and_comm]

-- A cut is on record in both directions.
theorem after_severed : (a,b) ∈ (after orders).severed ↔ Severed a b orders := by
  induction orders using List.reverseRecOn with
  | nil => exact iff_of_false nofun not_since_nil
  | append_singleton orders o ih =>
      unfold Severed at ih ⊢
      rw [after_snoc,since_snoc,← ih]
      cases o with
      | isolate x => simp [obey,isolate]
      | cut x y => simp [obey,cut,@eq_comm _ x,@eq_comm _ y,or_assoc,and_comm]
      | heal x => simp [obey,heal,@eq_comm _ x,and_comm]

theorem Severed.symm (severed : Severed a b orders) : Severed b a orders := by
  obtain ⟨early,o,late,split,cut,lasting⟩ := severed
  exact ⟨early,o,late,split,cut.symm,fun y later healed => lasting y later healed.symm⟩

theorem after_allows :
    (after orders).allows a b = true ↔ ¬ Isolated a orders ∧ ¬ Isolated b orders ∧ ¬ Severed a b orders := by
  unfold allows
  simp [← after_isolated,← after_severed,and_assoc]

theorem allows_symm (orders : List Order) (a b : Address) : (after orders).allows a b = (after orders).allows b a := by
  have pair : Severed a b orders ↔ Severed b a orders := ⟨.symm,.symm⟩
  rw [Bool.eq_iff_iff,after_allows,after_allows,pair]
  exact and_left_comm

end Partition

namespace Network

variable {η : Type} {net after : Network η} {a b : Address} {g : Guard} {handler : η}

def obey (net : Network η) : Partition.Order → Network η
  | .isolate a => net.isolate a
  | .cut a b => net.cut a b
  | .heal a => net.heal a

theorem obey_partition (net : Network η) (o : Partition.Order) : (net.obey o).partition = net.partition.obey o := by
  cases o <;> rfl

theorem route_ok : net.route a b = .ok handler ↔
    net.handlers.find? b = some handler ∧ net.partition.allows a b = true := by
  unfold route
  cases net.partition.allows a b with
  | false => simp
  | true => cases net.handlers.find? b <;> simp

theorem route_lost (lost : ¬ ∃ handler, net.handlers.find? b = some handler ∧ net.partition.allows a b = true) :
    ∃ message, net.route a b = .error (.unreachable message) := by
  unfold route
  cases allowed : net.partition.allows a b with
  | false => exact ⟨_,rfl⟩
  | true =>
      cases found : net.handlers.find? b with
      | none => exact ⟨_,rfl⟩
      | some handler => exact absurd ⟨handler,found,allowed⟩ lost

theorem register_free (free : net.handlers.find? a = none) (handler : η) :
    net.register a handler = .ok (⟨a,true⟩,{net with handlers := net.handlers.put a handler}) := by
  rw [register,Directory.contains_false.mpr free]
  rfl

theorem register_taken (taken : net.handlers.find? a ≠ none) (handler : η) :
    net.register a handler = .error (.bind (a.text ++ " already in use")) := by
  rw [register,if_pos]
  exact Bool.of_not_eq_false fun free => taken (Directory.contains_false.mp free)

theorem register_parts (registered : net.register a handler = .ok (g,after)) :
    net.handlers.find? a = none ∧ g = ⟨a,true⟩ ∧ after = {net with handlers := net.handlers.put a handler} := by
  by_cases free : net.handlers.find? a = none
  · cases (register_free free handler).symm.trans registered
    exact ⟨free,rfl,rfl⟩
  · cases (register_taken free handler).symm.trans registered

end Network
end LeaderElection
