import LeaderElection.Feed
import Mathlib.Data.List.Chain

namespace LeaderElection

namespace Feed

variable {α : Type}

theorem publish_history (value : α) (f : Feed α) : (f.publish value).history = f.history ++ [value] :=
  List.reverse_cons

theorem history_length (f : Feed α) : f.history.length = f.count := by
  simp [history,count]

theorem history_last (f : Feed α) : f.history = f.earlier.reverse ++ [f.latest] := List.reverse_cons

-- A feed and a later state of it, where `R` relates each publication between to the one before it.
inductive Onward (R : α → α → Prop) : Feed α → Feed α → Prop where
  | refl (f : Feed α) : Onward R f f
  | publish (onward : Onward R f g) (next : R g.latest value) : Onward R f (g.publish value)

namespace Onward

variable {R : α → α → Prop} {f g h : Feed α}

theorem trans (fg : Onward R f g) (gh : Onward R g h) : Onward R f h := by
  induction gh with
  | refl => exact fg
  | publish _ next ih => exact .publish ih next

theorem closed (onward : Onward R f g) : g.closed = f.closed := by
  induction onward with
  | refl => rfl
  | publish _ _ ih => exact ih

theorem history (onward : Onward R f g) : f.history <+: g.history := by
  induction onward with
  | refl => exact List.prefix_rfl
  | @publish g value _ _ ih =>
      rw [publish_history]
      exact ih.trans (List.prefix_append ..)

theorem chain (onward : Onward R f g) (before : f.history.IsChain R) : g.history.IsChain R := by
  induction onward with
  | refl => exact before
  | @publish g value _ next ih =>
      rw [publish_history]
      refine ih.append (List.isChain_singleton value) ?_
      intro last isLast first isFirst
      rw [history_last,List.getLast?_concat] at isLast
      cases isLast
      cases isFirst
      exact next

end Onward
end Feed

def Reading.fresh? {α : Type} : Reading α → Option α
  | .fresh value => some value
  | _ => none

namespace Reader

variable {α : Type} {f : Feed α} (r : Reader)

theorem notice_unseen (unseen : r.seen < f.count) : r.notice f = some ⟨f.count⟩ := if_pos unseen

theorem notice_seen (seen : ¬ r.seen < f.count) : r.notice f = none := if_neg seen

-- What is read now comes before all that is published later, and after all that was seen.
theorem unseen_sublist {all rest : List α} (unseen : r.seen < f.count) (said : f.history <+: all)
    (later : rest.Sublist (all.drop f.count)) : (f.latest :: rest).Sublist (all.drop r.seen) := by
  obtain ⟨more,rfl⟩ := said
  rw [← f.history_length,List.drop_left] at later
  have short : r.seen ≤ f.earlier.reverse.length := by
    rw [List.length_reverse]
    exact Nat.le_of_lt_succ unseen
  rw [f.history_last,List.append_assoc,List.drop_append_of_le_length short]
  exact (later.cons_cons f.latest).trans (List.sublist_append_right ..)

end Reader
end LeaderElection
