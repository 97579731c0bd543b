import LeaderElection.Proofs.Feed
import LeaderElection.Proofs.Node.Run
import Mathlib.Data.List.Pairwise

namespace LeaderElection

namespace Snapshot

-- What may be published next. A later term opens everything. Within a term a leader is found,
-- a candidacy is won or given up, and one leader takes another's place.
inductive Passes : Snapshot → Snapshot → Prop where
  | later (later : early.term < late.term) : Passes early late
  | found : Passes (.leaderless t) (.follower t l)
  | elected : Passes (.candidate t) (.leader t)
  | yielded : Passes (.candidate t) (.follower t l)
  | changed (other : l' ≠ l) : Passes (.follower t l) (.follower t l')

def Settled : Snapshot → Prop
  | .leader _ => True
  | .follower _ _ => True
  | _ => False

-- What may be published at any time after. Nothing comes after a leader in its term, and whatever
-- comes second in a term names one.
def Precedes (early late : Snapshot) : Prop :=
  early.term < late.term ∨ early.term = late.term ∧ (∀ t, early ≠ .leader t) ∧ late.Settled

variable {early late : Snapshot}

theorem Passes.ne (passes : Passes early late) : early ≠ late := by
  intro same
  cases passes with
  | later later => exact absurd (same ▸ later) (Term.lt_irrefl _)
  | found => cases same
  | elected => cases same
  | yielded => cases same
  | changed other => cases same; exact other rfl

theorem Passes.precedes (passes : Passes early late) : Precedes early late := by
  cases passes with
  | later later => exact .inl later
  | found => exact .inr ⟨rfl,nofun,True.intro⟩
  | elected => exact .inr ⟨rfl,nofun,True.intro⟩
  | yielded => exact .inr ⟨rfl,nofun,True.intro⟩
  | changed _ => exact .inr ⟨rfl,nofun,True.intro⟩

theorem Precedes.term_le (precedes : Precedes early late) : early.term ≤ late.term := by
  rcases precedes with later | ⟨same,_⟩
  · exact Nat.le_of_lt later
  · exact same ▸ Term.le_refl _

theorem Precedes.trans (one : Precedes a b) (two : Precedes b c) : Precedes a c := by
  rcases one with later | ⟨same,free,_⟩
  · exact .inl (Nat.lt_of_lt_of_le later two.term_le)
  · rcases two with later | ⟨same',_,settled⟩
    · exact .inl (same ▸ later)
    · exact .inr ⟨same.trans same',free,settled⟩

instance : Trans Precedes Precedes Precedes := ⟨Precedes.trans⟩

theorem Precedes.after_leader (precedes : Precedes early late) (leads : early = .leader t) : t < late.term := by
  subst leads
  rcases precedes with later | ⟨_,free,_⟩
  · exact later
  · exact absurd rfl (free t)

-- Of two in one term only the first can name nobody.
theorem Precedes.settled (precedes : Precedes early late) (same : early.term = late.term) : late.Settled := by
  rcases precedes with later | ⟨_,_,settled⟩
  · exact absurd (same ▸ later) (Term.lt_irrefl _)
  · exact settled

theorem chain_precedes {said : List Snapshot} (chain : said.IsChain Passes) : said.Pairwise Precedes :=
  (chain.imp fun _ _ => Passes.precedes).pairwise

-- A term is opened once: with nobody in sight or with a candidacy, not with both.
theorem opened_once {said : List Snapshot} (ordered : said.Pairwise Precedes) :
    ¬ (.leaderless t ∈ said ∧ .candidate t ∈ said) := by
  rintro ⟨idle,running⟩
  have apart : said.Pairwise fun a b => a.term = b.term → a.Settled ∨ b.Settled :=
    ordered.imp fun precedes same => .inr (precedes.settled same)
  have : Std.Symm fun a b : Snapshot => a.term = b.term → a.Settled ∨ b.Settled :=
    ⟨fun _ _ either same => (either same.symm).symm⟩
  rcases apart.forall idle running nofun rfl with settled | settled <;> exact settled

end Snapshot

theorem Standing.snapshot_term (s : Standing) : s.snapshot.term = s.term := by
  obtain ⟨term,office⟩ := s
  cases office with
  | leader beat => rfl
  | candidate votes timer => rfl
  | follower leader timer => cases leader <;> rfl

namespace Node

variable {now draw : Nat} {n next : Node} {votes : List NodeId} {timer : ElectionTimer}

theorem Coherent.latest_term (coherent : n.Coherent) : n.feed.latest.term = n.term := by
  rw [coherent.told,Standing.snapshot_term]
  exact coherent.term

theorem Coherent.latest_candidate (coherent : n.Coherent) (running : n.standing.office = .candidate votes timer) :
    n.feed.latest = .candidate n.standing.term := by
  rw [coherent.told]
  simp only [Standing.snapshot,running]

-- What a call publishes goes on from what was published last.
theorem met_feed (coherent : n.Coherent) (t : Term) : n.feed.Onward Snapshot.Passes (n.met now draw t).feed := by
  by_cases later : n.term < t
  · rw [met_later now draw later]
    refine .publish (.refl _) (.later ?_)
    rw [coherent.latest_term]
    exact later
  · rw [met_current now draw later]
    exact .refl _

theorem accept_feed (coherent : n.Coherent) (accepted : n.accept now draw l = some next) :
    n.feed.Onward Snapshot.Passes next.feed := by
  unfold accept at accepted
  have told := coherent.told
  cases office : n.standing.office with
  | leader beat => simp [office] at accepted
  | candidate votes timer =>
      simp only [office,Option.some.injEq] at accepted
      cases accepted
      refine .publish (.refl _) ?_
      rw [coherent.latest_candidate office]
      exact .yielded
  | follower current timer =>
      simp only [office] at accepted
      split at accepted
      · cases accepted
        exact .refl _
      · next other =>
          cases accepted
          refine .publish (.refl _) ?_
          simp only [Standing.snapshot,office] at told
          rw [told]
          cases current with
          | none => exact .found
          | some l' => exact .changed fun same => other (congrArg some same.symm)

theorem Change.feed (change : Change now draw n c next) (coherent : n.Coherent) :
    n.feed.Onward Snapshot.Passes next.feed := by
  cases change with
  | kept => exact .refl _
  | stepped _ _ => exact met_feed coherent _
  | voted _ _ _ => exact met_feed coherent _
  | @followed after h _ _ accepted =>
      have taken : (n.met now draw h.term).feed.Onward Snapshot.Passes after.feed :=
        accept_feed (coherent.met now draw h.term) accepted
      exact (met_feed coherent h.term).trans taken
  | @stood b _ _ began _ =>
      refine .publish (.refl _) (.later ?_)
      rw [coherent.latest_term]
      exact Term.lt_next (Ballot.stand_exact.mp began).1
  | @sole b _ _ began _ =>
      refine .publish (.publish (.refl _) (.later ?_)) .elected
      rw [coherent.latest_term]
      exact Term.lt_next (Ballot.stand_exact.mp began).1
  | counted _ _ _ _ => exact .refl _
  | elected running _ _ _ =>
      refine .publish (.refl _) ?_
      have told := coherent.latest_candidate running
      rw [coherent.term] at told
      rw [show (n.count _ _).feed.latest = n.feed.latest from rfl,told]
      exact .elected

theorem does_feed (coherent : n.Coherent) (d : Deed) : n.feed.Onward Snapshot.Passes (n.does d).feed := by
  cases d with
  | call now draw c => exact (apply_change now draw n c).feed coherent
  | wake now draw =>
      obtain ⟨office,same,_⟩ := does_wake now draw n
      rw [same]
      exact .refl _

end Node
end LeaderElection
