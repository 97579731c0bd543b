import LeaderElection.Proofs.Node.Vote
import LeaderElection.Proofs.Roster

namespace LeaderElection

structure Vote where
  term : Term
  candidate : NodeId
  deriving DecidableEq

namespace Node

-- The vote a deed gives: to whoever asks for it and is granted it, or to the node itself where it
-- begins a candidacy.
def granted (r : VoteRequest) : Except VoteRefusal VoteReply → Option Vote
  | .ok reply => if reply.granted then some ⟨r.term,r.candidate⟩ else none
  | .error _ => none

def begun (n after : Node) : Option Vote := if n.term < after.term then some ⟨after.term,n.me⟩ else none

def gives : Deed → Node → Option Vote
  | .call now draw (.voteRequest r),n => granted r (n.onVoteRequest now draw r).answer
  | .call now draw .candidacy,n => begun n (n.stand now draw).node
  | .call now draw .timeout,n => begun n (n.onTimeout now draw).node
  | _,_ => none

theorem granted_parts (gave : granted r result = some v) : VoteReply.Grants result ∧ v = ⟨r.term,r.candidate⟩ := by
  cases result with
  | error e => cases gave
  | ok reply =>
      simp only [granted] at gave
      split at gave
      · next yes => cases gave; exact ⟨⟨reply,rfl,yes⟩,rfl⟩
      · cases gave

theorem begun_ballot {n : Node} (gave : begun n (n.stand now draw).node = some v) :
    (n.stand now draw).node.ballot = ⟨v.term,some v.candidate⟩ := by
  unfold begun at gave
  split at gave
  · next later =>
      cases gave
      cases began : n.ballot.stand n.me with
      | none =>
          rw [stand_exhausted now draw began] at later
          exact absurd later (Term.lt_irrefl _)
      | some b =>
          have own := (Ballot.stand_exact.mp began).2
          have same : (n.stand now draw).node.ballot = b := by
            by_cases alone : quorum n.roster.size ≤ 1
            · rw [stand_sole now draw began alone]; rfl
            · rw [stand_asking now draw began (Nat.lt_of_not_le alone)]; rfl
          rw [term,same,← own]
  · cases gave

-- A vote given is on the ballot from then on.
theorem gives_ballot {n : Node} {d : Deed} (gave : n.gives d = some v) :
    (n.does d).ballot = ⟨v.term,some v.candidate⟩ := by
  cases d with
  | wake now draw => cases gave
  | call now draw c =>
      cases c with
      | voteRequest r =>
          obtain ⟨yes,rfl⟩ := granted_parts gave
          exact onVoteRequest_ballot yes
      | candidacy => exact begun_ballot gave
      | timeout =>
          have gave : begun n (n.onTimeout now draw).node = some v := gave
          change (n.onTimeout now draw).node.ballot = _
          cases due : n.standing.timeoutDue now with
          | true =>
              rw [onTimeout_due now draw due] at gave ⊢
              exact begun_ballot gave
          | false =>
              rw [onTimeout_stale now draw due] at gave
              rw [begun,Step.only,if_neg (Term.lt_irrefl _)] at gave
              cases gave
      | _ => cases gave

end Node

-- A member may be stopped between any two deeds and created again, with the roster it had.
inductive Chapter where
  | deed (d : Deed)
  | restart (now draw : Nat) (timings : Timings)

namespace Chapter

-- All votes a member gives, each with the number of the life it is given in.
def votes (r : Roster) : Nat → Node → List Chapter → List (Nat × Vote)
  | _,_,[] => []
  | life,n,.deed d :: rest => (n.gives d).toList.map (life,·) ++ votes r life (n.does d) rest
  | life,_,.restart now draw timings :: rest => votes r (life+1) (.create now draw r timings) rest

theorem votes_life (given : (k,v) ∈ votes r life n chapters) : life ≤ k := by
  induction chapters generalizing life n with
  | nil => cases given
  | cons chapter rest ih =>
      cases chapter with
      | deed d =>
          rcases List.mem_append.mp given with now | later
          · obtain ⟨_,_,same⟩ := List.mem_map.mp now
            cases same
            exact Nat.le_refl _
          · exact ih later
      | restart now draw timings => exact Nat.le_of_succ_le (ih given)

-- Whatever is given in the same life comes after the present ballot.
theorem votes_onward (given : (life,v) ∈ votes r life n chapters) :
    n.ballot.Onward ⟨v.term,some v.candidate⟩ := by
  induction chapters generalizing n with
  | nil => cases given
  | cons chapter rest ih =>
      cases chapter with
      | deed d =>
          have onward := n.does_onward d
          rcases List.mem_append.mp given with now | later
          · obtain ⟨_,gave,same⟩ := List.mem_map.mp now
            cases same
            rw [← Node.gives_ballot (Option.mem_toList.mp gave)]
            exact onward
          · exact onward.trans (ih later)
      | restart now draw timings =>
          have later : life+1 ≤ life := votes_life (show (life,v) ∈ votes r (life+1) _ rest from given)
          exact absurd later (Nat.not_succ_le_self life)

theorem gives_votes {n : Node} {v v' : Vote} (gave : n.gives d = some v) (later : (life,v') ∈ votes r life (n.does d) chapters)
    (same : v.term = v'.term) : v.candidate = v'.candidate := by
  have onward := votes_onward later
  rw [Node.gives_ballot gave] at onward
  exact (Option.some.inj (onward.vote_kept same rfl)).symm

theorem votes_agree {v v' : Vote} (given : (k,v) ∈ votes r life n chapters) (given' : (k,v') ∈ votes r life n chapters)
    (same : v.term = v'.term) : v.candidate = v'.candidate := by
  induction chapters generalizing life n with
  | nil => cases given
  | cons chapter rest ih =>
      cases chapter with
      | restart now draw timings => exact ih given given'
      | deed d =>
          rcases List.mem_append.mp given with first | later
          · obtain ⟨_,gave,eq⟩ := List.mem_map.mp first
            cases eq
            rcases List.mem_append.mp given' with first' | later'
            · obtain ⟨_,gave',eq⟩ := List.mem_map.mp first'
              cases eq
              rw [Option.mem_unique (Option.mem_toList.mp gave) (Option.mem_toList.mp gave')]
            · exact gives_votes (Option.mem_toList.mp gave) later' same
          · rcases List.mem_append.mp given' with first' | later'
            · obtain ⟨_,gave',eq⟩ := List.mem_map.mp first'
              cases eq
              exact (gives_votes (Option.mem_toList.mp gave') later same.symm).symm
            · exact ih later later'

-- From the first creation of a member on.
theorem one_vote_per_life {v v' : Vote} (roster : Roster) (timings : Timings) (start first : Nat) (chapters : List Chapter)
    (given : (life,v) ∈ votes roster 0 (.create start first roster timings) chapters)
    (given' : (life,v') ∈ votes roster 0 (.create start first roster timings) chapters)
    (same : v.term = v'.term) : v.candidate = v'.candidate :=
  votes_agree given given' same

-- One member of three that is restarted after a vote, and is asked for another in the same term.
def restarted : List (Nat × Vote) :=
  let roster : Roster := ⟨⟨"a"⟩,⟨"a",100⟩,trio.tail⟩
  let asked (c : String) : Chapter := .deed (.call 0 5 (.voteRequest ⟨.one,⟨c⟩⟩))
  votes roster 0 (.create 0 5 roster ⟨1,⟨5,10⟩,1⟩)
    [asked "b",.restart 0 5 ⟨1,⟨5,10⟩,1⟩,asked "c",asked "b",asked "c"]

theorem one_vote_after_restart : ∃ v v', (1,v) ∈ restarted ∧ (1,v') ∈ restarted ∧ v.term = v'.term ∧
    v.candidate = v'.candidate := by
  let v : Vote := ⟨.one,⟨"c"⟩⟩
  have given : (1,v) ∈ restarted := by decide
  exact ⟨v,v,given,given,rfl,one_vote_per_life _ _ _ _ _ given given rfl⟩

-- What was voted before a restart is forgotten.
theorem restart_forgets_vote : ¬ ∀ me members roster timings start first chapters life life' v v',
    Roster.ofMembers me members = .ok roster →
    (life,v) ∈ votes roster 0 (.create start first roster timings) chapters →
    (life',v') ∈ votes roster 0 (.create start first roster timings) chapters →
    v.term = v'.term → v.candidate = v'.candidate := by
  intro survives
  have before : (0,Vote.mk .one ⟨"b"⟩) ∈ restarted := by decide
  have after : (1,Vote.mk .one ⟨"c"⟩) ∈ restarted := by decide
  have same := survives ⟨"a"⟩ trio _ _ _ _ _ _ _ _ _ rfl before after rfl
  exact absurd same (by decide)

end Chapter
end LeaderElection
