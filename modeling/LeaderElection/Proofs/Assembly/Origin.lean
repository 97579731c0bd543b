import LeaderElection.Proofs.Assembly.Canvass
import LeaderElection.Proofs.Node.Exchange
import LeaderElection.Proofs.Node.Pace
import Mathlib.Data.Finset.Lattice.Fold
import Mathlib.Order.Lattice.Nat

namespace LeaderElection

namespace Node

variable {n : Node} {d : Deed} {t : Term}

-- A node's term after a deed: the one it was in, one that was brought to it, or one it begins.
theorem does_term (n : Node) (d : Deed) : (n.does d).term = n.term ∨
    (∃ now draw c, d = .call now draw c ∧ c.carried = some (n.does d).term) ∨ n.Begins (n.does d).term d := by
  cases d with
  | wake now draw => exact .inl (congrArg Ballot.term (wake_kept now draw n).1)
  | call now draw c =>
      change (n.apply now draw c).node.term = n.term ∨ (∃ now' draw' c', _ ∧ _ = some (n.apply now draw c).node.term) ∨
        n.Begins (n.apply now draw c).node.term _
      by_cases seeks : n.Seeks now c
      · cases began : n.ballot.stand n.me with
        | none =>
            rw [seeks_stands seeks,stand_exhausted now draw began]
            exact .inl rfl
        | some b =>
            rw [term,seeks_began seeks began]
            exact .inr (.inr ⟨seeks,(Ballot.stand_exact.mp began).1⟩)
      · cases carried : c.carried with
        | none =>
            rw [apply_silent carried seeks]
            exact .inl rfl
        | some t =>
            by_cases admitted : c.Admitted n.roster
            · rw [apply_met carried admitted]
              by_cases later : n.term < t
              · exact .inr (.inl ⟨now,draw,c,rfl,by rw [met_later now draw later]; exact carried⟩)
              · exact .inl (congrArg term (met_current now draw later))
            · rw [apply_stranger admitted]
              exact .inl rfl

theorem Begins.ballot (begins : n.Begins t d) : (n.does d).ballot = ⟨t,some n.me⟩ := by
  rcases begins.parts with ⟨_,_,_,after⟩ | ⟨_,_,_,after⟩ <;> rw [after] <;> rfl

end Node

namespace Assembly

-- A term that a member is in, or that a request or a reply tells of.
inductive Present (a : Assembly) : Term → Prop where
  | held (lives : a.node i = some n) : Present a n.status.term
  | asked (sent : l ∈ a.letters) : Present a l.request.term
  | answered (given : g ∈ a.replies) (told : g.reply.told = some t) : Present a t

-- A member begins a candidacy, and that is all that happens.
inductive Stands (a b : Assembly) (i : NodeId) (t : Term) : Prop where
  | began (does : Does a b i n d) (begins : n.Begins t d)

-- At one of the moments a member has gone on to a term by itself, with its own vote.
def Started (members : List Member) (moments : List Assembly) (t : Term) : Prop :=
  ∃ i ∈ members.map Member.id, ∃ b c n n', [c,b] <:+: moments ∧ Stands b c i t ∧
    b.node i = some n ∧ n.status.term.number+1 = t.number ∧
    c.node i = some n' ∧ n'.status.term = t ∧ n'.status.vote = some i

-- The largest term that a member is in, or that is told by what is on its way.
def height (members : List Member) (letters : List (Letter NodeId)) (replies : List Given) (a : Assembly) : Nat :=
  (members.filterMap (fun m => (a.node m.id).map fun n => n.status.term.number) ++
    letters.map (fun l => l.request.term.number) ++
    replies.filterMap fun g => g.reply.told.map Term.number).toFinset.sup id

end Assembly

variable {members : List Member} {a b : Assembly} {past moments : List Assembly} {i : NodeId} {n : Node} {d : Deed} {t : Term}
  {letters letters' : List (Letter NodeId)} {replies replies' : List Given}

namespace Assembly

theorem Started.later (started : Started members moments t) : Started members (a :: moments) t := by
  obtain ⟨i,member,b,c,n,n',neighbours,rest⟩ := started
  exact ⟨i,member,b,c,n,n',List.infix_cons neighbours,rest⟩

theorem height_le {k : Nat} : height members letters replies a ≤ k ↔
    (∀ m ∈ members, ∀ n, a.node m.id = some n → n.term.number ≤ k) ∧
    (∀ l ∈ letters, l.request.term.number ≤ k) ∧
    ∀ g ∈ replies, ∀ t, g.reply.told = some t → t.number ≤ k := by
  simp only [height,Finset.sup_le_iff,List.mem_toFinset,List.mem_append,List.mem_filterMap,List.mem_map,Option.map_eq_some_iff,
    id]
  constructor
  · intro bound
    exact ⟨fun m member n lives => bound _ (.inl (.inl ⟨m,member,n,lives,rfl⟩)),
      fun l sent => bound _ (.inl (.inr ⟨l,sent,rfl⟩)),fun g given t told => bound _ (.inr ⟨g,given,t,told,rfl⟩)⟩
  · rintro ⟨held,asked,answered⟩ _ ((⟨m,member,n,lives,rfl⟩ | ⟨l,sent,rfl⟩) | ⟨g,given,t,told,rfl⟩)
    · exact held m member n lives
    · exact asked l sent
    · exact answered g given t told

-- What a node is told by a call has been said by somebody.
theorem Permits.carried (permitted : a.Permits i n (.call now draw c)) (carried : c.carried = some t) : a.Present t := by
  cases c with
  | term t' => exact permitted.elim
  | voteRequest r =>
      cases carried
      obtain ⟨l,sent,asks,_⟩ := permitted
      have told := Present.asked sent
      rwa [asks] at told
  | heartbeat h =>
      cases carried
      obtain ⟨l,sent,asks,_⟩ := permitted
      have told := Present.asked sent
      rwa [asks] at told
  | voteReply peer t' result =>
      cases result with
      | error e => cases carried
      | ok reply =>
          cases carried
          obtain ⟨g,given,_,_,_,_,_,said⟩ := permitted
          exact .answered given (congrArg Reply.told said)
  | heartbeatReply peer t' result =>
      cases result with
      | error e => cases carried
      | ok reply =>
          cases carried
          obtain ⟨g,given,_,_,_,_,_,said⟩ := permitted
          exact .answered given (congrArg Reply.told said)
  | candidacy => cases carried
  | timeout => cases carried
  | tick t' => cases carried

-- Whoever acts says nothing but the term it is in then.
theorem Does.said (does : Does a b i n d) (present : b.Present t) : a.Present t ∨ t = (n.does d).term := by
  cases present with
  | held lives =>
      rcases does.lived lives with ⟨rfl,rfl⟩ | before
      · exact .inr rfl
      · exact .inl (.held before)
  | asked sent =>
      rcases does.letters _ sent with old | ⟨now,draw,c,s,rfl,sends,rfl⟩
      · exact .inl (.asked old)
      · exact .inr (Node.sends_speak sends).parts.1
  | answered given told =>
      rcases does.replies _ given with old | ⟨_,_,now,draw,rfl,said⟩
      · exact .inl (.answered old told)
      · rw [said,Node.answer_told] at told
        exact .inr (Option.some.inj told).symm

-- So a term that was not there before is that of a candidacy.
theorem Does.present (does : Does a b i n d) (present : b.Present t) : a.Present t ∨ n.Begins t d := by
  rcases does.said present with before | rfl
  · exact .inl before
  · rcases n.does_term d with same | ⟨now,draw,c,rfl,carried⟩ | begins
    · rw [same]
      exact .inl (.held does.lives)
    · exact .inl (Permits.carried does.permitted carried)
    · exact .inr begins

end Assembly

namespace System.Course

open Assembly

theorem started (course : (system members).Course a past) (present : a.Present t) (later : 0 < t.number) :
    Started members (a :: past) t := by
  induction course with
  | begun first =>
      cases present with
      | held lives =>
          obtain ⟨_,_,_,_,_,rfl⟩ := first.lived lives
          exact absurd later (Nat.lt_irrefl 0)
      | asked sent => rw [first.letters] at sent; cases sent
      | answered given _ => rw [first.replies] at given; cases given
  | @step a past b course step ih =>
      obtain ⟨i,n,d,does⟩ := step.does
      rcases does.present present with before | begins
      · exact (ih before).later
      · have accepted := (course.admitted does.lives).1
        refine ⟨i,List.mem_map_of_mem (Roster.ofMembers_self accepted),a,b,n,_,⟨[],past,rfl⟩,.began does begins,
          does.lives,begins.next_number.symm,does.self,?_,?_⟩
        · exact congrArg Ballot.term begins.ballot
        · rw [← Roster.ofMembers_me accepted]
          exact congrArg Ballot.vote begins.ballot

-- No answer is beyond the term of whoever gave it.
theorem reply_term (course : (system members).Course a past) (given : g ∈ a.replies) (told : g.reply.told = some t) :
    ∃ i n, a.node i = some n ∧ t ≤ n.term := by
  induction course with
  | begun first => rw [first.replies] at given; cases given
  | step course step ih =>
      obtain ⟨i,n,d,does⟩ := step.does
      rcases does.replies g given with old | ⟨_,_,now,draw,rfl,said⟩
      · obtain ⟨j,m,lives,reached⟩ := ih old
        obtain ⟨m',lives',onward⟩ := does.onward lives
        exact ⟨j,m',lives',Nat.le_trans reached onward.term_le⟩
      · rw [said,Node.answer_told] at told
        cases told
        exact ⟨i,_,does.self,Term.le_refl _⟩

theorem held_le (course : (system members).Course a past) (lives : a.node i = some n) :
    n.term.number ≤ height members letters replies a := by
  have self := Roster.ofMembers_self (course.admitted lives).1
  exact (height_le.mp (Nat.le_refl _)).1 _ self n lives

-- Some member is as far as anything that has ever been said, so it does not matter what of it is lost.
theorem present_le (course : (system members).Course a past) (present : a.Present t) :
    t.number ≤ height members letters replies a := by
  cases present with
  | held lives => exact course.held_le lives
  | asked sent =>
      obtain ⟨n,lives,reached⟩ := course.letter_term sent
      exact Nat.le_trans reached (course.held_le lives)
  | answered given told =>
      obtain ⟨i,n,lives,reached⟩ := course.reply_term given told
      exact Nat.le_trans reached (course.held_le lives)

theorem height_mono (course : (system members).Course a past) (within : letters ⊆ a.letters) (among : replies ⊆ a.replies) :
    height members letters replies a ≤ height members letters' replies' a :=
  height_le.mpr ⟨fun _ _ _ lives => course.held_le lives,fun _ sent => course.present_le (.asked (within sent)),
    fun _ given _ told => course.present_le (.answered (among given) told)⟩

theorem height_step (course : (system members).Course a past) (step : Assembly.Step a b) (does : Does a b i n d) :
    height members [] [] b = height members [] [] a ∨
      height members [] [] b = height members [] [] a+1 ∧ n.Begins (n.does d).term d ∧
        (n.does d).term.number = height members [] [] b := by
  have after := course.step step
  have lower : height members [] [] a ≤ height members [] [] b := by
    refine height_le.mpr ⟨?_,by simp,by simp⟩
    intro m _ n lives
    obtain ⟨n',lives',onward⟩ := does.onward lives
    exact Nat.le_trans onward.term_le (after.held_le lives')
  -- All but whoever acts are bounded as before.
  have upper : ∀ k, height members [] [] a ≤ k → (n.does d).term.number ≤ k → height members [] [] b ≤ k := by
    intro k others acting
    refine height_le.mpr ⟨?_,by simp,by simp⟩
    intro m _ n' lives
    rcases does.lived lives with ⟨_,rfl⟩ | before
    · exact acting
    · exact Nat.le_trans (course.held_le before) others
  by_cases low : (n.does d).term.number ≤ height members [] [] a
  · exact .inl (Nat.le_antisymm (upper _ (Nat.le_refl _) low) lower)
  · have begins : n.Begins (n.does d).term d := by
      rcases does.present (.held does.self) with before | begins
      · exact absurd (course.present_le before) low
      · exact begins
    have number := begins.next_number
    have held : n.term.number ≤ height members [] [] a := course.held_le does.lives
    have reached : (n.does d).term.number ≤ height members [] [] b := after.held_le does.self
    have most := upper (height members [] [] a+1) (Nat.le_succ _) (by omega)
    refine .inr ⟨by omega,begins,by omega⟩

end System.Course

namespace Assembly

-- At any moment of a run, and for any step that comes next, whatever of what has been said is on its way
-- before and after it.
theorem terms_begin_with_candidacies (course : Course members a past) :
    (∀ t, a.Present t → 0 < t.number → Started members (a :: past) t) ∧
    ∀ letters ⊆ a.letters, ∀ replies ⊆ a.replies,
      (∀ letters' ⊆ a.letters, ∀ replies' ⊆ a.replies,
        height members letters replies a = height members letters' replies' a) ∧
      ∀ b, Step a b → ∀ letters' ⊆ b.letters, ∀ replies' ⊆ b.replies,
        height members letters' replies' b = height members letters replies a ∨
        height members letters' replies' b = height members letters replies a+1 ∧
          ∃ i ∈ members.map Member.id, ∃ t, Stands a b i t ∧ t.number = height members letters' replies' b := by
  refine ⟨fun t present later => course.started present later,?_⟩
  intro letters within replies among
  have level : ∀ letters' ⊆ a.letters, ∀ replies' ⊆ a.replies,
      height members letters replies a = height members letters' replies' a := fun _ within' _ among' =>
    Nat.le_antisymm (course.height_mono within among) (course.height_mono within' among')
  refine ⟨level,?_⟩
  intro b step letters' within' replies' among'
  obtain ⟨i,n,d,does⟩ := step.does
  have after := course.step step
  have level' : height members letters' replies' b = height members [] [] b :=
    Nat.le_antisymm (after.height_mono within' among') (after.height_mono (by simp) (by simp))
  rw [level',level [] (by simp) [] (by simp)]
  have member := List.mem_map_of_mem (f := Member.id) (Roster.ofMembers_self (course.admitted does.lives).1)
  exact (course.height_step step does).imp_right fun ⟨risen,begins,top⟩ =>
    ⟨risen,i,member,_,.began does begins,top⟩

-- The first term is begun by the first member's candidacy, and is the largest at the end of its election,
-- as long as its request to the third member is on its way and after that.
theorem first_term_of_trio : Started trio (trioElected.now :: trioElected.past) .one ∧
    height trio trioElected.now.letters [] trioElected.now = height trio [] [] trioElected.now := by
  have origins := terms_begin_with_candidacies trioElected.course
  have lives : trioElected.now.node ⟨"a"⟩ = some _ := rfl
  refine ⟨origins.1 .one (Present.held lives) (by decide),?_⟩
  exact (origins.2 _ (List.Subset.refl _) [] (by simp)).1 [] (by simp) [] (by simp)

end Assembly
end LeaderElection
