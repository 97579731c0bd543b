import LeaderElection.Proofs.Node.Deadline
import LeaderElection.Proofs.Node.Run

namespace LeaderElection

-- What a node is told of a request for some term that it has sent to a peer.
inductive Report where
  | vote (peer : NodeId) (term : Term) (result : Except TransportError VoteReply)
  | heartbeat (peer : NodeId) (term : Term) (result : Except TransportError HeartbeatReply)

def Report.call : Report → Call
  | .vote peer t result => .voteReply peer t result
  | .heartbeat peer t result => .heartbeatReply peer t result

-- A report and when it is handled.
structure Tiding where
  now : Nat
  draw : Nat
  report : Report

def Tiding.deed (x : Tiding) : Deed := .call x.now x.draw x.report.call

namespace Node

def hears (tidings : List Tiding) (n : Node) : Node := n.run (tidings.map Tiding.deed)

-- A report that tells of no term beyond the node's.
def Level (r : Report) (n : Node) : Prop := ∀ t, r.call.carried = some t → ¬ n.term < t

-- Seen from outside, nothing is left to a node but its term.
def Bare (n : Node) : Prop := n.status = ⟨n.me,n.term,.follower,none,none⟩

variable {now draw : Nat} {n : Node} {x : Tiding} {tidings rest : List Tiding} {t : Term} {me peer voter : NodeId}

theorem hears_cons (x : Tiding) (rest : List Tiding) (n : Node) : n.hears (x :: rest) = (n.does x.deed).hears rest := rfl

theorem hears_roster (tidings : List Tiding) (n : Node) : (n.hears tidings).roster = n.roster := run_roster _ n

-- A report of a later term is heard for its term only.
theorem report_later (told : x.report.call.carried = some t) (later : n.term < t) :
    n.does x.deed = n.met x.now x.draw t := by
  obtain ⟨now,draw,report⟩ := x
  cases report with
  | vote peer asked result =>
      cases result with
      | error e => cases told
      | ok reply => cases told; exact congrArg Step.node (onVoteReply_later now draw peer asked later)
  | heartbeat peer asked result =>
      cases result with
      | error e => cases told
      | ok reply => cases told; exact onHeartbeatReply_node peer asked

-- Any other leaves a node as it is, but for a candidate's votes.
theorem report_heartbeat (level : n.Level (.heartbeat peer asked result)) :
    n.does (Tiding.deed ⟨now,draw,.heartbeat peer asked result⟩) = n := by
  cases result with
  | error e => rfl
  | ok reply => exact (onHeartbeatReply_node peer asked).trans (met_current now draw (level _ rfl))

theorem report_idle (level : n.Level x.report) (idle : n.role ≠ .candidate) : n.does x.deed = n := by
  obtain ⟨now,draw,report⟩ := x
  cases report with
  | vote peer asked result =>
      cases result with
      | error e => rfl
      | ok reply =>
          obtain ⟨notices,kept⟩ := onVoteReply_ignored now draw (t := asked) peer (level _ rfl) (.inr (.inr idle))
          exact congrArg Step.node kept
  | heartbeat peer asked result => exact report_heartbeat level

theorem report_ballot (level : n.Level x.report) : (n.does x.deed).ballot = n.ballot := by
  obtain ⟨now,draw,report⟩ := x
  cases report with
  | heartbeat peer asked result => exact congrArg ballot (report_heartbeat level)
  | vote peer asked result =>
      have change : Change now draw n (.voteReply peer asked result) (n.does (Tiding.deed ⟨now,draw,.vote peer asked result⟩)) :=
        apply_change now draw n _
      generalize n.does (Tiding.deed ⟨now,draw,.vote peer asked result⟩) = next at change ⊢
      cases change with
      | kept => rfl
      | stepped carried later => exact absurd later (level _ carried)
      | stood asked _ _ => rcases asked with same | same <;> cases same
      | sole asked _ _ => rcases asked with same | same <;> cases same
      | counted _ _ _ _ => rfl
      | elected _ _ _ _ => rfl

theorem report_split (n : Node) (x : Tiding) :
    (∃ t, x.report.call.carried = some t ∧ n.term < t ∧ n.does x.deed = n.met x.now x.draw t) ∨ n.Level x.report := by
  by_cases later : ∃ t, x.report.call.carried = some t ∧ n.term < t
  · obtain ⟨t,told,later⟩ := later
    exact .inl ⟨t,told,later,report_later told later⟩
  · exact .inr fun t told beyond => later ⟨t,told,beyond⟩

theorem met_bare (later : n.term < t) : (n.met now draw t).Bare := by
  rw [met_later now draw later]
  rfl

theorem Bare.does (bare : n.Bare) (x : Tiding) : (n.does x.deed).Bare := by
  rcases report_split n x with ⟨t,_,later,met⟩ | level
  · rw [met]
    exact met_bare later
  · have idle : n.role ≠ .candidate := by
      rw [show n.role = .follower from congrArg Status.role bare]
      decide
    rw [report_idle level idle]
    exact bare

theorem Bare.hears (bare : n.Bare) (tidings : List Tiding) : (n.hears tidings).Bare := by
  induction tidings generalizing n with
  | nil => exact bare
  | cons x rest ih => exact ih (bare.does x)

-- Whoever is taken to a later term on the way ends bare.
theorem hears_raised (raised : n.term < (n.hears tidings).term) : (n.hears tidings).Bare := by
  induction tidings generalizing n with
  | nil => exact absurd raised (Term.lt_irrefl _)
  | cons x rest ih =>
      rw [hears_cons] at raised ⊢
      rcases report_split n x with ⟨t,_,later,met⟩ | level
      · rw [met]
        exact (met_bare later).hears rest
      · refine ih ?_
        rwa [term,report_ballot level]

-- A node ends in the largest term of all it has heard.
theorem hears_onward (tidings : List Tiding) (n : Node) : n.term ≤ (n.hears tidings).term :=
  (n.run_onward _).term_le

theorem hears_reaches (heard : r ∈ tidings.map Tiding.report) (told : r.call.carried = some t) :
    t ≤ (n.hears tidings).term := by
  obtain ⟨x,present,rfl⟩ := List.mem_map.mp heard
  clear heard
  induction tidings generalizing n with
  | nil => cases present
  | cons y rest ih =>
      rw [hears_cons]
      rcases List.mem_cons.mp present with rfl | later
      · refine Nat.le_trans ?_ (hears_onward rest _)
        by_cases later : n.term < t
        · rw [report_later told later,met_later x.now x.draw later]
          exact Term.le_refl t
        · exact Nat.le_trans (Term.not_lt_iff.mp later) (n.does_onward _).term_le
      · exact ih later

theorem hears_term (tidings : List Tiding) (n : Node) : (n.hears tidings).term = n.term ∨
    ∃ r ∈ tidings.map Tiding.report, r.call.carried = some (n.hears tidings).term := by
  induction tidings generalizing n with
  | nil => exact .inl rfl
  | cons x rest ih =>
      rw [hears_cons]
      rcases ih (n.does x.deed) with same | ⟨r,heard,told⟩
      · rw [same]
        rcases report_split n x with ⟨t,told,later,met⟩ | level
        · refine .inr ⟨x.report,List.mem_cons_self,?_⟩
          rw [met,met_later x.now x.draw later]
          exact told
        · exact .inl (congrArg Ballot.term (report_ballot level))
      · exact .inr ⟨r,List.mem_cons_of_mem _ heard,told⟩

-- Where nothing heard is of a later term, the ballot stays, and so does the round of a candidate.
theorem hears_level (same : (n.hears tidings).term = n.term) : ∀ r ∈ tidings.map Tiding.report, n.Level r :=
  fun _ heard _ told => Term.not_lt_iff.mpr (same ▸ hears_reaches heard told)

theorem level_rest (level : ∀ r ∈ (x :: rest).map Tiding.report, n.Level r) :
    ∀ r ∈ rest.map Tiding.report, (n.does x.deed).Level r := by
  intro r heard t told
  rw [term,report_ballot (level x.report List.mem_cons_self)]
  exact level r (List.mem_cons_of_mem _ heard) t told

theorem hears_ballot (level : ∀ r ∈ tidings.map Tiding.report, n.Level r) : (n.hears tidings).ballot = n.ballot := by
  induction tidings generalizing n with
  | nil => rfl
  | cons x rest ih => exact (ih (level_rest level)).trans (report_ballot (level x.report List.mem_cons_self))

theorem hears_idle (level : ∀ r ∈ tidings.map Tiding.report, n.Level r) (idle : n.role ≠ .candidate) :
    n.hears tidings = n := by
  induction tidings generalizing n with
  | nil => rfl
  | cons x rest ih =>
      have kept := report_idle (level x.report List.mem_cons_self) idle
      have still := level_rest level
      rw [hears_cons]
      rw [kept] at still ⊢
      exact ih still idle

theorem report_deaf (x : Tiding) : ¬ n.Heeds t x.deed := by
  obtain ⟨now,draw,report⟩ := x
  cases report <;> exact id

theorem hears_steady (level : ∀ r ∈ tidings.map Tiding.report, n.Level r) :
    Steady n.term n (tidings.map Tiding.deed) := by
  induction tidings generalizing n with
  | nil => rfl
  | cons x rest ih =>
      have kept : (n.does x.deed).term = n.term := congrArg Ballot.term (report_ballot (level x.report List.mem_cons_self))
      refine ⟨rfl,report_deaf x,?_⟩
      have steady := ih (level_rest level)
      rwa [kept] at steady

-- A vote counts whenever and however often it is reported.
theorem mem_backers : voter ∈ backers t me (tidings.map Tiding.deed) ↔ ∃ reply : VoteReply,
    .vote voter t (.ok reply) ∈ tidings.map Tiding.report ∧ reply.granted = true ∧ ¬ t < reply.term ∧ voter ≠ me := by
  simp only [backers,List.mem_toFinset,List.mem_filterMap,List.mem_map]
  constructor
  · rintro ⟨_,⟨⟨now,draw,report⟩,heard,rfl⟩,backs⟩
    obtain ⟨now',draw',reply,called,granted,current,other⟩ := backer_exact.mp backs
    refine ⟨reply,⟨_,heard,?_⟩,granted,current,other⟩
    cases report <;> cases called
    rfl
  · rintro ⟨reply,⟨⟨now,draw,report⟩,heard,rfl⟩,granted,current,other⟩
    exact ⟨_,⟨_,heard,rfl⟩,backer_exact.mpr ⟨now,draw,reply,rfl,granted,current,other⟩⟩

theorem hears_candidate (coherent : n.Coherent) (office : n.standing.office = .candidate votes timer)
    (level : ∀ r ∈ tidings.map Tiding.report, n.Level r) :
    (n.hears tidings).Stands n.term ∧ ((n.hears tidings).Leads n.term ↔
      n.roster.size/2 ≤ (votes.toFinset.erase n.me ∪ backers n.term n.me (tidings.map Tiding.deed)).card) := by
  have own : n.me ∈ votes.toFinset := List.mem_toFinset.mpr (coherent.votes votes timer office).1
  have begun : Round n.term (votes.toFinset.erase n.me) True n :=
    .running trivial rfl office (Finset.insert_erase own).symm
  have kept := hears_steady level
  have round := begun.run coherent (tidings.map Tiding.deed)
  have me : (n.hears tidings).me = n.me := congrArg Roster.me (hears_roster tidings n)
  refine ⟨⟨round.current ?_,?_⟩,?_⟩
  · rw [show (n.run (tidings.map Tiding.deed)).term = n.term from congrArg Ballot.term (hears_ballot level)]
    exact Term.lt_irrefl _
  · intro follows
    cases round with
    | running _ _ running _ => exact absurd ((candidate_exact.mpr ⟨_,_,running⟩).symm.trans follows) (by decide)
    | won _ leads _ => exact absurd (leads.2.symm.trans follows) (by decide)
    | closed broken _ => exact broken ⟨trivial,kept⟩
  · rw [← hears_roster tidings n]
    refine round.leads_exact (coherent.run _) ?_ ⟨trivial,kept⟩
    rw [show (n.run (tidings.map Tiding.deed)).me = n.me from me]
    simp [own_not_backer]

-- Only the reports themselves matter, for the term, for the votes, and so for all that can be seen.
theorem hears_term_le (within : early.map Tiding.report ⊆ late.map Tiding.report) (n : Node) :
    (n.hears early).term ≤ (n.hears late).term := by
  rcases hears_term early n with same | ⟨r,heard,told⟩
  · rw [same]
    exact hears_onward late n
  · exact hears_reaches (within heard) told

theorem Stands.running (stands : n.Stands t) (yet : ¬ n.Leads t) : n.role = .candidate := by
  cases role : n.role with
  | candidate => rfl
  | leader => exact absurd ⟨stands.1,role⟩ yet
  | follower => exact absurd role stands.2

-- A candidate or leader is known by its ballot and by which of both it is.
theorem status_busy {a b : Node} (me : a.me = b.me) (ballot : a.ballot = b.ballot) (standsA : a.Stands t)
    (standsB : b.Stands t) (leads : a.Leads t ↔ b.Leads t) : a.status = b.status := by
  have role : a.role = b.role ∧ a.status.leader = b.status.leader := by
    by_cases leading : a.Leads t
    · have leading' := leads.mp leading
      exact ⟨leading.2.trans leading'.2.symm,by rw [status_leader leading.2,status_leader leading'.2,me]⟩
    · have a' := standsA.running leading
      have b' := standsB.running fun leads' => leading (leads.mpr leads')
      exact ⟨a'.trans b'.symm,by rw [status_candidate a',status_candidate b']⟩
  obtain ⟨role,leader⟩ := role
  change (⟨a.me,a.ballot.term,a.role,a.ballot.vote,a.status.leader⟩ : Status) =
    ⟨b.me,b.ballot.term,b.role,b.ballot.vote,b.status.leader⟩
  rw [me,ballot,role,leader]

theorem hears_status (coherent : n.Coherent)
    (same : ∀ r, r ∈ early.map Tiding.report ↔ r ∈ late.map Tiding.report) :
    (n.hears early).status = (n.hears late).status := by
  have me : ∀ tidings, (n.hears tidings).me = n.me := fun tidings => congrArg Roster.me (hears_roster tidings n)
  have term : (n.hears early).term = (n.hears late).term :=
    Term.ext (Nat.le_antisymm (hears_term_le (fun r => (same r).mp) n) (hears_term_le (fun r => (same r).mpr) n))
  by_cases raised : n.term < (n.hears early).term
  · -- Both have been taken to the same later term.
    rw [hears_raised raised,hears_raised (term ▸ raised),me,me,term]
  · have kept : (n.hears early).term = n.term := (Term.eq_of_not_lt (hears_onward early n) raised).symm
    have level := hears_level kept
    have level' := hears_level (term.symm.trans kept)
    by_cases running : n.role = .candidate
    · obtain ⟨votes,timer,office⟩ := candidate_exact.mp running
      have voters : backers n.term n.me (early.map Tiding.deed) = backers n.term n.me (late.map Tiding.deed) := by
        ext voter
        simp only [mem_backers,same]
      obtain ⟨stands,leads⟩ := hears_candidate coherent office level
      obtain ⟨stands',leads'⟩ := hears_candidate coherent office level'
      rw [voters,← leads'] at leads
      exact status_busy ((me early).trans (me late).symm) ((hears_ballot level).trans (hears_ballot level').symm)
        stands stands' leads
    · rw [hears_idle level running,hears_idle level' running]

-- Any two lists of the same reports, in whatever order and however often each is told.
theorem replies_commute (roster : Roster) (timings : Timings) (start first : Nat) (before : List Deed)
    (early late : List Tiding) (same : ∀ r, r ∈ early.map Tiding.report ↔ r ∈ late.map Tiding.report) :
    let n := (create start first roster timings).run before
    (n.hears early).status = (n.hears late).status :=
  hears_status ((Coherent.created start first roster timings).run before) same

-- A candidate of five is granted two votes and denied one.
theorem votes_of_five_in_any_order :
    let others : List Member := [⟨⟨"b"⟩,⟨"b",1⟩⟩,⟨⟨"c"⟩,⟨"c",1⟩⟩,⟨⟨"d"⟩,⟨"d",1⟩⟩,⟨⟨"e"⟩,⟨"e",1⟩⟩]
    let n := (create 0 5 ⟨⟨"a"⟩,⟨"a",1⟩,others⟩ ⟨1,⟨5,10⟩,1⟩).run [.call 5 5 .timeout]
    let vote (peer : String) (granted : Bool) : Report := .vote ⟨peer⟩ .one (.ok ⟨granted,.one⟩)
    (n.hears [⟨6,5,vote "b" true⟩,⟨7,5,vote "d" false⟩,⟨8,5,vote "c" true⟩]).status =
      ⟨⟨"a"⟩,.one,.leader,some ⟨"a"⟩,some ⟨"a"⟩⟩ ∧
    (n.hears [⟨6,5,vote "c" true⟩,⟨6,5,vote "b" true⟩,⟨7,5,vote "c" true⟩,⟨9,5,vote "d" false⟩]).status =
      ⟨⟨"a"⟩,.one,.leader,some ⟨"a"⟩,some ⟨"a"⟩⟩ := by
  intro others n vote
  have first : (n.hears [⟨6,5,vote "b" true⟩,⟨7,5,vote "d" false⟩,⟨8,5,vote "c" true⟩]).status =
      ⟨⟨"a"⟩,.one,.leader,some ⟨"a"⟩,some ⟨"a"⟩⟩ := by decide
  refine ⟨first,Eq.trans (replies_commute _ _ 0 5 [.call 5 5 .timeout] _ _ ?_) first⟩
  intro r
  simp only [List.map_cons,List.map_nil,List.mem_cons,List.not_mem_nil,or_false]
  tauto

end Node
end LeaderElection
