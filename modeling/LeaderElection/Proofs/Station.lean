import LeaderElection.Proofs.Basic
import LeaderElection.Proofs.Desk.Basic
import LeaderElection.Proofs.Detector
import LeaderElection.Proofs.Node.Deadline
import LeaderElection.Proofs.Node.Decision

namespace LeaderElection

namespace Node

-- Evidence that a peer is alive: a heartbeat of its own that is accepted, or its acknowledgement of one that
-- the node has sent in its present leadership, if that does not end it.
inductive Proves (now draw : Nat) (p : NodeId) (n : Node) : Call → Prop where
  | heard {t : Term} (accepts : HeartbeatReply.Accepts (n.onHeartbeat now draw ⟨t,p⟩).answer) :
      Proves now draw p n (.heartbeat ⟨t,p⟩)
  | acknowledged {t : Term} {reply : HeartbeatReply} (leads : n.Leads t) (acked : reply.acked = true)
      (current : ¬ n.term < reply.term) :
      Proves now draw p n (.heartbeatReply p t (.ok reply))

-- The calls that are evidence of nobody's life.
inductive Silent (now draw : Nat) (n : Node) : Call → Prop where
  | term {t : Term} : Silent now draw n (.term t)
  | voteRequest {r : VoteRequest} : Silent now draw n (.voteRequest r)
  | rejected {h : Heartbeat} (rejected : ¬ HeartbeatReply.Accepts (n.onHeartbeat now draw h).answer) :
      Silent now draw n (.heartbeat h)
  | candidacy : Silent now draw n .candidacy
  | timeout : Silent now draw n .timeout
  | voteReply {peer : NodeId} {t : Term} {result : Except TransportError VoteReply} :
      Silent now draw n (.voteReply peer t result)
  | tick {t : Term} : Silent now draw n (.tick t)
  | failed {peer : NodeId} {t : Term} {e : TransportError} : Silent now draw n (.heartbeatReply peer t (.error e))
  | negative {peer : NodeId} {t : Term} {reply : HeartbeatReply} (negative : reply.acked = false) :
      Silent now draw n (.heartbeatReply peer t (.ok reply))
  | late {peer : NodeId} {t : Term} {reply : HeartbeatReply} (late : ¬ n.Leads t) :
      Silent now draw n (.heartbeatReply peer t (.ok reply))
  | deposing {peer : NodeId} {t : Term} {reply : HeartbeatReply} (later : n.term < reply.term) :
      Silent now draw n (.heartbeatReply peer t (.ok reply))

variable {now draw : Nat} {n : Node} {p peer : NodeId} {c : Call} {t : Term}

theorem Silent.unproved (silent : n.Silent now draw c) : ¬ n.Proves now draw p c := by
  intro proves
  cases proves with
  | heard accepts =>
      cases silent with
      | rejected rejected => exact rejected accepts
  | acknowledged leads acked current =>
      cases silent with
      | negative negative => exact Bool.noConfusion (acked.symm.trans negative)
      | late late => exact late leads
      | deposing later => exact current later

theorem onVoteRequest_heard (r : VoteRequest) : (n.onVoteRequest now draw r).heard = none := by
  unfold onVoteRequest
  split
  · rfl
  · split
    · rfl
    · dsimp only
      split <;> rfl

theorem stand_heard : (n.stand now draw).heard = none := by
  unfold stand
  split
  · rfl
  · dsimp only
    split <;> rfl

theorem onTimeout_heard : (n.onTimeout now draw).heard = none := by
  unfold onTimeout
  split
  · exact stand_heard
  · rfl

theorem onTick_heard : (n.onTick t).heard = none := by
  unfold onTick
  split <;> rfl

theorem onVoteReply_heard (peer : NodeId) (t : Term) (result : Except TransportError VoteReply) :
    (n.onVoteReply now draw peer t result).heard = none := by
  cases result with
  | error e => rfl
  | ok reply =>
      unfold onVoteReply
      dsimp only
      split
      · rfl
      · split
        · rfl
        · split
          · rfl
          · split
            · split <;> split <;> rfl
            · rfl

theorem onHeartbeat_heard {h : Heartbeat} : (n.onHeartbeat now draw h).heard = some p ↔
    h.leader = p ∧ HeartbeatReply.Accepts (n.onHeartbeat now draw h).answer := by
  by_cases accepts : HeartbeatReply.Accepts (n.onHeartbeat now draw h).answer
  · obtain ⟨_,_,parts⟩ := accepts_parts accepts
    rw [and_iff_left accepts,parts,Option.some.injEq]
  · obtain ⟨_,_,kept,_⟩ := onHeartbeat_rejected accepts
    refine iff_of_false ?_ fun both => accepts both.2
    rw [kept]
    exact nofun

theorem onHeartbeatReply_heard {reply : HeartbeatReply} :
    (n.onHeartbeatReply now draw peer t (.ok reply)).heard = some p ↔
      peer = p ∧ n.Leads t ∧ reply.acked = true ∧ ¬ n.term < reply.term := by
  by_cases later : n.term < reply.term
  · simp [onHeartbeatReply,meet_later now draw later,later,Step.only]
  · by_cases counts : reply.acked = true ∧ t = n.term ∧ n.role = .leader
    · obtain ⟨acked,rfl,leads⟩ := counts
      simp [onHeartbeatReply,meet_current now draw later,later,acked,leads,Leads,status]
    · have silent : ¬ (n.Leads t ∧ reply.acked = true) := fun both => counts ⟨both.2,both.1.1.symm,both.1.2⟩
      simp only [onHeartbeatReply,meet_current now draw later,if_neg later,if_neg counts]
      refine iff_of_false ?_ fun parts => silent ⟨parts.2.1,parts.2.2.1⟩
      intro heard
      cases heard

theorem apply_heard : (n.apply now draw c).heard = some p ↔ n.Proves now draw p c := by
  have unheard (silent : (n.apply now draw c).heard = none) : (n.apply now draw c).heard ≠ some p := by
    rw [silent]
    exact nofun
  cases c with
  | heartbeat h =>
      refine Iff.trans onHeartbeat_heard ?_
      constructor
      · rintro ⟨rfl,accepts⟩
        exact .heard accepts
      · intro proves
        cases proves with
        | heard accepts => exact ⟨rfl,accepts⟩
  | heartbeatReply peer t result =>
      cases result with
      | error e => exact iff_of_false (unheard rfl) nofun
      | ok reply =>
          refine Iff.trans onHeartbeatReply_heard ?_
          constructor
          · rintro ⟨rfl,leads,acked,current⟩
            exact .acknowledged leads acked current
          · intro proves
            cases proves with
            | acknowledged leads acked current => exact ⟨rfl,leads,acked,current⟩
  | term t => exact iff_of_false (unheard rfl) nofun
  | voteRequest r => exact iff_of_false (unheard (onVoteRequest_heard r)) nofun
  | candidacy => exact iff_of_false (unheard stand_heard) nofun
  | timeout => exact iff_of_false (unheard onTimeout_heard) nofun
  | voteReply peer t result => exact iff_of_false (unheard (onVoteReply_heard peer t result)) nofun
  | tick t => exact iff_of_false (unheard onTick_heard) nofun

end Node

theorem Mailbox.handle_heard {τ : Type} (e : Event τ) (now draw : Nat) (n : Node) (rest : List (Event τ))
    (held : Bool) : (handle now draw n e rest held).heard = e.call?.bind fun c => (n.apply now draw c).heard := by
  cases e with
  | alarm a => cases a <;> rfl
  | _ => rfl

namespace Station

-- What befalls a member whose detector nobody else uses: its node is called, at once or by its mailbox, and
-- its timer's task goes round.
inductive Occasion where
  | call (now draw : Nat) (c : Call)
  | post (e : Event Nat)
  | take (now draw : Nat)
  | wake (now draw : Nat)
  | release

def does : Occasion → Station → Station
  | .call now draw c,s => ((s.call now draw c).map Prod.snd).getD s
  | .post e,s => {s with mailbox := (s.mailbox.post e).getD s.mailbox}
  | .take now draw,s => ((s.take now draw).map Prod.snd).getD s
  | .wake now draw,s => {s with mailbox := ((s.mailbox.wake now draw).map Prod.fst).getD s.mailbox}
  | .release,s => {s with mailbox := s.mailbox.release}

def run : List Occasion → Station → Station
  | [],s => s
  | x :: rest,s => run rest (s.does x)

-- What the node is called with, and when.
def call? : Occasion → Station → Option (Nat × Nat × Call)
  | .call now draw c,s => s.mailbox.node?.map fun _ => (now,draw,c)
  | .take now draw,s => s.mailbox.node?.bind fun _ => (s.mailbox.events.head?.bind Event.call?).map (now,draw,·)
  | _,_ => none

-- Every occasion with the state it finds.
def story : List Occasion → Station → List (Station × Occasion)
  | [],_ => []
  | x :: rest,s => (s,x) :: story rest (s.does x)

-- A call at time `t` that proves `p` alive.
def Proves (p : NodeId) (t : Nat) (m : Station × Occasion) : Prop :=
  ∃ n draw c, m.1.mailbox.node? = some n ∧ m.1.call? m.2 = some (t,draw,c) ∧ n.Proves t draw p c

-- The node is called with what proves nobody alive, or not called at all.
def Silent (m : Station × Occasion) : Prop :=
  ∀ n now draw c, m.1.mailbox.node? = some n → m.1.call? m.2 = some (now,draw,c) → n.Silent now draw c

-- What the detector is told, and when.
def told (x : Occasion) (s : Station) : Option (Nat × NodeId) :=
  s.mailbox.node?.bind fun n => (s.call? x).bind fun (now,draw,c) => (n.apply now draw c).heard.map (now,·)

-- A detector that knows the last sign of every peer's life, and of no other peer.
structure Knows (past : List (Station × Occasion)) (d : Detector) : Prop where
  last : ∀ p t, (d.sighting p).last = some t ↔ Since (Proves p t) (fun m => ∃ t, Proves p t m) past
  known : ∀ p, p ∈ d.sightings.keys ↔ ∃ m ∈ past, ∃ t, Proves p t m

variable {s : Station} {x : Occasion} {p : NodeId} {t : Nat} {past : List (Station × Occasion)}

theorem story_snoc (xs : List Occasion) (x : Occasion) (s : Station) :
    s.story (xs ++ [x]) = s.story xs ++ [(s.run xs,x)] := by
  induction xs generalizing s with
  | nil => rfl
  | cons y rest ih => exact congrArg _ (ih (s.does y))

theorem run_snoc (xs : List Occasion) (x : Occasion) (s : Station) : s.run (xs ++ [x]) = (s.run xs).does x := by
  induction xs generalizing s with
  | nil => rfl
  | cons y rest ih => exact ih (s.does y)

theorem does_detector (x : Occasion) (s : Station) :
    (s.does x).detector = (s.told x).elim s.detector fun (t,p) => s.detector.mark t p := by
  obtain ⟨⟨loop,events,held⟩,detector⟩ := s
  cases loop with
  | exited feed => cases x <;> rfl
  | running n =>
      cases x with
      | call now draw c =>
          change (hear now (n.apply now draw c).heard _).detector = ((n.apply now draw c).heard.map _).elim _ _
          cases (n.apply now draw c).heard <;> rfl
      | take now draw =>
          cases events with
          | nil => cases held <;> rfl
          | cons e rest =>
              change (hear now (Mailbox.handle now draw n e rest held).heard _).detector = _
              rw [Mailbox.handle_heard]
              cases calls : e.call? with
              | none => simp [told,call?,Mailbox.node?,calls,hear]
              | some c =>
                  simp only [told,call?,Mailbox.node?,List.head?_cons,Option.bind_some,calls,Option.map_some]
                  cases (n.apply now draw c).heard <;> rfl
      | post e => rfl
      | wake now draw => rfl
      | release => rfl

theorem proves_told : Proves p t (s,x) ↔ s.told x = some (t,p) := by
  simp only [Proves,told,Option.bind_eq_some_iff,Option.map_eq_some_iff]
  constructor
  · rintro ⟨n,draw,c,node,called,proves⟩
    exact ⟨n,node,(t,draw,c),called,p,Node.apply_heard.mpr proves,rfl⟩
  · rintro ⟨n,node,⟨now,draw,c⟩,called,_,heard,same⟩
    cases same
    exact ⟨n,draw,c,node,called,Node.apply_heard.mp heard⟩

theorem Silent.unproved (silent : Silent (s,x)) : ¬ Proves p t (s,x) := by
  rintro ⟨n,draw,c,node,called,proves⟩
  exact (silent n t draw c node called).unproved proves

theorem Silent.untold (silent : Silent (s,x)) : s.told x = none :=
  Option.eq_none_iff_forall_ne_some.mpr fun (_,_) told => silent.unproved (proves_told.mpr told)

theorem Knows.begun (patience : Nat) : Knows [] (.create patience) := by
  refine ⟨?_,?_⟩
  · intro p t
    exact iff_of_false nofun not_since_nil
  · intro p
    exact iff_of_false nofun (by simp)

theorem Knows.does (knows : Knows past s.detector) (x : Occasion) :
    Knows (past ++ [(s,x)]) (s.does x).detector := by
  rw [does_detector]
  cases told : s.told x with
  | none =>
      have silent : ∀ p t, ¬ Proves p t (s,x) := by
        intro p t
        rw [proves_told,told]
        exact nofun
      refine ⟨?_,?_⟩
      · intro p t
        rw [since_snoc,or_iff_right (silent p t),and_iff_right fun ⟨t,proves⟩ => silent p t proves]
        exact knows.last p t
      · intro p
        simpa [silent] using knows.known p
  | some sign =>
      obtain ⟨now,peer⟩ := sign
      have proves : ∀ p t, Proves p t (s,x) ↔ now = t ∧ peer = p := by
        intro p t
        rw [proves_told,told,Option.some.injEq,Prod.mk.injEq]
      refine ⟨?_,?_⟩
      · intro p t
        change (Detector.sighting {s.detector with sightings := s.detector.sightings.put peer _} p).last = _ ↔ _
        rw [Detector.sighting_put,since_snoc]
        by_cases same : p = peer
        · subst same
          simp [proves]
        · have other : ¬ peer = p := fun same' => same same'.symm
          simpa [proves,same,other] using knows.last p t
      · intro p
        refine Directory.put_keys_mem.trans ?_
        rw [knows.known,or_comm,eq_comm]
        simp [proves]

theorem run_knows (xs : List Occasion) (knows : Knows [] s.detector) : Knows (s.story xs) (s.run xs).detector := by
  induction xs using List.reverseRecOn with
  | nil => exact knows
  | append_singleton before x ih =>
      rw [story_snoc,run_snoc]
      exact ih.does x

-- Whatever a node is called with: its detector holds for each peer the time of the last call that proved
-- the peer alive, and holds nothing of the others.
theorem detector_follows_signs (start draw : Nat) (roster : Roster) (timings : Timings) (patience : Nat)
    (xs : List Occasion) :
    let first := create start draw roster timings patience
    let s := first.run xs
    (∀ p t, (s.detector.sighting p).last = some t ↔
      Since (Proves p t) (fun m => ∃ t, Proves p t m) (first.story xs)) ∧
    (∀ p, p ∈ s.detector.known ↔ ∃ m ∈ first.story xs, ∃ t, Proves p t m) ∧
    (∀ x, Silent (s,x) → (s.does x).detector = s.detector) := by
  intro first s
  have knows : Knows (first.story xs) s.detector := run_knows xs (Knows.begun patience)
  refine ⟨knows.last,?_,?_⟩
  · intro p
    rw [Detector.known,NodeId.sort_mem]
    exact knows.known p
  · intro x silent
    rw [does_detector,silent.untold]
    rfl

end Station
end LeaderElection
