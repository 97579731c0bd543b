import LeaderElection.Proofs.Node.Exchange
import LeaderElection.Proofs.Bench
import LeaderElection.Proofs.Wire.Codec

namespace LeaderElection

theorem Reply.frame_reply (r : Reply) : r.frame.reply = .ok r := by cases r <;> rfl

def Incident.takes : Incident → Bool
  | .take _ => true
  | _ => false

namespace Wire.RequestFrame

variable {m : Type → Type} [Monad m]

theorem serve_understood [LawfulMonad m] (handle : Request → m Reply) {frame : RequestFrame}
    (understood : frame.request = .ok r) : frame.serve handle = Reply.frame <$> handle r := by
  unfold serve
  rw [understood]
  exact bind_pure_comp _ _

theorem serve_refused (handle : Request → m Reply) {frame : RequestFrame} (refused : frame.request = .error why) :
    frame.serve handle = pure (Reply.error why.message).frame := by
  unfold serve
  rw [refused]

end Wire.RequestFrame

namespace Duty

-- The first answer to whoever holds a ticket, the duty by then, and what has not happened yet.
def await (ticket : Nat) : List Incident → Duty → Option (Receipt × Duty × List Incident)
  | [],_ => none
  | x :: rest,d => match (d.receipts x).lookup ticket with
    | some receipt => some (receipt,d.does x,rest)
    | none => await ticket rest (d.does x)

-- A request brought to the node waits there for its answer, among all that happens meanwhile. A frame is
-- brought as the request it stands for.
def handle (ticket : Nat) (r : Request) : StateT (Duty × List Incident) Option Reply := fun (d,future) =>
  (d.await ticket (.post (r.event ticket) :: future)).map fun (receipt,after) => (receipt.reply,after)

def serve (ticket : Nat) (frame : Wire.RequestFrame) : StateT (Duty × List Incident) Option Wire.ReplyFrame :=
  frame.serve (handle ticket)

-- A request that waits in a running node's queue behind those of others.
structure InLine (k : Nat) (r : Request) (ahead : List (Event Nat)) (d : Duty) : Prop where
  running : ∃ n behind, d.mailbox.node? = some n ∧ d.mailbox.events = ahead ++ r.event k :: behind
  others : ∀ e ∈ ahead, e.asker? ≠ some k

-- What becomes of it in the end. It has its turn, or the node is gone before that.
inductive Settles (r : Request) (d : Duty) : Incident → Receipt → Prop where
  | turn (running : d.mailbox.node? = some n) (reply : receipt.reply = (n.apply d.now draw r.call).answer.reply)
      (after : (d.does (.take draw)).mailbox.node? = some (n.apply d.now draw r.call).node) :
      Settles r d (.take draw) receipt
  | gone (after : (d.does (.take draw)).mailbox.node? = none) : Settles r d (.take draw) .stopped

variable {d : Duty} {k : Nat} {r : Request} {ahead : List (Event Nat)} {x : Incident}

theorem lookup_other {asker : Nat} (other : some asker ≠ some k) (receipt : Receipt)
    (more : List (Nat × Receipt)) : ((asker,receipt) :: more).lookup k = more.lookup k := by
  have differ : (k == asker) = false := beq_eq_false_iff_ne.mpr fun same => other (congrArg some same.symm)
  rw [List.lookup_cons,differ]

theorem lookup_refused {e : Event Nat} (other : e.asker? ≠ some k) : e.refused.lookup k = none := by
  unfold Event.refused
  cases asks : e.asker? with
  | none => rfl
  | some asker => exact lookup_other (asks ▸ other) .stopped []

theorem lookup_refusals {events : List (Event Nat)} (others : ∀ e ∈ events, e.asker? ≠ some k) :
    (events.flatMap Event.refused).lookup k = none := by
  induction events with
  | nil => rfl
  | cons e rest ih =>
      rw [List.flatMap_cons,List.lookup_append,lookup_refused (others e List.mem_cons_self),Option.none_or]
      exact ih fun e' present => others e' (List.mem_cons_of_mem _ present)

theorem lookup_turned (others : ∀ e ∈ ahead, e.asker? ≠ some k) (behind : List (Event Nat)) :
    ((ahead ++ r.event k :: behind).flatMap Event.refused).lookup k = some .stopped := by
  rw [List.flatMap_append,List.lookup_append,lookup_refusals others,List.flatMap_cons,Event.refused,
    Request.asker_event]
  simp

-- Whoever is next in line is answered without a word to others, unless it is the end of all.
theorem handle_ahead {e : Event Nat} (other : e.asker? ≠ some k) (now draw : Nat) (n : Node) (rest : List (Event Nat))
    (held : Bool) : (∃ m, (Mailbox.handle now draw n e rest held).mailbox = ⟨.running m,rest,held⟩ ∧
      (Mailbox.handle now draw n e rest held).receipts.lookup k = none) ∨
    ∃ asker, e = .shutdown asker := by
  cases e with
  | voteRequest asker r => exact .inl ⟨_,rfl,lookup_other other _ []⟩
  | heartbeat asker h => exact .inl ⟨_,rfl,lookup_other other _ []⟩
  | status asker => exact .inl ⟨_,rfl,lookup_other other _ []⟩
  | voteReply peer t result => exact .inl ⟨_,rfl,rfl⟩
  | heartbeatReply peer t result => exact .inl ⟨_,rfl,rfl⟩
  | alarm a => cases a <;> exact .inl ⟨_,rfl,rfl⟩
  | shutdown asker => exact .inr ⟨asker,rfl⟩

theorem take_head (running : d.mailbox.node? = some n) (queue : d.mailbox.events = e :: rest) (draw : Nat) :
    let turn := Mailbox.handle d.now draw n e rest d.mailbox.held
    (d.does (.take draw)).mailbox = turn.mailbox ∧ d.receipts (.take draw) = turn.receipts := by
  obtain ⟨now,events,held,detector,tasks,reader,rfl⟩ := node_parts running
  cases queue
  exact ⟨rfl,rfl⟩

theorem InLine.take (waits : d.InLine k r ahead) (draw : Nat) :
    (∃ receipt, (d.receipts (.take draw)).lookup k = some receipt ∧ Settles r d (.take draw) receipt) ∨
    (d.receipts (.take draw)).lookup k = none ∧
      ∃ e ahead', ahead = e :: ahead' ∧ (d.does (.take draw)).InLine k r ahead' := by
  obtain ⟨⟨n,behind,running,queue⟩,others⟩ := waits
  cases ahead with
  | nil =>
      obtain ⟨mailbox,told⟩ := take_head running queue draw
      obtain ⟨after,receipt,answers,reply⟩ := Mailbox.handle_request d.now draw n r k behind d.mailbox.held
      refine .inl ⟨receipt,?_,.turn running reply ?_⟩
      · rw [told,answers]
        simp
      · rw [mailbox,after]
        rfl
  | cons e rest =>
      rw [List.cons_append] at queue
      obtain ⟨mailbox,told⟩ := take_head running queue draw
      have other := others e List.mem_cons_self
      have others' : ∀ e ∈ rest, e.asker? ≠ some k := fun e' present => others e' (List.mem_cons_of_mem _ present)
      rcases handle_ahead other d.now draw n (rest ++ r.event k :: behind) d.mailbox.held with
        ⟨m,after,silent⟩ | ⟨asker,rfl⟩
      · refine .inr ⟨told ▸ silent,e,rest,rfl,⟨m,behind,?_,?_⟩,others'⟩
        · rw [mailbox,after]
          rfl
        · rw [mailbox,after]
      · refine .inl ⟨.stopped,?_,.gone ?_⟩
        · rw [told]
          exact (lookup_other other .down _).trans (lookup_turned others' behind)
        · rw [mailbox]
          rfl

theorem comes_fresh {e : Event Nat} (comes : d.comes x = some e) (fresh : ∀ e, x = .post e → e.asker? ≠ some k) :
    e.asker? ≠ some k := by
  cases x with
  | post e' =>
      cases comes
      exact fresh e rfl
  | finish i delivery =>
      obtain ⟨⟨peer,request,_,_⟩,_,rfl⟩ := Option.map_eq_some_iff.mp comes
      cases request <;> nofun
  | wake draw =>
      obtain ⟨_,_,rung⟩ := Option.bind_eq_some_iff.mp comes
      obtain ⟨_,_,rfl⟩ := Option.map_eq_some_iff.mp rung
      nofun
  | _ => cases comes

-- Only a turn may end a node.
theorem does_running (running : d.mailbox.node? = some n) (idle : x.takes = false) :
    ∃ m, (d.does x).mailbox.node? = some m := by
  cases x with
  | post e => exact ⟨n,(welcome_stretch running _).1⟩
  | finish i delivery => exact ⟨n,(welcome_stretch running _).1⟩
  | take draw => cases idle
  | wake draw =>
      obtain ⟨now,events,held,detector,tasks,reader,rfl⟩ := node_parts running
      rw [does,mailbox,mailbox,Mailbox.wake_running]
      cases n.wake now draw with
      | none => exact ⟨n,rfl⟩
      | some result => exact ⟨result.1,rfl⟩
  | _ => exact ⟨n,running⟩

-- Whatever else happens leaves the line as it is, but for what joins it at its end.
theorem InLine.other (waits : d.InLine k r ahead) (idle : x.takes = false)
    (fresh : ∀ e, x = .post e → e.asker? ≠ some k) :
    (d.receipts x).lookup k = none ∧ (d.does x).InLine k r ahead := by
  obtain ⟨⟨n,behind,running,queue⟩,others⟩ := waits
  obtain ⟨m,after⟩ := does_running running idle
  obtain ⟨n',running',stretch⟩ := does_stretch after
  have unhandled : d.handled x = [] := by
    cases x with
    | take draw => cases idle
    | _ => rfl
  have line := stretch.events
  rw [unhandled,queue,List.nil_append,List.append_assoc,List.cons_append] at line
  refine ⟨?_,⟨m,_,after,line.symm⟩,others⟩
  have refusals : d.receipts x = ((d.comes x).toList.filter fun e => !d.welcomes e).flatMap Event.refused := by
    cases x with
    | take draw => cases idle
    | _ => rfl
  rw [refusals]
  refine lookup_refusals ?_
  intro e refused
  exact comes_fresh (Option.mem_toList.mp (List.mem_of_mem_filter refused)) fresh

-- At any incident a request is settled, or it waits behind one less at a turn and behind no more otherwise.
theorem InLine.does (waits : d.InLine k r ahead) (fresh : ∀ e, x = .post e → e.asker? ≠ some k) :
    (∃ receipt, (d.receipts x).lookup k = some receipt ∧ Settles r d x receipt) ∨
    (d.receipts x).lookup k = none ∧ ∃ ahead', (d.does x).InLine k r ahead' ∧
      ahead'.length+[x].countP Incident.takes ≤ ahead.length := by
  cases takes : x.takes with
  | false =>
      obtain ⟨silent,waits'⟩ := waits.other takes fresh
      refine .inr ⟨silent,ahead,waits',?_⟩
      rw [List.countP_singleton,takes]
      exact Nat.le_refl _
  | true =>
      cases x with
      | take draw =>
          rcases waits.take draw with settled | ⟨silent,e,ahead',rfl,waits'⟩
          · exact .inl settled
          · exact .inr ⟨silent,ahead',waits',Nat.le_refl _⟩
      | _ => cases takes

-- A request is settled in some future, and its answer is the first that its ticket gets there.
def Settled (k : Nat) (r : Request) (future : List Incident) (d : Duty) : Prop :=
  ∃ before x rest receipt, future = before ++ x :: rest ∧
    d.await k future = some (receipt,(d.run before).does x,rest) ∧ Settles r (d.run before) x receipt

theorem Settled.later (silent : (d.receipts x).lookup k = none) (settled : (d.does x).Settled k r rest) :
    d.Settled k r (x :: rest) := by
  obtain ⟨before,y,others,receipt,rfl,awaits,settles⟩ := settled
  refine ⟨x :: before,y,others,receipt,rfl,?_,settles⟩
  rw [await,silent]
  exact awaits

-- There are no more turns in vain than there are others ahead.
theorem InLine.awaits (waits : d.InLine k r ahead) (future : List Incident)
    (fresh : ∀ e, .post e ∈ future → e.asker? ≠ some k) :
    d.Settled k r future ∨ d.await k future = none ∧ future.countP Incident.takes ≤ ahead.length := by
  induction future generalizing d ahead with
  | nil => exact .inr ⟨rfl,Nat.zero_le _⟩
  | cons x rest ih =>
      rcases waits.does (x := x) fun e same => fresh e (same ▸ List.mem_cons_self) with
        ⟨receipt,told,settles⟩ | ⟨silent,ahead',waits',shorter⟩
      · refine .inl ⟨[],x,rest,receipt,rfl,?_,settles⟩
        rw [await,told]
        rfl
      · rcases ih waits' fun e posted => fresh e (List.mem_cons_of_mem _ posted) with settled | ⟨none,few⟩
        · exact .inl (settled.later silent)
        · refine .inr ⟨?_,?_⟩
          · rw [await,silent]
            exact none
          · rw [← List.singleton_append,List.countP_append]
            omega

theorem welcomes_exact {e : Event Nat} :
    d.welcomes e = true ↔ d.mailbox.held = true ∧ ∃ n, d.mailbox.node? = some n := by
  unfold welcomes Mailbox.post
  cases d.mailbox.held <;> cases d.mailbox.node? <;> simp

theorem post_unwelcome {e : Event Nat} (unwelcome : d.welcomes e = false) :
    d.does (.post e) = d ∧ d.receipts (.post e) = e.refused := by
  constructor
  · have refused : d.mailbox.post e = none := Option.isNone_iff_eq_none.mp (Option.isSome_eq_false_iff.mp unwelcome)
    rw [does,comes,welcome,Option.bind_some,refused]
    rfl
  · change ([e].filter fun e => !d.welcomes e).flatMap Event.refused = e.refused
    rw [List.filter_cons_of_pos (by simp [unwelcome])]
    exact List.append_nil _

theorem post_welcome {e : Event Nat} (running : d.mailbox.node? = some n) (held : d.mailbox.held = true) :
    (d.does (.post e)).mailbox.node? = some n ∧ (d.does (.post e)).mailbox.events = d.mailbox.events ++ [e] ∧
      d.receipts (.post e) = [] := by
  obtain ⟨now,events,_,detector,tasks,reader,rfl⟩ := node_parts running
  cases held
  exact ⟨rfl,rfl,rfl⟩

-- Where it is not let in a request is turned away at once.
theorem handle_unwelcome (unwelcome : d.welcomes (r.event k) = false) (future : List Incident) :
    (handle k r).run (d,future) = some (.error stoppedMessage,d,future) := by
  obtain ⟨same,told⟩ := post_unwelcome unwelcome
  change (d.await k (.post (r.event k) :: future)).map _ = _
  have refused : (d.receipts (.post (r.event k))).lookup k = some .stopped := by
    rw [told,Event.refused,Request.asker_event]
    simp
  rw [await,refused,same]
  rfl

theorem handle_welcome (welcome : d.welcomes (r.event k) = true) {future : List Incident}
    (waiting : ∀ e ∈ d.mailbox.events, e.asker? ≠ some k) (fresh : ∀ e, .post e ∈ future → e.asker? ≠ some k)
    (turns : d.mailbox.events.length < future.countP Incident.takes) :
    ∃ before x rest receipt, future = before ++ x :: rest ∧
      (handle k r).run (d,future) = some (receipt.reply,((d.does (.post (r.event k))).run before).does x,rest) ∧
      Settles r ((d.does (.post (r.event k))).run before) x receipt := by
  obtain ⟨held,n,running⟩ := welcomes_exact.mp welcome
  obtain ⟨running',queue,silent⟩ := post_welcome (e := r.event k) running held
  have waits : (d.does (.post (r.event k))).InLine k r d.mailbox.events := ⟨⟨n,[],running',queue⟩,waiting⟩
  rcases waits.awaits future fresh with ⟨before,x,rest,receipt,split,awaits,settles⟩ | ⟨_,few⟩
  · refine ⟨before,x,rest,receipt,split,?_,settles⟩
    change (d.await k (.post (r.event k) :: future)).map _ = _
    rw [await,silent]
    change ((d.does (.post (r.event k))).await k future).map _ = _
    rw [awaits]
    rfl
  · omega

end Duty

-- What can be understood is a request with a sender.
theorem Wire.RequestFrame.request_exact (frame : RequestFrame) :
    (∃ r : Request, r.sender.text ≠ "" ∧ frame = r.frame) ∨
    (frame = none ∧ frame.request = .error .unknownType) ∨
    (∃ t, frame = some (.vote ⟨t,""⟩) ∧ frame.request = .error (.missing "candidate_id")) ∨
    ∃ t, frame = some (.heartbeat ⟨t,""⟩) ∧ frame.request = .error (.missing "leader_id") := by
  cases frame with
  | none => exact .inr (.inl ⟨rfl,rfl⟩)
  | some body =>
      cases body with
      | vote claim =>
          obtain ⟨t,sender⟩ := claim
          by_cases named : sender = ""
          · subst named
            exact .inr (.inr (.inl ⟨t,rfl,rfl⟩))
          · exact .inl ⟨.vote ⟨t,⟨sender⟩⟩,named,rfl⟩
      | heartbeat claim =>
          obtain ⟨t,sender⟩ := claim
          by_cases named : sender = ""
          · subst named
            exact .inr (.inr (.inr ⟨t,rfl,rfl⟩))
          · exact .inl ⟨.heartbeat ⟨t,⟨sender⟩⟩,named,rfl⟩

namespace Bench

variable {b next last : Bench}

theorem post_receipts (e : Event Nat) (b : Bench) : ((b.post e).getD b).receipts = b.receipts := by
  unfold post
  cases b.station.mailbox.post e <;> rfl

theorem sends_receipts (timeout : Nat) (sends : List Dispatch) (b : Bench) :
    (sends.foldl (send timeout) b).receipts = b.receipts := by
  induction sends generalizing b with
  | nil => rfl
  | cons s rest ih => exact ih (b.send timeout s)

theorem take_receipts (taken : b.take = some next) : ∃ turn, b.station.mailbox.take b.now b.draw = some turn ∧
    next.receipts = b.receipts ++ turn.receipts.map Prod.snd := by
  obtain ⟨timings,turn,station,_,took,rfl⟩ := take_parts taken
  obtain ⟨turn',took',same⟩ := Option.map_eq_some_iff.mp took
  cases same
  exact ⟨turn,took',sends_receipts ..⟩

-- What has been answered stays answered.
theorem perform_receipts {m : Move} (performed : perform m b = some next) : b.receipts <+: next.receipts := by
  cases m with
  | finish i =>
      obtain ⟨e,delivery,_,_,rfl⟩ := finish_parts performed
      rw [post_receipts]
  | wake =>
      obtain ⟨⟨mailbox,alarm⟩,_,same⟩ := Option.map_eq_some_iff.mp performed
      cases same
      exact List.prefix_rfl
  | take =>
      obtain ⟨turn,_,told⟩ := take_receipts performed
      exact ⟨_,told.symm⟩

theorem moves_receipts (moves : Schedule.Moves b last) : b.receipts <+: last.receipts := by
  induction moves with
  | rest => exact List.prefix_rfl
  | move performed _ ih => exact (perform_receipts performed).trans ih

-- Only a running node that somebody holds is posted anything, and nothing else changes by it.
structure Posted (b : Bench) (e : Event Nat) (next : Bench) : Prop where
  queue : ∃ n events, b.station.mailbox = ⟨.running n,events,true⟩ ∧ next.station.mailbox = ⟨.running n,events ++ [e],true⟩
  attended : next.attended = b.attended
  now : next.now = b.now
  errands : next.errands = b.errands
  receipts : next.receipts = b.receipts

theorem post_parts {e : Event Nat} (posted : b.post e = some next) : b.Posted e next := by
  obtain ⟨now,attended,⟨⟨loop,events,held⟩,detector⟩,reader,script,errands,draws,sent,log,receipts⟩ := b
  cases loop with
  | exited feed => cases held <;> cases posted
  | running n =>
      cases held with
      | false => cases posted
      | true =>
          cases posted
          exact ⟨⟨n,events,rfl,rfl⟩,rfl,rfl,rfl,rfl⟩

theorem take_waiting {b : Bench} (attended : b.attended = true) (waits : b.station.mailbox = ⟨.running n,e :: events,held⟩) :
    ∃ last, b.take = some last := by
  have timed : b.station.timings? = some n.timings := by
    rw [Station.timings?,waits]
    rfl
  have took : b.station.take b.now b.draw =
      (some (Mailbox.handle b.now b.draw n e events held)).map fun t =>
        (t,Station.hear b.now t.heard {b.station with mailbox := t.mailbox}) := by
    rw [Station.take,waits]
    rfl
  unfold take
  rw [attended,timed,took]
  exact ⟨_,rfl⟩

theorem finish_none {i : Nat} : b.finish i = none ↔ ∀ e, b.errands[i]? = some e → e.outcome b.now = none := by
  unfold finish
  refine Option.bind_eq_none_iff.trans (forall_congr' fun e => imp_congr_right fun _ => ?_)
  cases e.outcome b.now with
  | none => exact iff_of_true rfl rfl
  | some delivery => exact iff_of_false nofun nofun

-- A bench at rest has nothing to take, so what is posted next is taken next.
theorem post_first {e : Event Nat} (attended : b.attended = true) (rests : Schedule.act b = none)
    (posted : b.post e = some next) : ∃ n last, next.station.mailbox = ⟨.running n,[e],true⟩ ∧
      next.take = some last ∧ Schedule.act next = some last := by
  have still : ∀ m ∈ (Lively.moves b : List Move), perform m b = none := List.findSome?_eq_none_iff.mp rests
  obtain ⟨⟨n,events,before,queue⟩,attends,now,errands,_⟩ := post_parts posted
  have none : events = [] := by
    cases events with
    | nil => rfl
    | cons waiting rest =>
        obtain ⟨last,taken⟩ := take_waiting attended before
        have idle : b.take = none := still .take (List.mem_append_right _ List.mem_cons_self)
        rw [idle] at taken
        cases taken
  subst none
  obtain ⟨last,taken⟩ := take_waiting (attends.trans attended) queue
  refine ⟨n,last,queue,taken,?_⟩
  have unfinished : ((List.range next.errands.length).map Move.finish).findSome? (fun m => perform m next) = none := by
    refine List.findSome?_eq_none_iff.mpr ?_
    intro m present
    rw [errands] at present
    have idle := still m (List.mem_append_left _ present)
    obtain ⟨i,_,rfl⟩ := List.mem_map.mp present
    have waits := finish_none.mp idle
    refine finish_none.mpr ?_
    rwa [errands,now]
  change (((List.range next.errands.length).map Move.finish ++ [Move.take,Move.wake]).findSome? fun m => perform m next) = _
  have first : perform .take next = some last := taken
  rw [List.findSome?_append,unfinished,Option.none_or,List.findSome?_cons,first]

theorem settle_acted (acted : Schedule.act b = some next) : Schedule.Moves next (Schedule.settle b) := by
  have settles : Schedule.settle b = Schedule.settleWithin 9999 next := by
    change Schedule.settleWithin (9999+1) b = _
    rw [Schedule.settleWithin,acted]
  rw [settles]
  exact Schedule.settleWithin_moves _ _

-- Brought to a bench at rest, a request is handled as on any duty, in the future that the bench has then.
theorem handle_on_duty (attended : b.attended = true) (rests : Schedule.act b = none) (untold : b.receipts = [])
    (r : Request) : ∃ future rest after,
      (Duty.handle 0 r).run (b.duty,future) = some ((b.handle r).1,after,rest) ∧ after.run rest = (b.handle r).2.duty := by
  have posting := post_duty (r.event 0) b
  cases posted : b.post (r.event 0) with
  | none =>
      have unwelcome : b.duty.welcomes (r.event 0) = false := by
        have refused : b.station.mailbox.post (r.event 0) = none := Option.map_eq_none_iff.mp posted
        simp [Duty.welcomes,Duty.mailbox,duty,refused]
      have same : b.handle r = (.error stoppedMessage,b) := by
        simp only [handle,ask,posted]
        rfl
      rw [same]
      exact ⟨[],[],_,Duty.handle_unwelcome unwelcome [],rfl⟩
  | some next =>
      obtain ⟨n,last,queue,taken,acted⟩ := post_first attended rests posted
      obtain ⟨turn,took,told⟩ := take_receipts taken
      obtain ⟨_,receipt,answers,_⟩ := Mailbox.handle_request next.now next.draw n r 0 [] true
      rw [queue] at took
      cases took
      rw [answers,(post_parts posted).receipts,untold] at told
      have moves := settle_acted acted
      have first : (Schedule.settle next).receipts.head? = some receipt := by
        obtain ⟨more,receipts⟩ := moves_receipts moves
        rw [← receipts,told]
        rfl
      obtain ⟨xs,onward⟩ := reaches_duty (Schedule.Reaches.rest.moves moves)
      have begun : next.duty = b.duty.does (.post (r.event 0)) := by
        rw [posted] at posting
        exact posting
      have same : b.handle r = (receipt.reply,{Schedule.settle next with receipts := []}) := by
        simp only [handle,ask,posted,first]
        rfl
      rw [same]
      refine ⟨.take next.draw :: xs,xs,next.duty.does (.take next.draw),?_,?_⟩
      · obtain ⟨⟨n',events,before,_⟩,_⟩ := post_parts posted
        obtain ⟨_,_,silent⟩ := Duty.post_welcome (d := b.duty) (e := r.event 0)
          (congrArg Mailbox.node? before) (congrArg Mailbox.held before)
        obtain ⟨_,heard⟩ := Duty.take_head (d := next.duty) (congrArg Mailbox.node? queue)
          (congrArg Mailbox.events queue) next.draw
        rw [show next.duty.mailbox.held = true from congrArg Mailbox.held queue] at heard
        change (b.duty.await 0 (.post (r.event 0) :: .take next.draw :: xs)).map _ = _
        rw [Duty.await,silent]
        change ((b.duty.does (.post (r.event 0))).await 0 (.take next.draw :: xs)).map _ = _
        rw [← begun,Duty.await,heard.trans answers]
        rfl
      · rw [← take_duty taken]
        exact onward.symm

end Bench

namespace Duty

-- A request is handled alike at either entrance, whatever else happens. A frame that cannot be understood is answered
-- before anything happens at all.
theorem entrances_agree (d : Duty) (future : List Incident) (k : Nat) :
    (∀ r : Request, r.sender.text ≠ "" →
      ((serve k r.frame).run (d,future)).map (fun served => (served.1.reply,served.2)) =
        ((handle k r).run (d,future)).map (fun handled => (.ok handled.1,handled.2)) ∧
      ∀ b, (Bench.serve r.frame b).1.reply = .ok (Bench.handle r b).1 ∧ (Bench.serve r.frame b).2 = (Bench.handle r b).2) ∧
    (∀ frame : Wire.RequestFrame, (¬ ∃ r : Request, r.sender.text ≠ "" ∧ frame = r.frame) → ∃ why,
      frame.request = .error why ∧ (serve k frame).run (d,future) = some ((Reply.error why.message).frame,d,future) ∧
      ∀ b, Bench.serve frame b = ((Reply.error why.message).frame,b)) ∧
    (∀ t, (serve k none).run (d,future) = some ((Reply.error "unknown message type").frame,d,future) ∧
      (serve k (some (.vote ⟨t,""⟩))).run (d,future) = some ((Reply.error "missing candidate_id").frame,d,future) ∧
      (serve k (some (.heartbeat ⟨t,""⟩))).run (d,future) = some ((Reply.error "missing leader_id").frame,d,future)) ∧
    (∀ r : Request, d.welcomes (r.event k) = false →
      (handle k r).run (d,future) = some (.error stoppedMessage,d,future)) ∧
    ∀ r : Request, d.welcomes (r.event k) = true → (∀ e ∈ d.mailbox.events, e.asker? ≠ some k) →
      (∀ e, .post e ∈ future → e.asker? ≠ some k) → d.mailbox.events.length < future.countP Incident.takes →
      let begun := d.does (.post (r.event k))
      ∃ before x rest receipt, future = before ++ x :: rest ∧
        (handle k r).run (d,future) = some (receipt.reply,(begun.run before).does x,rest) ∧
        Settles r (begun.run before) x receipt := by
  have refused (frame : Wire.RequestFrame) (why : Wire.Incomprehensible) (refuses : frame.request = .error why) :
      (serve k frame).run (d,future) = some ((Reply.error why.message).frame,d,future) := by
    rw [serve,Wire.RequestFrame.serve_refused (handle k) refuses]
    rfl
  have turned (frame : Wire.RequestFrame) (why : Wire.Incomprehensible) (refuses : frame.request = .error why) :
      ∀ b, Bench.serve frame b = ((Reply.error why.message).frame,b) := by
    intro b
    rw [Bench.serve,Wire.RequestFrame.serve_refused Bench.handle refuses]
    rfl
  refine ⟨?_,?_,?_,fun r unwelcome => handle_unwelcome unwelcome future,
    fun r welcome waiting fresh turns => handle_welcome welcome waiting fresh turns⟩
  · intro r named
    have understood := Request.frame_request named
    constructor
    · rw [serve,Wire.RequestFrame.serve_understood (handle k) understood,StateT.run_map]
      cases (handle k r).run (d,future) with
      | none => rfl
      | some handled => simp only [Option.map_eq_map,Option.map_some,Reply.frame_reply]
    · intro b
      rw [Bench.serve,Wire.RequestFrame.serve_understood Bench.handle understood]
      exact ⟨Reply.frame_reply _,rfl⟩
  · intro frame strange
    rcases frame.request_exact with known | ⟨_,refuses⟩ | ⟨_,_,refuses⟩ | ⟨_,_,refuses⟩
    · exact absurd known strange
    · exact ⟨_,refuses,refused frame _ refuses,turned frame _ refuses⟩
    · exact ⟨_,refuses,refused frame _ refuses,turned frame _ refuses⟩
    · exact ⟨_,refuses,refused frame _ refuses,turned frame _ refuses⟩
  · intro t
    exact ⟨refused none .unknownType rfl,refused (some (.vote ⟨t,""⟩)) (.missing "candidate_id") rfl,
      refused (some (.heartbeat ⟨t,""⟩)) (.missing "leader_id") rfl⟩

-- Somebody has asked for the status before, and another request comes in while the vote is waited for.
theorem vote_served_in_turn :
    let d := (opened 0 5 ⟨⟨"b"⟩,⟨"b",100⟩,[⟨⟨"a"⟩,⟨"a",100⟩⟩]⟩ ⟨1,⟨5,10⟩,1⟩ 10 ⟨1⟩).run [.pass 3,.post (.status 1)]
    let future : List Incident := [.take 5,.post (.heartbeat 3 ⟨.one,⟨"a"⟩⟩),.take 5]
    let r : Request := .vote ⟨.one,⟨"a"⟩⟩
    ((serve 2 r.frame).run (d,future)).map (fun served => served.1.reply) = some (.ok (.vote ⟨true,.one⟩)) ∧
      ∃ before x rest receipt, future = before ++ x :: rest ∧
        Settles r ((d.does (.post (r.event 2))).run before) x receipt := by
  intro d future r
  have named : "a" ≠ "" := by decide
  have waiting : ∀ e ∈ d.mailbox.events, e.asker? ≠ some 2 := by decide
  have turns : d.mailbox.events.length < future.countP Incident.takes := by decide
  have fresh : ∀ e, .post e ∈ future → e.asker? ≠ some 2 := by
    intro e posted
    have only : e = .heartbeat 3 ⟨.one,⟨"a"⟩⟩ := by simpa [future] using posted
    subst only
    nofun
  obtain ⟨agree,_,_,_,settled⟩ := entrances_agree d future 2
  obtain ⟨before,x,rest,receipt,split,handled,settles⟩ := settled r rfl waiting fresh turns
  have granted : ((handle 2 r).run (d,future)).map Prod.fst = some (.vote ⟨true,.one⟩) := rfl
  rw [handled] at granted
  have served := congrArg (Option.map Prod.fst) (agree r named).1
  rw [handled,Option.map_map] at served
  refine ⟨served.trans ?_,before,x,rest,receipt,split,settles⟩
  exact congrArg (Option.map Except.ok) granted

end Duty
end LeaderElection
