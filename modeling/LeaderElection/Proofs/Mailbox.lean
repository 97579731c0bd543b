import LeaderElection.Proofs.Node.Published
import LeaderElection.Station

namespace LeaderElection

-- The call a request comes to at its receiver, and the one its outcome comes to at its sender.
def Request.call : Request → Call
  | .vote r => .voteRequest r
  | .heartbeat h => .heartbeat h

def Request.outcome (peer : NodeId) (delivery : Delivery) : Request → Call
  | .vote r => .voteReply peer r.term delivery.asVote
  | .heartbeat h => .heartbeatReply peer h.term delivery.asHeartbeat

-- What goes back to a peer for the answer of a handler.
def Answer.reply : Answer → Reply
  | .vote result => .ofVote result
  | .heartbeat result => .ofHeartbeat result
  | _ => .error stoppedMessage

-- What an event calls the node with. Two are no calls: they ask for its status, or end it.
def Event.call? {τ : Type} : Event τ → Option Call
  | .voteRequest _ r => some (.voteRequest r)
  | .heartbeat _ h => some (.heartbeat h)
  | .voteReply peer t result => some (.voteReply peer t result)
  | .heartbeatReply peer t result => some (.heartbeatReply peer t result)
  | .alarm .electionTimeout => some .timeout
  | .alarm (.heartbeatTick t) => some (.tick t)
  | .status _ => none
  | .shutdown _ => none

theorem Request.asker_event {τ : Type} (asker : τ) (r : Request) : (r.event asker).asker? = some asker := by cases r <;> rfl

theorem Request.event_call {τ : Type} (asker : τ) (r : Request) : (r.event asker).call? = some r.call := by cases r <;> rfl

theorem Exchange.asker_report {τ : Type} (peer : NodeId) (delivery : Delivery) (x : Exchange) :
    (x.report peer delivery : Event τ).asker? = none := by
  obtain ⟨r,_,_⟩ := x
  cases r <;> rfl

theorem Exchange.report_call {τ : Type} (peer : NodeId) (delivery : Delivery) (x : Exchange) :
    (x.report peer delivery : Event τ).call? = some (x.request.outcome peer delivery) := by
  obtain ⟨r,_,_⟩ := x
  cases r <;> rfl

namespace Loop

def feed : Loop → Feed Snapshot
  | .running node => node.feed
  | .exited feed => feed

-- A deed of the node behind the loop, and the end of both. Nothing happens after the end.
def does (d : Deed) : Loop → Loop
  | .running node => .running (node.does d)
  | .exited feed => .exited feed

def stop : Loop → Loop
  | .running node => .exited node.feed.close
  | .exited feed => .exited feed

-- What has been published is in order, and its end is told when the loop has exited, not before.
inductive Sound : Loop → Prop where
  | running (coherent : node.Coherent) (lasting : node.feed.closed = false)
      (said : node.feed.history.IsChain Snapshot.Passes) : Sound (.running node)
  | exited (ended : f.closed = true) (said : f.history.IsChain Snapshot.Passes) : Sound (.exited f)

theorem Sound.closed_exited (sound : Sound l) : l.feed.closed = true ↔ ∃ f, l = .exited f := by
  cases sound with
  | running _ lasting _ => simp [feed,lasting]
  | exited ended _ => simp [feed,ended]

-- All that can happen to a loop at once.
inductive Goes : Loop → Loop → Prop where
  | same : Goes l l
  | does (d : Deed) : Goes l (l.does d)
  | stop : Goes l l.stop

variable {l l' : Loop}

theorem Sound.created (now draw : Nat) (roster : Roster) (timings : Timings) :
    Sound (.running (.create now draw roster timings)) :=
  .running (.created now draw roster timings) rfl (List.isChain_singleton _)

theorem Sound.chain (sound : l.Sound) : l.feed.history.IsChain Snapshot.Passes := by
  cases sound with
  | running _ _ said => exact said
  | exited _ said => exact said

theorem Goes.sound (goes : Goes l l') (sound : l.Sound) : l'.Sound := by
  cases goes with
  | same => exact sound
  | does d =>
      cases sound with
      | running coherent lasting said =>
          have onward := Node.does_feed coherent d
          exact .running (coherent.does d) (onward.closed.trans lasting) (onward.chain said)
      | exited ended said => exact .exited ended said
  | stop =>
      cases sound with
      | running _ _ said => exact .exited rfl said
      | exited ended said => exact .exited ended said

theorem Goes.history (goes : Goes l l') (sound : l.Sound) : l.feed.history <+: l'.feed.history := by
  cases goes with
  | same => exact List.prefix_rfl
  | does d =>
      cases sound with
      | running coherent _ _ => exact (Node.does_feed coherent d).history
      | exited _ _ => exact List.prefix_rfl
  | stop =>
      cases sound with
      | running _ _ _ => exact List.prefix_rfl
      | exited _ _ => exact List.prefix_rfl

theorem Goes.exited (goes : Goes (.exited f) l') : l' = .exited f := by
  cases goes <;> rfl

end Loop

namespace Mailbox

variable {τ : Type} {m : Mailbox τ}

theorem feed_loop (m : Mailbox τ) : m.feed = m.loop.feed := by
  unfold feed
  cases m.loop <;> rfl

theorem stopped_loop : m.node? = none ↔ m.loop = .exited m.feed := by
  unfold node? feed
  cases m.loop <;> simp

theorem closed_stopped (sound : m.loop.Sound) : m.feed.closed = true ↔ m.node? = none := by
  rw [feed_loop,sound.closed_exited]
  unfold node?
  cases m.loop <;> simp

theorem node_exact {n : Node} : m.node? = some n ↔ m = ⟨.running n,m.events,m.held⟩ := by
  obtain ⟨loop,events,held⟩ := m
  cases loop <;> simp [node?]

theorem post_parts (posted : m.post e = some next) :
    m.held = true ∧ (∃ n, m.node? = some n) ∧ next = {m with events := m.events ++ [e]} := by
  unfold post at posted
  split at posted
  · next open' =>
      obtain ⟨held,running⟩ := Bool.and_eq_true_iff.mp open'
      exact ⟨held,Option.isSome_iff_exists.mp running,(Option.some.inj posted).symm⟩
  · cases posted

-- As long as somebody holds a node, nothing but an event makes it take a turn.
theorem take_parts {n : Node} (running : m.node? = some n) (held : m.held = true) (taken : m.take now draw = some next) :
    ∃ e rest, m = ⟨.running n,e :: rest,true⟩ ∧ next = handle now draw n e rest true := by
  obtain ⟨_,events,_⟩ := m
  cases node_exact.mp running
  cases held
  cases events with
  | nil => cases taken
  | cons e rest =>
      cases taken
      exact ⟨e,rest,rfl,rfl⟩

theorem take_waiting {n : Node} (running : m.node? = some n) (waits : e ∈ m.events) (now draw : Nat) :
    ∃ next, m.take now draw = some next := by
  obtain ⟨_,events,held⟩ := m
  cases node_exact.mp running
  cases events with
  | nil => cases waits
  | cons e rest => exact ⟨_,rfl⟩

-- A turn is for the first event, or the end of a loop that nobody can post to any more.
theorem take_turn (took : m.take now draw = some next) : ∃ n, m.node? = some n ∧
    (m.events = [] ∧ next = Mailbox.exit n [] [] m.held ∨
      ∃ e rest, m.events = e :: rest ∧ next = handle now draw n e rest m.held) := by
  obtain ⟨loop,events,held⟩ := m
  cases loop with
  | exited feed => cases took
  | running n =>
      refine ⟨n,rfl,?_⟩
      cases events with
      | nil =>
          cases held with
          | true => cases took
          | false =>
              cases took
              exact .inl ⟨rfl,rfl⟩
      | cons e rest =>
          cases took
          exact .inr ⟨e,rest,rfl,rfl⟩

theorem handle_rest (now draw : Nat) (n : Node) (e : Event τ) (rest : List (Event τ)) (held : Bool) :
    let after := (handle now draw n e rest held).mailbox
    after.held = held ∧ (after.node? = none ∨ after.events = rest) := by
  cases e with
  | alarm a => cases a <;> exact ⟨rfl,.inr rfl⟩
  | shutdown asker => exact ⟨rfl,.inl rfl⟩
  | _ => exact ⟨rfl,.inr rfl⟩

theorem take_held (took : m.take now draw = some next) : next.mailbox.held = m.held := by
  obtain ⟨n,_,⟨_,rfl⟩ | ⟨e,rest,_,rfl⟩⟩ := take_turn took
  · rfl
  · exact (handle_rest now draw n e rest m.held).1

theorem take_rest (took : m.take now draw = some next) (running : next.mailbox.node?.isSome = true) :
    next.mailbox.events = m.events.drop 1 := by
  obtain ⟨n,_,⟨_,rfl⟩ | ⟨e,rest,first,rfl⟩⟩ := take_turn took
  · cases running
  · rw [first]
    rcases (handle_rest now draw n e rest m.held).2 with gone | left
    · rw [gone] at running
      cases running
    · exact left

-- What the timer says is posted as long as somebody holds the node.
theorem wake_running (now draw : Nat) (n : Node) (events : List (Event τ)) (held : Bool) :
    wake now draw ⟨.running n,events,held⟩ = (n.wake now draw).map fun result =>
      (⟨.running result.1,if held then events ++ result.2.toList.map .alarm else events,held⟩,result.2) := by
  unfold wake
  dsimp only
  congr 1
  funext ⟨after,alarm⟩
  cases alarm <;> cases held <;> simp [post,node?]

theorem wake_parts (woken : m.wake now draw = some (next,alarm)) : ∃ n after, m.node? = some n ∧
    n.wake now draw = some (after,alarm) ∧
    next = ⟨.running after,if m.held then m.events ++ alarm.toList.map .alarm else m.events,m.held⟩ := by
  obtain ⟨loop,events,held⟩ := m
  cases loop with
  | exited feed => cases woken
  | running n =>
      rw [wake_running] at woken
      obtain ⟨⟨after,_⟩,rung,same⟩ := Option.map_eq_some_iff.mp woken
      cases same
      exact ⟨n,after,rfl,rung,rfl⟩

theorem handle_goes (now draw : Nat) (node : Node) (e : Event τ) (rest : List (Event τ)) (held : Bool) :
    Loop.Goes (.running node) (handle now draw node e rest held).mailbox.loop := by
  cases e with
  | voteRequest asker r => exact .does (.call now draw (.voteRequest r))
  | heartbeat asker h => exact .does (.call now draw (.heartbeat h))
  | voteReply peer t result => exact .does (.call now draw (.voteReply peer t result))
  | heartbeatReply peer t result => exact .does (.call now draw (.heartbeatReply peer t result))
  | alarm a =>
      cases a with
      | electionTimeout => exact .does (.call now draw .timeout)
      | heartbeatTick t => exact .does (.call now draw (.tick t))
  | status asker => exact .same
  | shutdown asker => exact .stop

theorem take_goes (taken : m.take now draw = some next) : m.loop.Goes next.mailbox.loop := by
  unfold take at taken
  cases loop : m.loop with
  | exited feed => simp [loop] at taken
  | running node =>
      simp only [loop] at taken
      split at taken
      · split at taken
        · cases taken
        · cases taken; exact .stop
      · cases taken
        exact handle_goes now draw node _ _ _

theorem post_loop (posted : m.post e = some next) : next.loop = m.loop := by
  obtain ⟨_,_,rfl⟩ := post_parts posted
  rfl

theorem post_goes (posted : m.post e = some next) : m.loop.Goes next.loop := by
  rw [post_loop posted]
  exact .same

theorem wake_goes (woken : m.wake now draw = some (next,alarm)) : m.loop.Goes next.loop := by
  obtain ⟨n,after,running,rung,rfl⟩ := wake_parts woken
  have does : (Loop.running n).does (.wake now draw) = .running after := by
    simp only [Loop.does,Node.does,rung,Option.map_some,Option.getD_some]
  rw [node_exact.mp running]
  exact does ▸ .does _

theorem getD_goes {after : Option (Mailbox τ)} (goes : ∀ next, after = some next → m.loop.Goes next.loop) :
    m.loop.Goes (after.getD m).loop := by
  cases after with
  | none => exact .same
  | some next => exact goes next rfl

theorem handle_call (calls : e.call? = some c) (now draw : Nat) (n : Node) (rest : List (Event τ)) (held : Bool) :
    (handle now draw n e rest held).mailbox = ⟨.running (n.apply now draw c).node,rest,held⟩ ∧
      (handle now draw n e rest held).sends = (n.apply now draw c).sends := by
  cases e with
  | alarm a => cases a <;> cases calls <;> exact ⟨rfl,rfl⟩
  | status _ => cases calls
  | shutdown _ => cases calls
  | _ => cases calls; exact ⟨rfl,rfl⟩

-- An event that does not call the node leaves it alone or takes it away, and sends nothing.
theorem handle_other (other : e.call? = none) (now draw : Nat) (n : Node) (rest : List (Event τ)) (held : Bool) :
    ((handle now draw n e rest held).mailbox = ⟨.running n,rest,held⟩ ∨
      (handle now draw n e rest held).mailbox.node? = none) ∧ (handle now draw n e rest held).sends = [] := by
  cases e with
  | alarm a => cases a <;> cases other
  | status _ => exact ⟨.inl rfl,rfl⟩
  | shutdown _ => exact ⟨.inr rfl,rfl⟩
  | _ => cases other

-- Nobody is answered but whoever asked, and he gets what the node has to say.
theorem handle_receipts (calls : e.call? = some c) {now draw : Nat} {n : Node} {rest : List (Event τ)} {held : Bool}
    (given : (k,receipt) ∈ (handle now draw n e rest held).receipts) :
    e.asker? = some k ∧ receipt.reply = (n.apply now draw c).answer.reply := by
  cases e with
  | voteRequest asker r =>
      cases calls
      cases List.mem_singleton.mp given
      exact ⟨rfl,rfl⟩
  | heartbeat asker h =>
      cases calls
      cases List.mem_singleton.mp given
      exact ⟨rfl,rfl⟩
  | alarm a => cases a <;> cases given
  | status _ => cases calls
  | shutdown _ => cases calls
  | _ => cases given

theorem handle_request (now draw : Nat) (n : Node) (q : Request) (asker : τ) (rest : List (Event τ)) (held : Bool) :
    (handle now draw n (q.event asker) rest held).mailbox = ⟨.running (n.apply now draw q.call).node,rest,held⟩ ∧
      ∃ receipt, (handle now draw n (q.event asker) rest held).receipts = [(asker,receipt)] ∧
        receipt.reply = (n.apply now draw q.call).answer.reply := by
  cases q <;> exact ⟨rfl,_,rfl,rfl⟩

theorem handle_report (now draw : Nat) (n : Node) (x : Exchange) (peer : NodeId) (delivery : Delivery)
    (rest : List (Event τ)) (held : Bool) : (handle now draw n (x.report peer delivery) rest held).mailbox =
      ⟨.running (n.apply now draw (x.request.outcome peer delivery)).node,rest,held⟩ := by
  obtain ⟨q,_,_⟩ := x
  cases q <;> rfl

end Mailbox

theorem Station.take_parts {s s' : Station} {now draw : Nat} (took : s.take now draw = some (turn,s')) :
    s.mailbox.take now draw = some turn ∧ s'.mailbox = turn.mailbox := by
  obtain ⟨turn',taken,same⟩ := Option.map_eq_some_iff.mp took
  cases same
  exact ⟨taken,rfl⟩

end LeaderElection
