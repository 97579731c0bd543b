import LeaderElection.Proofs.Cluster.View
import LeaderElection.Proofs.Mesh.Basic
import Mathlib.Logic.Relation

namespace LeaderElection

open Relation

-- The request that a passage carries for a member.
def Passage.trip? (p : Passage) : Option Trip := match p.sender with
  | .resident serial peer => some ⟨⟨serial,⟨peer,p.target⟩,p.exchange.request⟩,p.origin⟩
  | .outsider => none

theorem Passage.trip_parts {p : Passage} {l : Trip} (trip : p.trip? = some l) : p.sender = .resident l.sender l.peer.id ∧
    l.peer.address = p.target ∧ l.request = p.exchange.request ∧ l.origin = p.origin := by
  unfold trip? at trip
  split at trip
  · next sender =>
      cases trip
      exact ⟨sender,rfl,rfl,rfl⟩
  · cases trip

namespace Mesh

-- What else has become known, while no node did anything.
structure Grows (a b : Mesh) : Prop where
  node : b.node = a.node
  network : b.network = a.network
  count : b.count = a.count
  letters : a.letters ⊆ b.letters

-- A step with which no life begins.
def Quiet (members : List Member) (a b : Mesh) : Prop := Step members a b ∧ b.count = a.count

-- Where an event that waits for a life comes from. Those who ask wait for the answer to a passage of theirs, if
-- to any.
inductive Brings (a : Mesh) (passages : List Passage) (s : Nat) : Event Nat → Prop where
  | asks (admitted : (l,.admitted s) ∈ a.letters) (own : ∀ p ∈ passages, p.ticket = k → p.trip? = some l) :
      Brings a passages s (l.request.event k)
  | tells (x : Exchange) (same : x.request = l.request) (ended : (l,.ended delivery) ∈ a.letters) (sender : l.sender = s) :
      Brings a passages s (x.report l.peer.id delivery)
  | rings (alarm : Alarm) : Brings a passages s (.alarm alarm)
  | stops (foreign : ∀ p ∈ passages, p.ticket ≠ k) : Brings a passages s (.shutdown k)

-- Whoever gets one of these receipts for a passage has been answered so.
def Answered (a : Mesh) (passages : List Passage) (receipts : List (Nat × Receipt)) : Prop :=
  ∀ k receipt, (k,receipt) ∈ receipts → ∀ p ∈ passages, p.ticket = k →
    ∃ l, p.trip? = some l ∧ (l,.answered receipt.reply) ∈ a.letters

-- A cluster of members, of which as many numbers have been given, as a mesh has it.
structure Shows (count : Nat) (a : Mesh) (v : View) : Prop where
  network : a.network = v.network
  node : ∀ s, a.node s = (v.mailbox? s).bind Mailbox.node?
  below : a.count ≤ count
  tickets : ∀ p ∈ v.passages, p.ticket < count
  carried : ∀ p ∈ v.passages, ∃ l, p.trip? = some l ∧ (∃ stage, (l,stage) ∈ a.letters) ∧
    ∀ reply, p.answer = some reply → (l,.answered reply) ∈ a.letters
  waits : ∀ s m, v.mailbox? s = some m → ∀ e ∈ m.events,
    Brings a v.passages s e ∧ ∀ k, e.asker? = some k → k < count

variable (members : List Member) {a b : Mesh} {v v' : View} {passages passages' : List Passage} {s k count : Nat}
  {l : Trip} {e : Event Nat} {m m' : Mailbox Nat} {n : Node} {receipts : List (Nat × Receipt)}

theorem Grows.refl (a : Mesh) : Grows a a := ⟨rfl,rfl,rfl,List.Subset.refl _⟩

theorem Grows.trans {c : Mesh} (first : Grows a b) (second : Grows b c) : Grows a c :=
  ⟨second.node.trans first.node,second.network.trans first.network,second.count.trans first.count,
    List.Subset.trans first.letters second.letters⟩

theorem note_grows (a : Mesh) (l : Trip) (stage : Stage) : Grows a (a.note l stage) :=
  ⟨rfl,rfl,rfl,List.subset_cons_self _ _⟩

-- What is known of an event stays known, as long as no passage takes up its number.
theorem Brings.still (brings : Brings a passages s e) (letters : a.letters ⊆ b.letters)
    (still : ∀ k, e.asker? = some k → ∀ p ∈ passages', p.ticket = k → ∃ q ∈ passages, q.ticket = k ∧ q.trip? = p.trip?) :
    Brings b passages' s e := by
  cases brings with
  | @asks l k admitted own =>
      refine .asks (letters admitted) ?_
      intro p present ticket
      obtain ⟨q,known,same,trip⟩ := still k (Request.asker_event ..) p present ticket
      exact trip.symm.trans (own q known same)
  | tells x same ended sender => exact .tells x same (letters ended) sender
  | rings alarm => exact .rings alarm
  | stops foreign =>
      refine .stops ?_
      intro p present ticket
      obtain ⟨q,known,same,_⟩ := still _ rfl p present ticket
      exact foreign q known same

theorem Brings.grown (brings : Brings a passages s e) (letters : a.letters ⊆ b.letters) : Brings b passages s e :=
  brings.still letters fun _ _ p known ticket => ⟨p,known,ticket,rfl⟩

theorem Answered.later (answered : Answered a passages receipts) (letters : a.letters ⊆ b.letters) :
    Answered b passages receipts := by
  intro k receipt given p present ticket
  obtain ⟨l,trip,known⟩ := answered k receipt given p present ticket
  exact ⟨l,trip,letters known⟩

theorem answered_nobody (a : Mesh) (passages : List Passage) : Answered a passages [] :=
  fun _ _ given => absurd given List.not_mem_nil

theorem Answered.append {more : List (Nat × Receipt)} (first : Answered a passages receipts)
    (second : Answered a passages more) : Answered a passages (receipts ++ more) := by
  intro k receipt given
  rcases List.mem_append.mp given with one | other
  · exact first k receipt one
  · exact second k receipt other

-- Whoever waits is turned away when the loop he waits for is gone, and so the request he waits with is declined.
theorem Brings.refused (brings : Brings a passages s e) :
    ∃ b, ReflTransGen (Quiet members) a b ∧ Grows a b ∧ Answered b passages e.refused := by
  cases brings with
  | @asks l k admitted own =>
      refine ⟨_,.single ⟨.decline admitted,rfl⟩,note_grows ..,?_⟩
      intro k' receipt given p present ticket
      rw [Event.refused,Request.asker_event] at given
      cases List.mem_singleton.mp given
      exact ⟨l,own p present ticket,List.mem_cons_self⟩
  | tells x _ _ _ =>
      refine ⟨a,.refl,.refl a,?_⟩
      rw [Event.refused,Exchange.asker_report]
      exact answered_nobody a passages
  | rings alarm => exact ⟨a,.refl,.refl a,answered_nobody a passages⟩
  | stops foreign =>
      refine ⟨a,.refl,.refl a,?_⟩
      intro k' receipt given p present ticket
      cases List.mem_singleton.mp given
      exact absurd ticket (foreign p present)

theorem turned_away {events : List (Event Nat)} (waits : ∀ e ∈ events, Brings a passages s e) :
    ∃ b, ReflTransGen (Quiet members) a b ∧ Grows a b ∧ Answered b passages (events.flatMap Event.refused) := by
  induction events generalizing a with
  | nil => exact ⟨a,.refl,.refl a,answered_nobody a passages⟩
  | cons e rest ih =>
      obtain ⟨b,steps,grows,answered⟩ := (waits e List.mem_cons_self).refused members
      have later : ∀ e ∈ rest, Brings b passages s e := fun e' present =>
        (waits e' (List.mem_cons_of_mem _ present)).grown grows.letters
      obtain ⟨c,steps',grows',answered'⟩ := ih later
      exact ⟨c,steps.trans steps',grows.trans grows',(answered.later grows'.letters).append answered'⟩

namespace Shows

theorem grows (shows : Shows count a v) (grows : Grows a b) : Shows count b v := by
  refine ⟨grows.network.trans shows.network,?_,grows.count.trans_le shows.below,shows.tickets,?_,?_⟩
  · intro s
    rw [grows.node]
    exact shows.node s
  · intro p present
    obtain ⟨l,trip,⟨stage,known⟩,answered⟩ := shows.carried p present
    exact ⟨l,trip,⟨stage,grows.letters known⟩,fun reply given => grows.letters (answered reply given)⟩
  · intro s m lives e present
    obtain ⟨brings,earlier⟩ := shows.waits s m lives e present
    exact ⟨brings.grown grows.letters,earlier⟩

theorem more (shows : Shows count a v) {count' : Nat} (later : count ≤ count') : Shows count' a v :=
  ⟨shows.network,shows.node,shows.below.trans later,fun p present => (shows.tickets p present).trans_le later,
    shows.carried,fun s m lives e present => (shows.waits s m lives e present).imp_right fun earlier k asks =>
      (earlier k asks).trans_le later⟩

-- Fewer passages, at another time.
theorem fewer (shows : Shows count a v) (network : v'.network = v.network) (mailbox : v'.mailbox? = v.mailbox?)
    (passages : v'.passages ⊆ v.passages) : Shows count a v' := by
  refine ⟨shows.network.trans network.symm,?_,shows.below,fun p present => shows.tickets p (passages present),
    fun p present => shows.carried p (passages present),?_⟩
  · rw [mailbox]
    exact shows.node
  · intro s m lives e present
    rw [mailbox] at lives
    obtain ⟨brings,earlier⟩ := shows.waits s m lives e present
    exact ⟨brings.still (List.Subset.refl _) fun _ _ p known ticket => ⟨p,passages known,ticket,rfl⟩,earlier⟩

theorem answer (shows : Shows count a v) (answered : Answered a v.passages receipts) : Shows count a (v.answer receipts) := by
  have before : ∀ p ∈ (v.answer receipts).passages, ∃ q ∈ v.passages, q.ticket = p.ticket ∧ q.trip? = p.trip? ∧
      ∀ reply, p.answer = some reply → q.answer = some reply ∨
        ∃ receipt, (p.ticket,receipt) ∈ receipts ∧ receipt.reply = reply := by
    intro p present
    obtain ⟨q,known,rfl⟩ := List.mem_map.mp present
    refine ⟨q,known,?_⟩
    cases given : receipts.lookup q.ticket with
    | none => exact ⟨rfl,rfl,fun reply same => .inl same⟩
    | some receipt =>
        refine ⟨rfl,rfl,fun reply same => .inr ⟨receipt,?_,Option.some.inj same⟩⟩
        obtain ⟨_,_,split,_⟩ := List.lookup_eq_some_iff.mp given
        exact split ▸ List.mem_append_right _ List.mem_cons_self
  refine ⟨shows.network,shows.node,shows.below,?_,?_,?_⟩
  · intro p present
    obtain ⟨q,known,ticket,_⟩ := before p present
    exact ticket ▸ shows.tickets q known
  · intro p present
    obtain ⟨q,known,ticket,trip,answers⟩ := before p present
    obtain ⟨l,same,stage,already⟩ := shows.carried q known
    refine ⟨l,trip.symm.trans same,stage,?_⟩
    intro reply given
    rcases answers reply given with earlier | ⟨receipt,listed,rfl⟩
    · exact already reply earlier
    · obtain ⟨l',same',told⟩ := answered _ receipt listed q known ticket
      cases same.symm.trans same'
      exact told
  · intro s m lives e present
    obtain ⟨brings,earlier⟩ := shows.waits s m lives e present
    refine ⟨brings.still (List.Subset.refl _) ?_,earlier⟩
    intro k _ p present ticket
    obtain ⟨q,known,same,trip,_⟩ := before p present
    exact ⟨q,known,same.trans ticket,trip⟩

-- A change of one member's mailbox, with what becomes of its node.
theorem put (shows : Shows count a v) (node : b.node = Function.update a.node s m'.node?) (network : b.network = a.network)
    (counted : b.count ≤ count) (letters : a.letters ⊆ b.letters)
    (waits : ∀ e ∈ m'.events, Brings b v.passages s e ∧ ∀ k, e.asker? = some k → k < count) :
    Shows count b (v.put s m') := by
  refine ⟨network.trans shows.network,?_,counted,shows.tickets,?_,?_⟩
  · intro t
    rw [node]
    by_cases same : t = s
    · subst same
      simp [View.put]
    · simp [View.put,Function.update_of_ne same,shows.node t]
  · intro p present
    obtain ⟨l,trip,⟨stage,known⟩,answered⟩ := shows.carried p present
    exact ⟨l,trip,⟨stage,letters known⟩,fun reply given => letters (answered reply given)⟩
  · intro t m lives e present
    by_cases same : t = s
    · subst same
      cases (Function.update_self ..).symm.trans lives
      exact waits e present
    · have lived : v.mailbox? t = some m := (Function.update_of_ne same ..).symm.trans lives
      obtain ⟨brings,earlier⟩ := shows.waits t m lived e present
      exact ⟨brings.grown letters,earlier⟩

-- The same for a node that stays as it is.
theorem keep (shows : Shows count a v) (lives : v.mailbox? s = some m) (node : m'.node? = m.node?)
    (waits : ∀ e ∈ m'.events, Brings a v.passages s e ∧ ∀ k, e.asker? = some k → k < count) :
    Shows count a (v.put s m') := by
  have same : a.node s = m'.node? := by rw [shows.node,lives,node]; rfl
  exact shows.put (same ▸ (Function.update_eq_self s a.node).symm) rfl shows.below (List.Subset.refl _) waits

theorem running (shows : Shows count a v) (lives : v.mailbox? s = some m) (running : m.node? = some n) :
    a.node s = some n := by
  rw [shows.node,lives]
  exact running

-- What is posted waits, or whoever asks is turned away.
theorem posts (shows : Shows count a v) (brings : Brings a v.passages s e) (earlier : ∀ k, e.asker? = some k → k < count)
    (posts : v.Posts s e v') : ∃ b, ReflTransGen (Quiet members) a b ∧ Grows a b ∧ Shows count b v' := by
  cases posts with
  | taken lives posted =>
      obtain ⟨_,_,rfl⟩ := Mailbox.post_parts posted
      refine ⟨a,.refl,.refl a,shows.keep lives rfl ?_⟩
      intro e' present
      rcases List.mem_append.mp present with known | last
      · exact shows.waits s _ lives e' known
      · cases List.mem_singleton.mp last
        exact ⟨brings,earlier⟩
  | refused _ =>
      obtain ⟨b,steps,grows,answered⟩ := brings.refused members
      exact ⟨b,steps,grows,(shows.grows grows).answer answered⟩

-- A request that has been admitted, under the next number.
theorem add (shows : Shows count a v) (ticket : p.ticket = count) (trip : p.trip? = some l) (fresh : p.answer = none)
    (known : (l,stage) ∈ a.letters) : Shows (count+1) a {v with passages := v.passages ++ [p]} := by
  refine ⟨shows.network,shows.node,Nat.le_succ_of_le shows.below,?_,?_,?_⟩
  · intro q present
    rcases List.mem_append.mp present with before | last
    · exact Nat.lt_succ_of_lt (shows.tickets q before)
    · cases List.mem_singleton.mp last
      exact ticket ▸ Nat.lt_succ_self _
  · intro q present
    rcases List.mem_append.mp present with before | last
    · exact shows.carried q before
    · cases List.mem_singleton.mp last
      exact ⟨l,trip,⟨_,known⟩,fun reply given => nomatch fresh.symm.trans given⟩
  · intro s m lives e present
    obtain ⟨brings,earlier⟩ := shows.waits s m lives e present
    refine ⟨brings.still (List.Subset.refl _) ?_,fun k asks => Nat.lt_succ_of_lt (earlier k asks)⟩
    intro k asks q listed same
    rcases List.mem_append.mp listed with before | last
    · exact ⟨q,before,same,rfl⟩
    · cases List.mem_singleton.mp last
      exact absurd (same.symm.trans ticket) (Nat.ne_of_lt (earlier k asks))

-- The end of a loop. Whoever waits for it is turned away.
theorem ends (shows : Shows count a v) (node : Node) {events : List (Event Nat)} (held : Bool)
    (waits : ∀ e ∈ events, Brings a v.passages s e) (told : Answered a v.passages receipts) :
    let turn := Mailbox.exit node events receipts held
    ∃ b, ReflTransGen (Quiet members) a b ∧ Shows count b ((v.put s turn.mailbox).answer turn.receipts) := by
  intro turn
  have stopped : Quiet members a {a with node := Function.update a.node s none} := ⟨.stop s,rfl⟩
  obtain ⟨b,steps,grows,answered⟩ := turned_away members (a := {a with node := Function.update a.node s none})
    fun e present => (waits e present).grown (List.Subset.refl _)
  have put : Shows count b (v.put s turn.mailbox) :=
    shows.put grows.node grows.network (grows.count.trans_le shows.below) grows.letters fun _ present => absurd present List.not_mem_nil
  refine ⟨b,.head stopped steps,put.answer ?_⟩
  exact (told.later grows.letters).append answered

end Shows

-- What a waiting event comes to at the node it calls, with the answer to whoever asked.
theorem Brings.called (brings : Brings a passages s e) (calls : e.call? = some c) (lives : a.node s = some n) (now draw : Nat) :
    ∃ b, Quiet members a b ∧ Grows (a.act s (n.apply now draw c)) b ∧ ∀ k, e.asker? = some k → ∀ p ∈ passages,
      p.ticket = k → ∃ l, p.trip? = some l ∧ (l,.answered (n.apply now draw c).answer.reply) ∈ b.letters := by
  cases brings with
  | @asks l k admitted own =>
      cases (Request.event_call k l.request).symm.trans calls
      refine ⟨_,⟨.answer now draw admitted lives,rfl⟩,note_grows ..,?_⟩
      intro k' asks p present ticket
      cases (Request.asker_event k l.request).symm.trans asks
      exact ⟨l,own p present ticket,List.mem_cons_self⟩
  | @tells l delivery x same ended sender =>
      cases (Exchange.report_call l.peer.id delivery x).symm.trans calls
      subst sender
      rw [same]
      refine ⟨_,⟨.tell now draw ended lives,rfl⟩,.refl _,?_⟩
      intro k asks
      cases (Exchange.asker_report l.peer.id delivery x).symm.trans asks
  | rings alarm =>
      refine ⟨_,⟨.own now draw lives ?_,rfl⟩,.refl _,fun _ asks => nomatch asks⟩
      cases alarm with
      | electionTimeout =>
          cases calls
          exact .inr (.inl rfl)
      | heartbeatTick t =>
          cases calls
          exact .inr (.inr ⟨t,rfl⟩)
  | stops _ => cases calls

-- Nothing else that waits leaves the node alone.
theorem Brings.other (brings : Brings a passages s e) (other : e.call? = none) :
    ∃ k, e = .shutdown k ∧ ∀ p ∈ passages, p.ticket ≠ k := by
  cases brings with
  | @asks l k _ _ => cases (Request.event_call k l.request).symm.trans other
  | @tells l delivery x _ _ _ => cases (Exchange.report_call l.peer.id delivery x).symm.trans other
  | rings alarm => cases alarm <;> cases other
  | stops foreign => exact ⟨_,rfl,foreign⟩

namespace Shows

-- A turn of a node. What it sends is on record, but not on its way yet.
theorem take (shows : Shows count a v) (lives : v.mailbox? s = some m) (running : m.node? = some n)
    (took : m.take now draw = some turn) : ∃ b, ReflTransGen (Quiet members) a b ∧
      Shows count b ((v.put s turn.mailbox).answer turn.receipts) ∧
      ∀ d ∈ turn.sends, ((⟨⟨s,d.peer,d.request⟩,n.roster.address⟩,.asked) : Trip × Stage) ∈ b.letters := by
  obtain ⟨n',running',⟨_,rfl⟩ | ⟨e,rest,first,rfl⟩⟩ := Mailbox.take_turn took
  · obtain ⟨b,steps,shown⟩ := shows.ends members (s := s) n' m.held
      (fun _ present => absurd present List.not_mem_nil) (answered_nobody a v.passages)
    exact ⟨b,steps,shown,fun _ sent => absurd sent List.not_mem_nil⟩
  · cases running'.symm.trans running
    have waits : ∀ e' ∈ e :: rest, Brings a v.passages s e' ∧ ∀ k, e'.asker? = some k → k < count :=
      first ▸ shows.waits s m lives
    obtain ⟨brings,_⟩ := waits e List.mem_cons_self
    cases calls : e.call? with
    | none =>
        obtain ⟨k,rfl,foreign⟩ := brings.other calls
        have told : Answered a v.passages [(k,.down)] := by
          intro k' receipt given p present ticket
          cases List.mem_singleton.mp given
          exact absurd ticket (foreign p present)
        obtain ⟨b,steps,shown⟩ := shows.ends members n m.held
          (fun e' later => (waits e' (List.mem_cons_of_mem _ later)).1) told
        exact ⟨b,steps,shown,fun _ sent => absurd sent List.not_mem_nil⟩
    | some c =>
        obtain ⟨b,step,grows,answered⟩ := brings.called members calls (shows.running lives running) now draw
        obtain ⟨mailbox,sends⟩ := Mailbox.handle_call calls now draw n rest m.held
        have acted : a.letters ⊆ b.letters := List.Subset.trans (a.toCompany.act_kept) grows.letters
        have put : Shows count b (v.put s (Mailbox.handle now draw n e rest m.held).mailbox) := by
          rw [mailbox]
          refine shows.put grows.node grows.network (grows.count.trans_le shows.below) acted ?_
          intro e' later
          obtain ⟨brings',earlier⟩ := waits e' (List.mem_cons_of_mem _ later)
          exact ⟨brings'.grown acted,earlier⟩
        refine ⟨b,.single step,put.answer ?_,?_⟩
        · intro k receipt given p present ticket
          obtain ⟨asks,reply⟩ := Mailbox.handle_receipts calls given
          exact reply ▸ answered k asks p present ticket
        · intro d sent
          rw [sends] at sent
          have asked : ((⟨⟨s,d.peer,d.request⟩,(n.apply now draw c).node.roster.address⟩,.asked) : Trip × Stage) ∈
              (a.act s (n.apply now draw c)).letters := Company.act_sent sent a.toCompany
          rw [(Node.apply_change now draw n c).roster] at asked
          exact grows.letters asked

theorem wake (shows : Shows count a v) (lives : v.mailbox? s = some m) (woken : m.wake now draw = some (m',alarm)) :
    ∃ b, ReflTransGen (Quiet members) a b ∧ Shows count b (v.put s m') := by
  obtain ⟨n,after,running,rung,rfl⟩ := Mailbox.wake_parts woken
  refine ⟨_,.single ⟨.wake now draw (shows.running lives running) rung,rfl⟩,
    shows.put rfl rfl shows.below (List.Subset.refl _) ?_⟩
  have waited : ∀ e ∈ m.events, Brings (a.put s after) v.passages s e ∧ ∀ k, e.asker? = some k → k < count :=
    fun e known => (shows.waits s m lives e known).imp_left fun brings => brings.grown (List.Subset.refl _)
  intro e present
  dsimp only at present
  split at present
  · rcases List.mem_append.mp present with known | rings
    · exact waited e known
    · obtain ⟨alarm,_,rfl⟩ := List.mem_map.mp rings
      exact ⟨.rings alarm,fun _ asks => nomatch asks⟩
  · exact waited e present

end Shows
end Mesh
end LeaderElection
