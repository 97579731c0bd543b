import LeaderElection.Message
import LeaderElection.Proofs.Basic
import LeaderElection.Proofs.Network

namespace LeaderElection

-- A request whose handler was invoked, until its sender has the outcome.
structure Crossing where
  origin : Address
  target : Address
  deadline : Nat
  answer : Option Reply

-- A network under a clock, the requests that cross it by serial numbers, and what has become of all.
structure Transit (η : Type) where
  now : Nat
  network : Network η
  guards : List Guard
  serial : Nat
  waiting : Directory Nat Crossing
  invoked : List (Nat × η × Request)
  results : List (Nat × Nat × Delivery)

-- What can happen. A handler is through with a request at some time or never, whatever it does meanwhile.
inductive Act (η : Type) where
  | order (o : Partition.Order)
  | register (a : Address) (handler : η)
  | withdraw (guard : Nat)
  | send (origin target : Address) (request : Request) (timeout : Nat)
  | answer (serial : Nat) (reply : Reply)
  | poll (serial : Nat)
  | pass (instant : Nat)

namespace Act

variable {η : Type}

def order? : Act η → Option Partition.Order
  | .order o => some o
  | _ => none

def answer? (k : Nat) : Act η → Option Reply
  | .answer j reply => if j = k then some reply else none
  | _ => none

end Act

-- What a log says of one serial number.
def about {α : Type} (k : Nat) (log : List (Nat × α)) : List α := (log.filter fun e => e.1 = k).map Prod.snd

theorem about_snoc {α : Type} (k j : Nat) (x : α) (log : List (Nat × α)) :
    about k (log ++ [(j,x)]) = if j = k then about k log ++ [x] else about k log := by
  unfold about
  rw [List.filter_append,List.map_append]
  by_cases same : j = k <;> simp [same]

namespace Transit

variable {η : Type}

def opened (start : Nat) : Transit η := ⟨start,.empty,[],0,.empty,[],[]⟩

def outcome (t : Transit η) (c : Crossing) : Option Delivery :=
  Delivery.await t.now c.deadline (c.answer.map fun r => t.network.carry c.origin c.target r)

-- Nobody who waits is due before an instant.
def idle (instant : Nat) (t : Transit η) : Bool :=
  t.waiting.keys.all fun k => (t.waiting.find? k).all fun c =>
    c.answer.isNone && decide (instant ≤ Time.wake c.deadline)

def register (a : Address) (handler : η) (t : Transit η) : Transit η :=
  match t.network.register a handler with
  | .error _ => t
  | .ok (g,network) => {t with network, guards := t.guards ++ [g]}

def withdraw (i : Nat) (t : Transit η) : Transit η :=
  match t.guards[i]? with
  | none => t
  | some g => {t with network := (g.finish t.network).2, guards := t.guards.set i (g.finish t.network).1}

def send (origin target : Address) (request : Request) (timeout : Nat) (t : Transit η) : Transit η :=
  let counted := {t with serial := t.serial+1}
  match t.network.route origin target with
  | .error e => {counted with results := t.results ++ [(t.serial,t.now,.error e)]}
  | .ok handler => {counted with
      invoked := t.invoked ++ [(t.serial,handler,request)]
      waiting := t.waiting.put t.serial ⟨origin,target,t.now+timeout,none⟩}

-- Nobody answers twice, nor one who is gone.
def answer (k : Nat) (reply : Reply) (t : Transit η) : Transit η :=
  match t.waiting.find? k with
  | none => t
  | some c => {t with waiting := t.waiting.put k {c with answer := c.answer.or (some reply)}}

def poll (k : Nat) (t : Transit η) : Transit η :=
  match (t.waiting.find? k).bind t.outcome with
  | none => t
  | some d => {t with waiting := t.waiting.remove k, results := t.results ++ [(k,t.now,d)]}

def does : Act η → Transit η → Transit η
  | .order o,t => {t with network := t.network.obey o}
  | .register a handler,t => t.register a handler
  | .withdraw i,t => t.withdraw i
  | .send origin target request timeout,t => t.send origin target request timeout
  | .answer k reply,t => t.answer k reply
  | .poll k,t => t.poll k
  | .pass instant,t => if t.now ≤ instant ∧ t.idle instant then {t with now := instant} else t

def run : List (Act η) → Transit η → Transit η
  | [],t => t
  | x :: rest,t => run rest (t.does x)

-- What there is to tell of one request: whether it is under way, the handlers invoked for it, its results.
def story (k : Nat) (t : Transit η) : Option Crossing × List (η × Request) × List (Nat × Delivery) :=
  (t.waiting.find? k,about k t.invoked,about k t.results)

def Concerns (k : Nat) (t : Transit η) : Act η → Prop
  | .send _ _ _ _ => t.serial = k
  | .answer j _ => j = k
  | .poll j => j = k
  | _ => False

variable {t : Transit η} {k : Nat} {c : Crossing} {x : Act η} {a b : Address}

theorem run_append (before after : List (Act η)) (t : Transit η) :
    t.run (before ++ after) = (t.run before).run after := by
  induction before generalizing t with
  | nil => rfl
  | cons x rest ih => exact ih (t.does x)

theorem register_parts (a : Address) (handler : η) (t : Transit η) : ∃ network guards,
    t.register a handler = {t with network, guards} ∧ network.partition = t.network.partition := by
  unfold register Network.register
  cases t.network.handlers.contains a with
  | true => exact ⟨t.network,t.guards,rfl,rfl⟩
  | false => exact ⟨_,_,rfl,rfl⟩

theorem withdraw_parts (i : Nat) (t : Transit η) : ∃ network guards,
    t.withdraw i = {t with network, guards} ∧ network.partition = t.network.partition := by
  unfold withdraw
  cases t.guards[i]? with
  | none => exact ⟨t.network,t.guards,rfl,rfl⟩
  | some g =>
      refine ⟨_,_,rfl,?_⟩
      unfold Guard.finish
      cases g.armed <;> rfl

theorem story_parts {calls : List (η × Request)} : t.story k = (under,calls,told) ↔
    t.waiting.find? k = under ∧ about k t.invoked = calls ∧ about k t.results = told := by
  unfold story
  rw [Prod.mk.injEq,Prod.mk.injEq]

-- What concerns another request, or none, changes nothing of this one.
theorem does_story (other : ¬ t.Concerns k x) : (t.does x).story k = t.story k := by
  cases x with
  | order o => rfl
  | register a handler =>
      obtain ⟨network,guards,same,_⟩ := register_parts a handler t
      rw [does,same]
      rfl
  | withdraw i =>
      obtain ⟨network,guards,same,_⟩ := withdraw_parts i t
      rw [does,same]
      rfl
  | send origin target request timeout =>
      have differ : ¬ k = t.serial := fun same => other same.symm
      have differ' : ¬ t.serial = k := other
      rw [does]
      unfold send
      cases t.network.route origin target with
      | error e => simp [story,about_snoc,differ']
      | ok handler => simp [story,about_snoc,Directory.find?_put,differ,differ']
  | answer j reply =>
      have differ : ¬ k = j := fun same => other same.symm
      rw [does]
      unfold answer
      cases t.waiting.find? j with
      | none => rfl
      | some c => simp [story,Directory.find?_put,differ]
  | poll j =>
      have differ : ¬ k = j := fun same => other same.symm
      have differ' : ¬ j = k := other
      rw [does]
      unfold poll
      cases (t.waiting.find? j).bind t.outcome with
      | none => rfl
      | some d => simp [story,about_snoc,Directory.find?_remove _ differ,differ']
  | pass instant =>
      rw [does]
      split <;> rfl

theorem answer_parts (waits : t.waiting.find? k = some c) (reply : Reply) : t.answer k reply =
    {t with waiting := t.waiting.put k {c with answer := c.answer.or (some reply)}} := by
  rw [answer,waits]

theorem answer_story (waits : t.waiting.find? k = some c) (reply : Reply) : (t.answer k reply).story k =
    (some {c with answer := c.answer.or (some reply)},about k t.invoked,about k t.results) := by
  rw [answer_parts waits]
  simp [story,Directory.find?_put]

theorem poll_parts (waits : t.waiting.find? k = some c) (arrived : t.outcome c = some d) :
    t.poll k = {t with waiting := t.waiting.remove k, results := t.results ++ [(k,t.now,d)]} := by
  rw [poll,waits,Option.bind_some,arrived]

theorem poll_story (waits : t.waiting.find? k = some c) (arrived : t.outcome c = some d) :
    (t.poll k).story k = (none,about k t.invoked,about k t.results ++ [(t.now,d)]) := by
  rw [poll_parts waits arrived]
  simp [story,about_snoc,Directory.find?_remove_self]

-- The partition is as it was ordered. Only a pass of time moves the clock.
theorem does_frame (x : Act η) (t : Transit η) :
    (t.does x).network.partition = x.order?.toList.foldl Partition.obey t.network.partition ∧
    t.serial ≤ (t.does x).serial ∧
    ((t.does x).now = t.now ∨
      ∃ instant, x = .pass instant ∧ (t.does x).now = instant ∧ t.now ≤ instant ∧ t.idle instant = true) := by
  cases x with
  | order o => exact ⟨t.network.obey_partition o,Nat.le_refl _,.inl rfl⟩
  | register a handler =>
      obtain ⟨network,guards,same,kept⟩ := register_parts a handler t
      rw [does,same]
      exact ⟨kept,Nat.le_refl _,.inl rfl⟩
  | withdraw i =>
      obtain ⟨network,guards,same,kept⟩ := withdraw_parts i t
      rw [does,same]
      exact ⟨kept,Nat.le_refl _,.inl rfl⟩
  | send origin target request timeout =>
      rw [does]
      unfold send
      cases t.network.route origin target <;> exact ⟨rfl,Nat.le_succ _,.inl rfl⟩
  | answer j reply =>
      rw [does]
      unfold answer
      cases t.waiting.find? j <;> exact ⟨rfl,Nat.le_refl _,.inl rfl⟩
  | poll j =>
      rw [does]
      unfold poll
      cases (t.waiting.find? j).bind t.outcome <;> exact ⟨rfl,Nat.le_refl _,.inl rfl⟩
  | pass instant =>
      rw [does]
      split
      · next open' => exact ⟨rfl,Nat.le_refl _,.inr ⟨instant,rfl,rfl,open'⟩⟩
      · exact ⟨rfl,Nat.le_refl _,.inl rfl⟩

theorem send_serial (origin target : Address) (request : Request) (timeout : Nat) (t : Transit η) :
    (t.send origin target request timeout).serial = t.serial+1 := by
  unfold send
  cases t.network.route origin target <;> rfl

-- A request that was not sent yet, one that waits for its outcome, and one whose outcome is there.
structure Ahead (k : Nat) (t : Transit η) : Prop where
  number : t.serial ≤ k
  story : t.story k = (none,[],[])

structure Waits (k : Nat) (c : Crossing) (calls : List (η × Request)) (t : Transit η) : Prop where
  number : k < t.serial
  story : t.story k = (some c,calls,[])
  time : t.now ≤ Time.wake c.deadline

structure Over (k : Nat) (calls : List (η × Request)) (time : Nat) (d : Delivery) (t : Transit η) : Prop where
  number : k < t.serial
  story : t.story k = (none,calls,[(time,d)])

variable {calls : List (η × Request)}

-- Nothing becomes of a request that is not under way, unless it is sent.
theorem does_gone (gone : t.waiting.find? k = none) (x : Act η) (unsent : k < (t.does x).serial → k < t.serial) :
    (t.does x).story k = t.story k := by
  by_cases concerns : t.Concerns k x
  · cases x with
    | send origin target request timeout =>
        cases concerns
        rw [does,send_serial] at unsent
        exact absurd (unsent (Nat.lt_succ_self _)) (Nat.lt_irrefl _)
    | answer j reply =>
        cases concerns
        rw [does,answer,gone]
    | poll j =>
        cases concerns
        rw [does,poll,gone]
        rfl
    | _ => exact concerns.elim
  · exact does_story concerns

theorem Ahead.does (ahead : Ahead k t) (number : (t.does x).serial ≤ k) : Ahead k (t.does x) := by
  refine ⟨number,?_⟩
  rw [does_gone (story_parts.mp ahead.story).1 x fun sent => absurd sent (Nat.not_lt.mpr number),ahead.story]

theorem Over.does (ended : Over k calls time d t) (x : Act η) : Over k calls time d (t.does x) := by
  refine ⟨Nat.lt_of_lt_of_le ended.number (does_frame x t).2.1,?_⟩
  rw [does_gone (story_parts.mp ended.story).1 x fun _ => ended.number,ended.story]

-- A request that waits goes on waiting, at the same instant if its handler has answered, or it is polled
-- and has its outcome.
theorem Waits.does (waits : Waits k c calls t) (x : Act η) :
    (Waits k {c with answer := c.answer.or (x.answer? k)} calls (t.does x) ∧
      (c.answer ≠ none → (t.does x).now = t.now)) ∨
    ∃ d, x = .poll k ∧ t.outcome c = some d ∧ Over k calls t.now d (t.does x) := by
  obtain ⟨found,invoked,results⟩ := story_parts.mp waits.story
  obtain ⟨_,serial,clock⟩ := does_frame x t
  have number := Nat.lt_of_lt_of_le waits.number serial
  have time : (t.does x).now ≤ Time.wake c.deadline ∧ (c.answer ≠ none → (t.does x).now = t.now) := by
    rcases clock with same | ⟨instant,rfl,passed,onward,idle⟩
    · rw [same]
      exact ⟨waits.time,fun _ => rfl⟩
    · have due := List.all_eq_true.mp idle k (List.mem_map_of_mem (Directory.find?_mem found))
      rw [found,Option.all_some,Bool.and_eq_true,Option.isNone_iff_eq_none,decide_eq_true_eq] at due
      rw [passed]
      exact ⟨due.2,fun answered => absurd due.1 answered⟩
  by_cases concerns : t.Concerns k x
  · cases x with
    | send origin target request timeout => exact absurd concerns (Nat.ne_of_gt waits.number)
    | answer j reply =>
        cases concerns
        refine .inl ⟨⟨number,?_,time.1⟩,time.2⟩
        rw [Transit.does,answer_story found,invoked,results]
        simp [Act.answer?]
    | poll j =>
        cases concerns
        cases arrived : t.outcome c with
        | none =>
            have silent : (Act.poll k : Act η).answer? k = none := rfl
            refine .inl ⟨⟨number,?_,time.1⟩,time.2⟩
            rw [Transit.does,poll,found,Option.bind_some,arrived,silent,Option.or_none]
            exact waits.story
        | some d =>
            refine .inr ⟨d,rfl,rfl,number,?_⟩
            rw [Transit.does,poll_story found arrived,invoked,results]
            rfl
    | _ => exact concerns.elim
  · have silent : x.answer? k = none := by
      cases x with
      | answer j reply => exact if_neg concerns
      | _ => rfl
    refine .inl ⟨⟨number,?_,time.1⟩,time.2⟩
    rw [does_story concerns,silent,Option.or_none]
    exact waits.story

-- What a handler answers in a run, at last.
def answered (k : Nat) (xs : List (Act η)) : Option Reply := xs.findSome? (Act.answer? k)

theorem Over.run (ended : Over k calls time d t) (xs : List (Act η)) : Over k calls time d (t.run xs) := by
  induction xs generalizing t with
  | nil => exact ended
  | cons x rest ih => exact ih (ended.does x)

theorem Waits.run (waits : Waits k c calls t) (xs : List (Act η)) :
    (Waits k {c with answer := c.answer.or (answered k xs)} calls (t.run xs) ∧
      (c.answer ≠ none → (t.run xs).now = t.now)) ∨
    ∃ early late d, xs = early ++ .poll k :: late ∧
      Waits k {c with answer := c.answer.or (answered k early)} calls (t.run early) ∧
      (c.answer ≠ none → (t.run early).now = t.now) ∧
      (t.run early).outcome {c with answer := c.answer.or (answered k early)} = some d ∧
      Over k calls (t.run early).now d (t.run xs) := by
  induction xs generalizing t c with
  | nil =>
      refine .inl ⟨?_,fun _ => rfl⟩
      rw [answered,List.findSome?_nil,Option.or_none]
      exact waits
  | cons x rest ih =>
      rcases waits.does x with ⟨next,still⟩ | ⟨d,rfl,arrived,ended⟩
      · have first : ∀ xs : List (Act η), (c.answer.or (x.answer? k)).or (answered k xs) =
            c.answer.or (answered k (x :: xs)) := by
          intro xs
          rw [Option.or_assoc,answered,answered,List.findSome?_cons]
          cases x.answer? k <;> rfl
        have lasting : c.answer ≠ none → c.answer.or (x.answer? k) ≠ none := by
          intro answered
          obtain ⟨reply,said⟩ := Option.ne_none_iff_exists'.mp answered
          rw [said]
          exact nofun
        have later := ih next
        simp only [first] at later
        rcases later with ⟨last,stands⟩ | ⟨early,late,d,rfl,last,stands,arrived,ended⟩
        · exact .inl ⟨last,fun answered => (stands (lasting answered)).trans (still answered)⟩
        · exact .inr ⟨x :: early,late,d,rfl,last,fun answered => (stands (lasting answered)).trans (still answered),
            arrived,ended⟩
      · refine .inr ⟨[],rest,d,rfl,?_,fun _ => rfl,?_,ended.run rest⟩
        · rw [answered,List.findSome?_nil,Option.or_none]
          exact waits
        · rw [answered,List.findSome?_nil,Option.or_none]
          exact arrived

-- As soon as its handler answers, a request has its outcome: before the next instant.
theorem Waits.answered_now (waits : Waits k c calls t) {one two : List (Act η)} {reply : Reply}
    (last : Waits k c' calls (t.run (one ++ .answer k reply :: two))) :
    (t.run one).now = (t.run (one ++ .answer k reply :: two)).now := by
  have ongoing : ∀ {time d}, ¬ Over k calls time d (t.run (one ++ .answer k reply :: two)) := by
    intro time d ended
    have same := last.story.symm.trans ended.story
    cases same
  rw [run_append,Transit.run] at last ongoing ⊢
  rcases waits.run one with ⟨mid,_⟩ | ⟨_,_,d,_,_,_,_,ended⟩
  · rcases mid.does (.answer k reply) with ⟨next,_⟩ | ⟨_,polls,_,_⟩
    · have still : ((t.run one).does (.answer k reply)).now = (t.run one).now := by
        rcases (does_frame (.answer k reply) (t.run one)).2.2 with same | ⟨_,passes,_⟩
        · exact same
        · cases passes
      rcases next.run two with ⟨_,stands⟩ | ⟨_,_,_,_,_,_,_,ended⟩
      · rw [stands ?_,still]
        simp [Act.answer?]
      · exact absurd ended ongoing
    · cases polls
  · exact absurd ((ended.does _).run two) ongoing

theorem run_partition (xs : List (Act η)) (t : Transit η) :
    (t.run xs).network.partition = (xs.filterMap Act.order?).foldl Partition.obey t.network.partition := by
  induction xs generalizing t with
  | nil => rfl
  | cons x rest ih =>
      rw [run,ih,(does_frame x t).1,List.filterMap_cons]
      cases x.order? <;> rfl

theorem run_ahead (ahead : ∀ k, t.serial ≤ k → Ahead k t) (xs : List (Act η)) (number : (t.run xs).serial ≤ k) :
    Ahead k (t.run xs) := by
  induction xs generalizing t with
  | nil => exact ahead k number
  | cons x rest ih =>
      refine ih ?_ number
      intro k number
      exact (ahead k (Nat.le_trans (does_frame x t).2.1 number)).does number

theorem opened_ahead (start k : Nat) : Ahead k (opened start : Transit η) := ⟨Nat.zero_le k,rfl⟩

-- A request that is sent is lost at once, or its handler is at work from then on.
theorem send_lost (ahead : Ahead t.serial t) (lost : t.network.route a b = .error e) (request : Request)
    (timeout : Nat) : Over t.serial [] t.now (.error e) (t.does (.send a b request timeout)) := by
  obtain ⟨gone,invoked,results⟩ := story_parts.mp ahead.story
  rw [does]
  refine ⟨by rw [send_serial]; exact Nat.lt_succ_self _,?_⟩
  unfold send
  simp [lost,story,about_snoc,invoked,results,gone]

theorem send_waits (ahead : Ahead t.serial t) (reached : t.network.route a b = .ok handler) (request : Request)
    (timeout : Nat) : Waits t.serial ⟨a,b,t.now+timeout,none⟩ [(handler,request)]
      (t.does (.send a b request timeout)) := by
  obtain ⟨_,invoked,results⟩ := story_parts.mp ahead.story
  rw [does]
  refine ⟨by rw [send_serial]; exact Nat.lt_succ_self _,?_,?_⟩
  · unfold send
    simp [reached,story,about_snoc,invoked,results,Directory.find?_put]
  · unfold send
    rw [reached]
    exact Nat.le_trans (Nat.le_add_right _ _) (Time.le_wake _)

-- How a request ends that its handler was invoked for: `early` is what happens from its sending to its end.
structure Ends (k : Nat) (a b : Address) (deadline : Nat) (sent : Transit η) (early : List (Act η)) (d : Delivery) :
    Prop where
  time : (sent.run early).now ≤ deadline
  late : answered k early = none → (sent.run early).now = deadline
  prompt : ∀ one reply two, early = one ++ .answer k reply :: two → (sent.run one).now = (sent.run early).now
  timeout : d = .error .timeout ↔ answered k early = none
  reply : ∀ reply, d = .ok reply ↔
    answered k early = some reply ∧ (sent.run early).network.partition.allows b a = true
  unreachable : d = .error (partitioned b a) ↔
    answered k early ≠ none ∧ (sent.run early).network.partition.allows b a = false

theorem Waits.ends (begun : Waits k ⟨a,b,deadline,none⟩ calls t) {early : List (Act η)}
    (last : Waits k ⟨a,b,deadline,answered k early⟩ calls (t.run early))
    (arrived : (t.run early).outcome ⟨a,b,deadline,answered k early⟩ = some d) :
    Ends k a b (Time.wake deadline) t early d := by
  have prompt : ∀ one reply two, early = one ++ .answer k reply :: two → (t.run one).now = (t.run early).now := by
    rintro one reply two rfl
    exact begun.answered_now last
  cases said : answered k early with
  | none =>
      rw [said] at arrived
      have waited : (if Time.passed deadline (t.run early).now then some (.error .timeout) else none) = some d :=
        arrived
      obtain ⟨passed,same⟩ := Option.ite_none_right_eq_some.mp waited
      cases same
      have due := Nat.le_antisymm last.time (of_decide_eq_true passed)
      refine ⟨last.time,fun _ => due,prompt,?_,?_,?_⟩
      all_goals simp [said,partitioned]
  | some reply =>
      rw [said] at arrived
      have carried : (t.run early).network.carry a b reply = d := Option.some.inj arrived
      subst carried
      unfold Network.carry
      cases allowed : (t.run early).network.partition.allows b a with
      | false =>
          refine ⟨last.time,by simp [said],prompt,?_,?_,?_⟩
          all_goals simp [said,allowed,partitioned]
      | true =>
          refine ⟨last.time,by simp [said],prompt,?_,?_,?_⟩
          all_goals simp [said,allowed]

-- A request that nobody can be reached with: its sender knows at once, and no handler ever does.
structure Lost (k : Nat) (t sent last : Transit η) : Prop where
  told : ∃ message, about k sent.results = [(t.now,.error (.unreachable message))]
  only : about k last.results = about k sent.results
  uninvoked : about k last.invoked = []

-- A request that is still open. The clock does not leave the end of its wait behind, nor the instant of its
-- answer, and from then on it takes a poll only.
structure Open (k : Nat) (a b : Address) (deadline : Nat) (sent : Transit η) (ys : List (Act η)) : Prop where
  results : about k (sent.run ys).results = []
  time : (sent.run ys).now ≤ deadline
  prompt : ∀ one reply two, ys = one ++ .answer k reply :: two → (sent.run one).now = (sent.run ys).now
  poll : answered k ys ≠ none ∨ (sent.run ys).now = deadline →
    ∃ d, about k ((sent.run ys).does (.poll k)).results = [((sent.run ys).now,d)] ∧ Ends k a b deadline sent ys d

theorem Waits.open (begun : Waits k ⟨a,b,deadline,none⟩ calls t) {xs : List (Act η)}
    (last : Waits k ⟨a,b,deadline,answered k xs⟩ calls (t.run xs)) : Open k a b (Time.wake deadline) t xs := by
  obtain ⟨found,_,results⟩ := story_parts.mp last.story
  refine ⟨results,last.time,?_,?_⟩
  · rintro one reply two rfl
    exact begun.answered_now last
  · intro ready
    have settled : ∃ d, (t.run xs).outcome ⟨a,b,deadline,answered k xs⟩ = some d := by
      refine Delivery.await_over ?_
      rcases ready with there | due
      · exact .inl fun absent => there (Option.map_eq_none_iff.mp absent)
      · exact .inr (Nat.le_of_eq due.symm)
    obtain ⟨d,arrived⟩ := settled
    obtain ⟨_,_,told⟩ := story_parts.mp (poll_story found arrived)
    rw [results] at told
    exact ⟨d,told,begun.ends last arrived⟩

-- A request that a handler was invoked for: once, at its sending, and then it is open until it ends.
structure Carried (k : Nat) (a b : Address) (deadline : Nat) (call : η × Request) (sent : Transit η)
    (ys : List (Act η)) : Prop where
  invoked : about k sent.invoked = [call]
  once : about k (sent.run ys).invoked = [call]
  course : Open k a b deadline sent ys ∨ ∃ early late d, ys = early ++ .poll k :: late ∧
    about k (sent.run ys).results = [((sent.run early).now,d)] ∧ Ends k a b deadline sent early d

-- A network delivers exactly what its partition allows, and that is what was ordered until then.
theorem delivers_as_allowed (start timeout : Nat) (xs ys : List (Act η)) (a b : Address) (request : Request) :
    let t := (opened start).run xs
    let k := t.serial
    let sent := t.does (.send a b request timeout)
    let deadline := Time.wake (t.now+timeout)
    (∀ orders a b, (Partition.after orders).allows a b = true ↔
      ¬ Partition.Isolated a orders ∧ ¬ Partition.Isolated b orders ∧ ¬ Partition.Severed a b orders) ∧
    (∀ orders a b, (Partition.after orders).allows a b = (Partition.after orders).allows b a) ∧
    (∀ zs : List (Act η), ((opened start).run zs).network.partition = Partition.after (zs.filterMap Act.order?)) ∧
    IsLeast {instant | millisecond ∣ instant ∧ t.now+timeout ≤ instant} deadline ∧
    ((¬ ∃ handler, t.network.handlers.find? b = some handler ∧ t.network.partition.allows a b = true) →
      Lost k t sent (sent.run ys)) ∧
    (∀ handler, t.network.handlers.find? b = some handler → t.network.partition.allows a b = true →
      Carried k a b deadline (handler,request) sent ys) := by
  intro t k sent deadline
  have ahead : Ahead k t := run_ahead (fun k _ => opened_ahead start k) xs (Nat.le_refl _)
  refine ⟨fun _ _ _ => Partition.after_allows,Partition.allows_symm,fun zs => run_partition zs _,Time.wake_least _,?_,?_⟩
  · intro lost
    obtain ⟨message,lost⟩ := Network.route_lost lost
    have ended := send_lost ahead lost request timeout
    obtain ⟨_,_,results⟩ := story_parts.mp ended.story
    obtain ⟨_,invoked,still⟩ := story_parts.mp (ended.run ys).story
    exact ⟨⟨message,results⟩,still.trans results.symm,invoked⟩
  · intro handler found allowed
    have waits := send_waits ahead (Network.route_ok.mpr ⟨found,allowed⟩) request timeout
    have invoked := (story_parts.mp waits.story).2.1
    rcases waits.run ys with ⟨going,_⟩ | ⟨early,late,d,split,mid,_,arrived,ended⟩
    · simp only [Option.none_or] at going
      exact ⟨invoked,(story_parts.mp going.story).2.1,.inl (waits.open going)⟩
    · obtain ⟨_,still,results⟩ := story_parts.mp ended.story
      simp only [Option.none_or] at mid arrived
      exact ⟨invoked,still,.inr ⟨early,late,d,split,results,waits.ends mid arrived⟩⟩

-- A heartbeat whose reply is lost, as the two are cut off from each other before it is answered.
theorem reply_lost_by_cut :
    let a : Address := ⟨"a",1⟩
    let b : Address := ⟨"b",2⟩
    let beat : Request := .heartbeat ⟨.zero,⟨"a"⟩⟩
    let sent := ((opened 0).run [.register b 7]).does (.send a b beat 5)
    let last := sent.run [.order (.cut a b),.answer 0 (.heartbeat ⟨true,.zero⟩),.poll 0]
    about 0 last.invoked = [(7,beat)] ∧ about 0 last.results = [(0,.error (partitioned b a))] ∧
      ∃ early, Ends 0 a b (Time.wake 5) sent early (.error (partitioned b a)) := by
  intro a b beat sent last
  have results : about 0 last.results = [(0,.error (partitioned b a))] := rfl
  obtain ⟨_,_,_,_,_,carried⟩ := delivers_as_allowed 0 5 [.register b 7]
    [.order (.cut a b),.answer 0 (.heartbeat ⟨true,.zero⟩),.poll 0] a b beat
  have course := carried 7 rfl rfl
  refine ⟨course.once,results,?_⟩
  rcases course.course with waits | ⟨early,_,d,_,told,ends⟩
  · cases waits.results.symm.trans results
  · have same : d = .error (partitioned b a) := congrArg Prod.snd (List.cons.inj (told.symm.trans results)).1
    exact ⟨early,same ▸ ends⟩

-- The end of a wait is a whole millisecond: a reply that is not there after a timeout of one and a half is taken at two.
theorem delivered_after_timeout :
    let a : Address := ⟨"a",1⟩
    let b : Address := ⟨"b",2⟩
    let sent := ((opened 0).run [.register b 7]).does (.send a b (.heartbeat ⟨.zero,⟨"a"⟩⟩) 1500000)
    let waited := sent.run [.pass 1500000,.poll 0,.pass 1999999,.poll 0]
    let last := waited.run [.pass 2000000,.answer 0 (.heartbeat ⟨true,.zero⟩),.poll 0]
    sent.now+1500000 < waited.now ∧ about 0 waited.results = [] ∧
      about 0 last.results = [(2000000,.ok (.heartbeat ⟨true,.zero⟩))] := by
  exact ⟨by decide,rfl,rfl⟩

end Transit
end LeaderElection
