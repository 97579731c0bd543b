import LeaderElection.Proofs.Basic
import LeaderElection.Proofs.Transit
import LeaderElection.Station

namespace LeaderElection

-- What a transport makes of a request: after a while it is through with it, in some way, or it never is.
structure Effort where
  delay : Nat
  delivery : Delivery

-- A request under way, and when the transport will be through with it.
structure Parcel where
  peer : NodeId
  exchange : Exchange
  result : Option (Nat × Delivery)

namespace Parcel

def sent (now timeout : Nat) (d : Dispatch) (effort : Option Effort) : Parcel :=
  ⟨d.peer.id,.start now timeout d.request,effort.map fun e => (now+e.delay,e.delivery)⟩

def deadline (p : Parcel) : Nat := Time.wake p.exchange.deadline

def there (instant : Nat) (p : Parcel) : Option Delivery :=
  p.result.bind fun r => if r.1 ≤ instant then some r.2 else none

def outcome (now : Nat) (p : Parcel) : Option Delivery := Delivery.await now p.exchange.deadline (p.there now)

-- What is there in time, and when the wait is over.
def timely (p : Parcel) : Option Delivery := p.there p.deadline

def due (p : Parcel) : Nat := p.result.elim p.deadline fun r => min r.1 p.deadline

def report (p : Parcel) : Event Nat := p.exchange.report p.peer (p.timely.getD (.error .timeout))

end Parcel

def Reply.vote? : Reply → Option VoteReply
  | .vote r => some r
  | _ => none

def Reply.heartbeat? : Reply → Option HeartbeatReply
  | .heartbeat r => some r
  | _ => none

-- What an outcome tells, read off what was there in time.
structure Told {α : Type} (kind : Reply → Option α) (timely : Option Delivery) (result : Except TransportError α) :
    Prop where
  answered : ∀ a, result = .ok a ↔ ∃ reply, timely = some (.ok reply) ∧ kind reply = some a
  rejected : ∀ why, result = .error (.rejected why) ↔
    timely = some (.ok (.error why)) ∨ timely = some (.error (.rejected why))
  malformed : (∃ why, result = .error (.malformedReply why)) ↔
    (∃ reply, timely = some (.ok reply) ∧ kind reply = none ∧ ∀ why, reply ≠ .error why) ∨
      ∃ why, timely = some (.error (.malformedReply why))
  misread : ∀ reply, timely = some (.ok reply) → kind reply = none → result = .error (unexpected reply)
  failed : ∀ e, timely = some (.error e) → result = .error e
  timeout : result = .error .timeout ↔ timely = none ∨ timely = some (.error .timeout)

inductive Outcome (d : Dispatch) (timely : Option Delivery) : Event Nat → Prop where
  | vote (asked : d.request = .vote r) (told : Told Reply.vote? timely result) :
      Outcome d timely (.voteReply d.peer.id r.term result)
  | heartbeat (asked : d.request = .heartbeat h) (told : Told Reply.heartbeat? timely result) :
      Outcome d timely (.heartbeatReply d.peer.id h.term result)

-- A member at work with its requests by serial numbers, and the outcomes that were queued for it.
structure Courier where
  now : Nat
  station : Station
  serial : Nat
  pending : Directory Nat Parcel
  outcomes : List (Nat × Nat × Event Nat)

namespace Courier

-- What can happen. What a transport makes of the requests of a turn may be anything.
inductive Act where
  | pass (instant : Nat)
  | post (e : Event Nat)
  | take (draw : Nat) (efforts : Dispatch → Option Effort)
  | finish (serial : Nat)
  | wake (draw : Nat)
  | tend (f : Detector → Detector)
  | release

def Act.takes : Act → Bool
  | .take _ _ => true
  | _ => false

def opened (start first : Nat) (roster : Roster) (timings : Timings) (patience : Nat) : Courier :=
  ⟨start,.create start first roster timings patience,0,.empty,[]⟩

def alive (c : Courier) : Bool := c.station.mailbox.held && c.station.mailbox.node?.isSome

-- Nobody who waits is due before an instant.
def idle (instant : Nat) (c : Courier) : Bool :=
  c.pending.keys.all fun k => (c.pending.find? k).all fun p => decide (instant ≤ p.due)

def post (e : Event Nat) (c : Courier) : Courier :=
  {c with station := {c.station with mailbox := (c.station.mailbox.post e).getD c.station.mailbox}}

def send (timeout : Nat) (efforts : Dispatch → Option Effort) (c : Courier) (d : Dispatch) : Courier :=
  {c with serial := c.serial+1, pending := c.pending.put c.serial (.sent c.now timeout d (efforts d))}

def rpc (c : Courier) : Nat := (c.station.timings?.map Timings.rpc).getD 0

def take (draw : Nat) (efforts : Dispatch → Option Effort) (c : Courier) : Courier :=
  match c.station.take c.now draw with
  | none => c
  | some (turn,station) => turn.sends.foldl (send c.rpc efforts) {c with station}

-- A request ends once. Its outcome is dropped where nobody takes it in any more.
def finish (k : Nat) (c : Courier) : Courier :=
  match c.pending.find? k with
  | none => c
  | some p => match p.outcome c.now with
    | none => c
    | some delivery =>
      let e := p.exchange.report p.peer delivery
      {c.post e with
        pending := c.pending.remove k
        outcomes := if c.alive then c.outcomes ++ [(k,c.now,e)] else c.outcomes}

def does : Act → Courier → Courier
  | .pass instant,c => if c.now ≤ instant ∧ c.idle instant then {c with now := instant} else c
  | .post e,c => c.post e
  | .take draw efforts,c => c.take draw efforts
  | .finish k,c => c.finish k
  | .wake draw,c => {c with station := {c.station with
      mailbox := ((c.station.mailbox.wake c.now draw).map Prod.fst).getD c.station.mailbox}}
  | .tend f,c => {c with station := {c.station with detector := f c.station.detector}}
  | .release,c => {c with station := {c.station with mailbox := c.station.mailbox.release}}

def run : List Act → Courier → Courier
  | [],c => c
  | x :: rest,c => run rest (c.does x)

-- What there is to tell of one request: whether it is under way, and its outcomes.
def story (k : Nat) (c : Courier) : Option Parcel × List (Nat × Event Nat) := (c.pending.find? k,about k c.outcomes)

end Courier

namespace Parcel

variable {p : Parcel} {now : Nat}

theorem never_due (never : p.result = none) : p.due = p.deadline := by rw [due,never,Option.elim_none]

theorem once_due (once : p.result = some (instant,delivery)) : p.due = min instant p.deadline := by
  rw [due,once,Option.elim_some]

theorem due_parts (p : Parcel) : p.result = none ∧ p.due = p.deadline ∨
    ∃ instant delivery, p.result = some (instant,delivery) ∧ p.due = min instant p.deadline := by
  cases result : p.result with
  | none => exact .inl ⟨rfl,never_due result⟩
  | some r => exact .inr ⟨r.1,r.2,rfl,once_due result⟩

theorem due_le (p : Parcel) : p.due ≤ p.deadline := by
  rcases p.due_parts with ⟨_,due⟩ | ⟨instant,delivery,_,due⟩
  · exact Nat.le_of_eq due
  · rw [due]
    exact Nat.min_le_right _ _

theorem sent_due (now timeout : Nat) (d : Dispatch) (effort : Option Effort) : now ≤ (sent now timeout d effort).due := by
  have soon : now ≤ (sent now timeout d effort).deadline := Nat.le_trans (Nat.le_add_right _ _) (Time.le_wake _)
  rcases (sent now timeout d effort).due_parts with ⟨_,due⟩ | ⟨instant,delivery,result,due⟩
  · rw [due]
    exact soon
  · obtain ⟨e,_,same⟩ := Option.map_eq_some_iff.mp result
    cases same
    rw [due]
    exact Nat.le_min.mpr ⟨Nat.le_add_right _ _,soon⟩

theorem outcome_parts (now : Nat) (p : Parcel) :
    p.outcome now = (p.there now).or (if p.deadline ≤ now then some (.error .timeout) else none) :=
  Delivery.await_or now p.exchange.deadline (p.there now)

theorem there_none (never : p.result = none) (now : Nat) : p.there now = none := by
  rw [there,never,Option.bind_none]

theorem there_some (once : p.result = some (instant,delivery)) (now : Nat) :
    p.there now = if instant ≤ now then some delivery else none := by
  rw [there,once,Option.bind_some]

-- A wait is over when it is due, not before, with what is there in time or else a timeout.
theorem outcome_due (p : Parcel) : p.outcome p.due = some (p.timely.getD (.error .timeout)) := by
  rw [outcome_parts,timely]
  rcases p.due_parts with ⟨never,due⟩ | ⟨instant,delivery,once,due⟩
  · rw [there_none never,there_none never,due,if_pos (Nat.le_refl _)]
    rfl
  · rw [there_some once,there_some once,due]
    by_cases timely : instant ≤ p.deadline
    · rw [Nat.min_eq_left timely,if_pos (Nat.le_refl _),if_pos timely]
      rfl
    · have late : ¬ instant ≤ min instant p.deadline := by omega
      have passed : p.deadline ≤ min instant p.deadline := by omega
      rw [if_neg late,if_pos passed,if_neg timely]
      rfl

theorem outcome_early (early : now < p.due) : p.outcome now = none := by
  have waits : ¬ p.deadline ≤ now := Nat.not_le.mpr (Nat.lt_of_lt_of_le early p.due_le)
  rw [outcome_parts,if_neg waits,Option.or_none]
  rcases p.due_parts with ⟨never,_⟩ | ⟨instant,delivery,once,due⟩
  · exact there_none never now
  · rw [there_some once,if_neg]
    omega

end Parcel

namespace Delivery

variable {α : Type} {kind : Reply → Option α}

-- Both kinds of request read what comes back alike.
def read (kind : Reply → Option α) : Delivery → Except TransportError α
  | .ok reply => (kind reply).elim (.error (unexpected reply)) .ok
  | .error e => .error e

theorem asVote_read (d : Delivery) : d.asVote = d.read Reply.vote? := by
  cases d with
  | error e => rfl
  | ok reply => cases reply <;> rfl

theorem asHeartbeat_read (d : Delivery) : d.asHeartbeat = d.read Reply.heartbeat? := by
  cases d with
  | error e => rfl
  | ok reply => cases reply <;> rfl

theorem read_told (other : ∀ why, kind (.error why) = none) (timely : Option Delivery) :
    Told kind timely ((timely.getD (.error .timeout)).read kind) := by
  cases timely with
  | none => constructor <;> simp [read]
  | some d =>
      cases d with
      | error e => constructor <;> simp [read]
      | ok reply =>
          cases known : kind reply with
          | some a =>
              have proper : ∀ why, reply ≠ .error why := by
                rintro why rfl
                cases (other why).symm.trans known
              constructor <;> simp [read,known,proper]
          | none => cases reply <;> constructor <;> simp [read,known,unexpected]

end Delivery

theorem Parcel.report_outcome (now timeout : Nat) (d : Dispatch) (effort : Option Effort) :
    Outcome d (sent now timeout d effort).timely (sent now timeout d effort).report := by
  obtain ⟨peer,request⟩ := d
  cases request with
  | vote r =>
      refine .vote rfl ?_
      rw [Delivery.asVote_read]
      exact Delivery.read_told (fun _ => rfl) _
  | heartbeat h =>
      refine .heartbeat rfl ?_
      rw [Delivery.asHeartbeat_read]
      exact Delivery.read_told (fun _ => rfl) _

namespace Courier

variable {c : Courier} {k : Nat} {p : Parcel} {x : Act}

theorem run_append (before after : List Act) (c : Courier) : c.run (before ++ after) = (c.run before).run after := by
  induction before generalizing c with
  | nil => rfl
  | cons x rest ih => exact ih (c.does x)

-- The requests of one turn take the next serial numbers, in their order. Others are not touched.
theorem sends_frame (timeout : Nat) (efforts : Dispatch → Option Effort) (sends : List Dispatch) (c : Courier) :
    let after := sends.foldl (send timeout efforts) c
    after.now = c.now ∧ after.station = c.station ∧ after.outcomes = c.outcomes ∧
      after.serial = c.serial+sends.length := by
  induction sends generalizing c with
  | nil => exact ⟨rfl,rfl,rfl,rfl⟩
  | cons d rest ih =>
      obtain ⟨now,station,outcomes,serial⟩ := ih (c.send timeout efforts d)
      refine ⟨now,station,outcomes,?_⟩
      rw [List.foldl_cons,serial,List.length_cons]
      change c.serial+1+rest.length = _
      omega

theorem sends_other (timeout : Nat) (efforts : Dispatch → Option Effort) (sends : List Dispatch) (c : Courier)
    (other : k < c.serial ∨ c.serial+sends.length ≤ k) :
    (sends.foldl (send timeout efforts) c).pending.find? k = c.pending.find? k := by
  induction sends generalizing c with
  | nil => rfl
  | cons d rest ih =>
      rw [List.length_cons] at other
      have differ : k ≠ c.serial := by omega
      have same := ih (c.send timeout efforts d) (by change k < c.serial+1 ∨ c.serial+1+rest.length ≤ k; omega)
      rw [List.foldl_cons,same]
      change (c.pending.put c.serial _).find? k = _
      rw [Directory.find?_put,Function.update_of_ne differ]

theorem sends_found (timeout : Nat) (efforts : Dispatch → Option Effort) {sends : List Dispatch} (c : Courier)
    (found : sends[i]? = some d) : (sends.foldl (send timeout efforts) c).pending.find? (c.serial+i) =
      some (.sent c.now timeout d (efforts d)) := by
  induction sends generalizing c i with
  | nil => cases found
  | cons first rest ih =>
      cases i with
      | zero =>
          cases found
          rw [List.foldl_cons,sends_other timeout efforts rest _ (.inl (Nat.lt_succ_self _))]
          change (c.pending.put c.serial _).find? c.serial = _
          rw [Directory.find?_put,Function.update_self]
      | succ i =>
          have later := ih (c.send timeout efforts first) found
          change (rest.foldl (send timeout efforts) (c.send timeout efforts first)).pending.find? (c.serial+1+i) = _ at later
          rw [show c.serial+(i+1) = c.serial+1+i by omega]
          exact later

theorem take_parts (draw : Nat) (efforts : Dispatch → Option Effort) (c : Courier) :
    c.take draw efforts = c ∧ c.station.take c.now draw = none ∨
    ∃ turn station, c.station.take c.now draw = some (turn,station) ∧
      c.take draw efforts = turn.sends.foldl (send c.rpc efforts) {c with station} := by
  unfold take
  cases taken : c.station.take c.now draw with
  | none => exact .inl ⟨rfl,rfl⟩
  | some t => exact .inr ⟨t.1,t.2,rfl,rfl⟩

theorem take_frame (draw : Nat) (efforts : Dispatch → Option Effort) (c : Courier) :
    (c.take draw efforts).now = c.now ∧ c.serial ≤ (c.take draw efforts).serial ∧
      (c.take draw efforts).outcomes = c.outcomes := by
  rcases take_parts draw efforts c with ⟨same,_⟩ | ⟨turn,station,_,same⟩
  · rw [same]
    exact ⟨rfl,Nat.le_refl _,rfl⟩
  · obtain ⟨now,_,outcomes,serial⟩ := sends_frame c.rpc efforts turn.sends {c with station}
    rw [same]
    exact ⟨now,serial ▸ Nat.le_add_right _ _,outcomes⟩

theorem take_story (draw : Nat) (efforts : Dispatch → Option Effort)
    (other : k < c.serial ∨ (c.take draw efforts).serial ≤ k) : (c.take draw efforts).story k = c.story k := by
  have outcomes := (take_frame draw efforts c).2.2
  rcases take_parts draw efforts c with ⟨same,_⟩ | ⟨turn,station,_,same⟩
  · rw [same]
  · rw [same] at other outcomes ⊢
    obtain ⟨_,_,_,serial⟩ := sends_frame c.rpc efforts turn.sends {c with station}
    rw [serial] at other
    rw [story,outcomes,sends_other c.rpc efforts turn.sends {c with station} other]
    rfl

theorem finish_gone (gone : c.pending.find? k = none) : c.finish k = c := by rw [finish,gone]

theorem finish_waits (waits : c.pending.find? k = some p) (early : c.now < p.due) : c.finish k = c := by
  rw [finish,waits]
  simp only [Parcel.outcome_early early]

theorem finish_parts (waits : c.pending.find? k = some p) (ends : p.outcome c.now = some delivery) :
    c.finish k = {c.post (p.exchange.report p.peer delivery) with
      pending := c.pending.remove k
      outcomes := if c.alive then c.outcomes ++ [(k,c.now,p.exchange.report p.peer delivery)] else c.outcomes} := by
  rw [finish,waits]
  simp only [ends]

theorem finish_due (waits : c.pending.find? k = some p) (due : c.now = p.due) :
    c.finish k = {c.post p.report with
      pending := c.pending.remove k
      outcomes := if c.alive then c.outcomes ++ [(k,p.due,p.report)] else c.outcomes} := by
  rw [finish_parts waits (due ▸ p.outcome_due),due]
  rfl

theorem finish_story (waits : c.pending.find? k = some p) (due : c.now = p.due) (untold : about k c.outcomes = []) :
    (c.finish k).story k = (none,if c.alive then [(p.due,p.report)] else []) := by
  rw [finish_due waits due,story]
  cases c.alive <;> simp [Directory.find?_remove_self,about_snoc,untold]

theorem finish_other (differ : k ≠ j) (c : Courier) : (c.finish j).story k = c.story k := by
  have differ' : ¬ j = k := fun same => differ same.symm
  unfold finish
  split
  · rfl
  · split
    · rfl
    · cases alive : c.alive <;> simp [story,Directory.find?_remove _ differ,about_snoc,differ']

theorem finish_frame (k : Nat) (c : Courier) : (c.finish k).now = c.now ∧ (c.finish k).serial = c.serial := by
  unfold finish
  split
  · exact ⟨rfl,rfl⟩
  · split <;> exact ⟨rfl,rfl⟩

theorem does_frame (x : Act) (c : Courier) : c.serial ≤ (c.does x).serial ∧ ((c.does x).now = c.now ∨
    ∃ instant, x = .pass instant ∧ (c.does x).now = instant ∧ c.idle instant = true) := by
  cases x with
  | pass instant =>
      rw [does]
      split
      · next allowed => exact ⟨Nat.le_refl _,.inr ⟨instant,rfl,rfl,allowed.2⟩⟩
      · exact ⟨Nat.le_refl _,.inl rfl⟩
  | take draw efforts =>
      obtain ⟨now,serial,_⟩ := take_frame draw efforts c
      exact ⟨serial,.inl now⟩
  | finish k =>
      obtain ⟨now,serial⟩ := finish_frame k c
      exact ⟨Nat.le_of_eq serial.symm,.inl now⟩
  | _ => exact ⟨Nat.le_refl _,.inl rfl⟩

-- What becomes of one request is decided when it is sent and when it ends, and nowhere else.
theorem does_story (unfinished : x ≠ .finish k) (other : k < c.serial ∨ (c.does x).serial ≤ k) :
    (c.does x).story k = c.story k := by
  cases x with
  | pass instant =>
      rw [does]
      split <;> rfl
  | take draw efforts => exact take_story draw efforts other
  | finish j => exact finish_other (fun same => unfinished (congrArg Act.finish same.symm)) c
  | _ => rfl

theorem story_parts : c.story k = (under,told) ↔ c.pending.find? k = under ∧ about k c.outcomes = told := by
  unfold story
  rw [Prod.mk.injEq]

-- A request that was not sent yet, one that waits for its outcome, and one that is over.
structure Ahead (k : Nat) (c : Courier) : Prop where
  number : c.serial ≤ k
  story : c.story k = (none,[])

structure Waits (k : Nat) (p : Parcel) (c : Courier) : Prop where
  number : k < c.serial
  story : c.story k = (some p,[])
  time : c.now ≤ p.due

structure Over (k : Nat) (told : List (Nat × Event Nat)) (c : Courier) : Prop where
  number : k < c.serial
  story : c.story k = (none,told)

variable {told : List (Nat × Event Nat)}

theorem Ahead.does (ahead : Ahead k c) (number : (c.does x).serial ≤ k) : Ahead k (c.does x) := by
  refine ⟨number,?_⟩
  by_cases finished : x = .finish k
  · subst finished
    rw [Courier.does,finish_gone (story_parts.mp ahead.story).1,ahead.story]
  · rw [does_story finished (.inr number),ahead.story]

theorem Over.does (ended : Over k told c) (x : Act) : Over k told (c.does x) := by
  refine ⟨Nat.lt_of_lt_of_le ended.number (does_frame x c).1,?_⟩
  by_cases finished : x = .finish k
  · subst finished
    rw [Courier.does,finish_gone (story_parts.mp ended.story).1,ended.story]
  · rw [does_story finished (.inl ended.number),ended.story]

-- What a request comes to when its wait is over: one outcome, unless nobody takes it in any more.
def verdict (p : Parcel) (c : Courier) : List (Nat × Event Nat) := if c.alive then [(p.due,p.report)] else []

theorem Waits.does (waits : Waits k p c) (x : Act) :
    Waits k p (c.does x) ∨ x = .finish k ∧ c.now = p.due ∧ Over k (c.verdict p) (c.does x) := by
  obtain ⟨found,untold⟩ := story_parts.mp waits.story
  obtain ⟨serial,clock⟩ := does_frame x c
  have number := Nat.lt_of_lt_of_le waits.number serial
  by_cases finished : x = .finish k
  · subst finished
    rcases Nat.lt_or_eq_of_le waits.time with early | due
    · have same : c.does (.finish k) = c := finish_waits found early
      rw [same]
      exact .inl waits
    · exact .inr ⟨rfl,due,number,finish_story found due untold⟩
  · refine .inl ⟨number,(does_story finished (.inl waits.number)).trans waits.story,?_⟩
    rcases clock with same | ⟨instant,_,passed,idle⟩
    · rw [same]
      exact waits.time
    · have due := List.all_eq_true.mp idle k (List.mem_map_of_mem (Directory.find?_mem found))
      rw [found,Option.all_some,decide_eq_true_eq] at due
      rw [passed]
      exact due

theorem Over.run (ended : Over k told c) (xs : List Act) : Over k told (c.run xs) := by
  induction xs generalizing c with
  | nil => exact ended
  | cons x rest ih => exact ih (ended.does x)

theorem Waits.run (waits : Waits k p c) (xs : List Act) :
    Waits k p (c.run xs) ∨ ∃ early late, xs = early ++ .finish k :: late ∧ Waits k p (c.run early) ∧
      (c.run early).now = p.due ∧ Over k ((c.run early).verdict p) (c.run xs) := by
  induction xs generalizing c with
  | nil => exact .inl waits
  | cons x rest ih =>
      rcases waits.does x with next | ⟨rfl,due,ended⟩
      · rcases ih next with last | ⟨early,late,rfl,before,due,ended⟩
        · exact .inl last
        · exact .inr ⟨x :: early,late,rfl,before,due,ended⟩
      · exact .inr ⟨[],rest,rfl,waits,due,ended.run rest⟩

theorem run_ahead (ahead : ∀ k, c.serial ≤ k → Ahead k c) (xs : List Act) (number : (c.run xs).serial ≤ k) :
    Ahead k (c.run xs) := by
  induction xs generalizing c with
  | nil => exact ahead k number
  | cons x rest ih =>
      refine ih ?_ number
      intro k number
      exact (ahead k (Nat.le_trans (does_frame x c).1 number)).does number

theorem opened_ahead (start first patience k : Nat) (roster : Roster) (timings : Timings) :
    Ahead k (opened start first roster timings patience) := ⟨Nat.zero_le k,rfl⟩

end Courier
end LeaderElection
