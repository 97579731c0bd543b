import LeaderElection.Proofs.Cluster.Orderly
import LeaderElection.Proofs.Cluster.Steady

namespace LeaderElection

namespace Mailbox

variable {τ : Type} {m next : Mailbox τ} {turn : Turn τ} {k : Nat}

-- A loop that has exited, or has a shutdown among the first so many that wait for it.
inductive Closing (m : Mailbox τ) (k : Nat) : Prop where
  | exited (stopped : m.node? = none) : Closing m k
  | waits (ahead : List (Event τ)) (asker : τ) (behind : List (Event τ))
      (queue : m.events = ahead ++ .shutdown asker :: behind) (near : ahead.length < k) : Closing m k

theorem Closing.stopped (closing : m.Closing 0) : m.node? = none := by
  cases closing with
  | exited stopped => exact stopped
  | waits _ _ _ _ near => exact absurd near (Nat.not_lt_zero _)

theorem Closing.mono {l : Nat} (closing : m.Closing k) (within : k ≤ l) : m.Closing l := by
  cases closing with
  | exited stopped => exact .exited stopped
  | waits ahead asker behind queue near => exact .waits ahead asker behind queue (Nat.lt_of_lt_of_le near within)

theorem Closing.post (closing : m.Closing k) (posted : m.post e = some next) : next.Closing k := by
  obtain ⟨_,⟨n,running⟩,rfl⟩ := post_parts posted
  cases closing with
  | exited stopped => cases stopped.symm.trans running
  | waits ahead asker behind queue near =>
      refine .waits ahead asker (behind ++ [e]) ?_ near
      rw [queue,List.append_assoc,List.cons_append]

theorem Closing.wake (closing : m.Closing k) (woken : m.wake now draw = some (next,alarm)) : next.Closing k := by
  obtain ⟨n,after,running,_,rfl⟩ := wake_parts woken
  cases closing with
  | exited stopped => cases stopped.symm.trans running
  | waits ahead asker behind queue near =>
      split
      · refine .waits ahead asker (behind ++ alarm.toList.map .alarm) ?_ near
        rw [queue,List.append_assoc,List.cons_append]
      · exact .waits ahead asker behind queue near

-- Each turn brings the shutdown nearer, and what is next in line is handled.
theorem Closing.take (closing : m.Closing k) (took : m.take now draw = some turn) : turn.mailbox.Closing (k-1) := by
  obtain ⟨n,running,turns⟩ := take_turn took
  cases closing with
  | exited stopped => cases stopped.symm.trans running
  | waits ahead asker behind queue near =>
      rcases turns with ⟨empty,_⟩ | ⟨e,rest,first,rfl⟩
      · rw [queue] at empty
        cases List.append_ne_nil_of_right_ne_nil ahead (List.cons_ne_nil _ _) empty
      · rw [queue] at first
        cases ahead with
        | nil =>
            cases first
            exact .exited rfl
        | cons head ahead =>
            cases first
            rcases (handle_rest now draw n e (ahead ++ .shutdown asker :: behind) m.held).2 with gone | left
            · exact .exited gone
            · exact .waits ahead asker behind left (Nat.lt_pred_of_succ_lt near)

theorem post_stopped (stopped : m.node? = none) (e : Event τ) : m.post e = none := by
  unfold post
  rw [stopped]
  simp

theorem post_held (held : m.held = true) (e : Event τ) :
    m.post e = some {m with events := m.events ++ [e]} ∨ m.node? = none := by
  unfold post
  rw [held]
  cases running : m.node? with
  | none => exact .inr rfl
  | some n => exact .inl rfl

end Mailbox

namespace Resident

variable {r r' : Resident} {k : Nat}

-- A member serves no more, and its loop has stopped.
structure Spent (r : Resident) : Prop where
  disarmed : r.guard.armed = false
  stopped : r.station.mailbox.node? = none

-- What a shutdown leaves of a member.
structure Gone (r : Resident) : Prop extends Spent r where
  unwatched : r.station.detector.monitor = none
  forgotten : r.station.detector.sightings = .empty

theorem Goes.closing (goes : r.Goes r') (closing : r.station.mailbox.Closing k) : r'.station.mailbox.Closing k := by
  cases goes with
  | posted posted => exact closing.post posted
  | took took =>
      obtain ⟨taken,mailbox⟩ := Station.take_parts took
      have nearer := (closing.take taken).mono (Nat.pred_le k)
      rwa [← mailbox] at nearer
  | woken woken => exact closing.wake woken
  | polled => exact closing
  | fell => exact .exited rfl
  | heard => exact closing

-- Nothing starts a loop again.
theorem Goes.spent (goes : r.Goes r') (spent : r.Spent) :
    r'.Spent ∧ (r'.station.detector = r.station.detector ∨ r.station.detector.monitor ≠ none) := by
  cases goes with
  | posted posted =>
      obtain ⟨_,⟨n,running⟩,_⟩ := Mailbox.post_parts posted
      cases spent.stopped.symm.trans running
  | took took =>
      obtain ⟨n,running,_⟩ := Mailbox.take_turn (Station.take_parts took).1
      cases spent.stopped.symm.trans running
  | woken woken =>
      obtain ⟨n,_,running,_⟩ := Mailbox.wake_parts woken
      cases spent.stopped.symm.trans running
  | polled polled =>
      refine ⟨⟨spent.disarmed,spent.stopped⟩,.inr ?_⟩
      intro unwatched
      unfold Detector.wake at polled
      rw [unwatched] at polled
      cases polled
  | fell running => cases spent.stopped.symm.trans running
  | heard => exact ⟨⟨spent.disarmed,spent.stopped⟩,.inl rfl⟩

theorem Goes.gone (goes : r.Goes r') (gone : r.Gone) : r'.Gone := by
  obtain ⟨spent,same | watched⟩ := goes.spent gone.toSpent
  · exact ⟨spent,same ▸ gone.unwatched,same ▸ gone.forgotten⟩
  · exact absurd gone.unwatched watched

theorem rest_gone (disarmed : r.guard.armed = false) (stopped : r.station.mailbox.node? = none) :
    Gone {r with station := r.station.rest} := by
  refine ⟨⟨disarmed,stopped⟩,?_,rfl⟩
  cases watching : r.station.detector.monitor <;> simp [Station.rest,Detector.stop,Detector.clear,watching]

-- There is nothing left to end.
theorem Spent.again (spent : r.Spent) : ({r with guard := ⟨r.guard.address,false⟩} : Resident) = r := by
  obtain ⟨id,⟨address,armed⟩,station,owned,listener,reader,ended⟩ := r
  cases spent.disarmed
  rfl

theorem Gone.again (gone : r.Gone) : ({r with station := r.station.rest} : Resident) = r := by
  obtain ⟨id,guard,⟨mailbox,⟨patience,sightings,callback,monitor⟩⟩,owned,listener,reader,ended⟩ := r
  cases gone.unwatched
  cases gone.forgotten
  rfl

end Resident

namespace Cluster

namespace Act

-- What ends a member's guard.
def ends (s : Nat) : Act → Prop
  | .close t => t = s
  | .abandon t => t = s
  | _ => False

def adjusts (s : Nat) : Act → Prop
  | .adjust t _ => t = s
  | _ => False

-- What may take an address.
def claims (a : Address) : Act → Prop
  | .occupy b => b = a
  | .found config => ⟨config.me,a⟩ ∈ config.members
  | _ => False

def takes (s : Nat) : Act → Bool
  | .move (.take t) => t == s
  | _ => false

end Act

variable {c : Cluster} {s k : Nat} {r : Resident} {x : Act} {a : Address}

def Stopped (s : Nat) (c : Cluster) : Prop := c.Has s fun r => r.station.mailbox.node? = none

theorem guard_lasting (lives : ¬ x.ends s) (g : Guard) : Lasting s (fun r => r.guard = g) x := by
  refine ⟨fun _ _ goes guard => goes.kept.1.trans guard,fun _ _ _ guard => guard,?_,?_⟩
  · rintro rfl
    exact absurd rfl lives
  · rintro rfl
    exact absurd rfl lives

theorem disarmed_lasting (a : Address) (x : Act) : Lasting s (fun r => r.guard = ⟨a,false⟩) x := by
  refine ⟨fun _ _ goes guard => goes.kept.1.trans guard,fun _ _ _ guard => guard,?_,?_⟩
  · exact fun _ r guard => congrArg (fun g : Guard => (⟨g.address,false⟩ : Guard)) guard
  · exact fun _ r guard => congrArg (fun g : Guard => (⟨g.address,false⟩ : Guard)) guard

theorem closing_lasting (k : Nat) (x : Act) : Lasting s (fun r => r.station.mailbox.Closing k) x := by
  refine ⟨fun _ _ goes => goes.closing,fun _ _ _ closing => closing,fun _ _ closing => closing,?_⟩
  intro _ r closing
  cases closing with
  | exited stopped => exact .exited stopped
  | waits ahead asker behind queue near => exact .waits ahead asker behind queue near

theorem spent_lasting (s : Nat) (x : Act) : Lasting s Resident.Spent x :=
  ⟨fun _ _ goes spent => (goes.spent spent).1,fun _ _ _ spent => ⟨spent.disarmed,spent.stopped⟩,
    fun _ _ spent => ⟨rfl,spent.stopped⟩,fun _ _ spent => ⟨rfl,spent.stopped⟩⟩

theorem gone_lasting (untouched : ¬ x.adjusts s) : Lasting s Resident.Gone x := by
  refine ⟨fun _ _ goes => goes.gone,?_,?_,?_⟩
  · rintro f rfl
    exact absurd rfl untouched
  · exact fun _ r gone => ⟨⟨rfl,gone.stopped⟩,gone.unwatched,gone.forgotten⟩
  · intro _ r gone
    have still : r.station.detector.release = r.station.detector := by
      simp [Detector.release,Detector.stop,gone.unwatched]
    refine ⟨⟨rfl,gone.stopped⟩,?_,?_⟩
    · exact (congrArg Detector.monitor still).trans gone.unwatched
    · exact (congrArg Detector.sightings still).trans gone.forgotten

theorem post_refused (lives : c.residents.find? s = some r) (refused : r.station.mailbox.post e = none) :
    c.post s e = c.answer e.refused := by
  simp [post,accepted?,lives,refused]

theorem post_taken (lives : c.residents.find? s = some r) (posted : r.station.mailbox.post e = some m) :
    c.post s e = {c with residents := c.residents.put s {r with station := {r.station with mailbox := m}}} := by
  simp [post,accepted?,lives,posted,setStation,change_exact lives]

-- What is posted to a member concerns no other, nor the network.
theorem post_apart (s : Nat) (e : Event Nat) (c : Cluster) :
    (c.post s e).network = c.network ∧ ∀ t, t ≠ s → (c.post s e).residents.find? t = c.residents.find? t := by
  cases posted : c.accepted? s e with
  | none =>
      rw [post,posted]
      exact ⟨rfl,fun _ _ => rfl⟩
  | some after =>
      simp only [accepted?,Option.bind_eq_bind,Option.bind_eq_some_iff] at posted
      obtain ⟨r,lives,m,posted,_⟩ := posted
      rw [post_taken lives posted]
      refine ⟨rfl,fun t other => ?_⟩
      exact Directory.find?_put_other _ other _

theorem close_apart (lives : c.residents.find? s = some r) (guard : r.guard = ⟨a,true⟩) :
    (c.close s).network = {c.network with handlers := c.network.handlers.remove a} ∧
    ∀ t, t ≠ s → (c.close s).residents.find? t = c.residents.find? t := by
  rw [close_exact lives]
  obtain ⟨network,others⟩ := post_apart s (.shutdown c.counter) {c with
    network := (r.guard.finish c.network).2
    residents := c.residents.put s {r with guard := ⟨r.guard.address,false⟩}
    counter := c.counter+1}
  refine ⟨?_,?_⟩
  · rw [network,guard,Guard.finish_exact]
    rfl
  · intro t other
    rw [others t other]
    exact Directory.find?_put_other _ other _

-- The events a member has yet to handle.
def waiting (s : Nat) (c : Cluster) : Nat := (c.residents.find? s).elim 0 fun r => r.station.mailbox.events.length

-- Behind what waits already comes the shutdown.
theorem close_closing (orderly : c.Orderly) (serving : c.Has s fun r => r.guard = ⟨a,true⟩) :
    (c.close s).Has s fun r => r.guard = ⟨a,false⟩ ∧ r.station.mailbox.Closing (c.waiting s+1) := by
  obtain ⟨r,lives,guard⟩ := serving
  have held : r.station.mailbox.held = true := (orderly.serves s r lives (by rw [guard])).2
  rw [close_exact lives,waiting,lives,guard]
  let disarmed : Resident := {r with guard := ⟨a,false⟩}
  have there : (c.residents.put s disarmed).find? s = some disarmed := Directory.find?_put_self ..
  rcases Mailbox.post_held held (.shutdown c.counter) with posted | stopped
  · rw [post_taken (r := disarmed) there posted]
    refine ⟨{disarmed with station := {disarmed.station with mailbox :=
      {r.station.mailbox with events := r.station.mailbox.events ++ [.shutdown c.counter]}}},?_,rfl,?_⟩
    · exact Directory.find?_put_self ..
    · exact .waits r.station.mailbox.events c.counter [] rfl (Nat.lt_succ_self _)
  · rw [post_refused (r := disarmed) there (Mailbox.post_stopped stopped _)]
    exact ⟨disarmed,there,rfl,.exited stopped⟩

-- A loop with something to do is never stuck.
theorem stuck_stopped (has : c.Has s fun r => r.station.mailbox.Closing k) (stuck : perform (.take s) c = none) :
    c.Stopped s := by
  obtain ⟨r,lives,closing⟩ := has
  refine ⟨r,lives,?_⟩
  cases closing with
  | exited stopped => exact stopped
  | waits ahead asker behind queue near =>
      cases running : r.station.mailbox.node? with
      | none => rfl
      | some n =>
          have waits : .shutdown asker ∈ r.station.mailbox.events := by
            rw [queue]
            exact List.mem_append_right _ List.mem_cons_self
          obtain ⟨after,taken⟩ := take_ready (view_mailbox.mpr ⟨r,lives,rfl⟩) running waits
          cases stuck.symm.trans taken

theorem take_closing (has : c.Has s fun r => r.station.mailbox.Closing k) :
    (c.does (.move (.take s))).Has s fun r => r.station.mailbox.Closing (k-1) := by
  rw [does]
  cases performed : perform (.take s) c with
  | none =>
      obtain ⟨r,lives,stopped⟩ := stuck_stopped has performed
      exact ⟨r,lives,.exited stopped⟩
  | some next =>
      obtain ⟨r,turn,station,_,_,mid,lives,took,_,there,goes⟩ := take_goes performed
      obtain ⟨q,lives',closing⟩ := has
      cases lives.symm.trans lives'
      obtain ⟨taken,mailbox⟩ := Station.take_parts took
      have nearer : mid.Has s fun r => r.station.mailbox.Closing (k-1) := by
        refine ⟨_,there,?_⟩
        dsimp only
        rw [mailbox]
        exact closing.take taken
      exact nearer.goes (fun _ _ goes => goes.closing) goes

theorem turns_stop (orderly : c.Orderly) {xs : List Act} (has : c.Has s fun r => r.station.mailbox.Closing k)
    (turns : k ≤ xs.countP (Act.takes s)) : (c.live xs).Stopped s := by
  induction xs generalizing c k with
  | nil =>
      cases Nat.le_zero.mp turns
      obtain ⟨r,lives,closing⟩ := has
      exact ⟨r,lives,closing.stopped⟩
  | cons x rest ih =>
      rw [List.countP_cons] at turns
      by_cases own : x = .move (.take s)
      · subst own
        refine ih (orderly.does _) (take_closing has) ?_
        simp only [Act.takes,beq_self_eq_true,if_true] at turns
        omega
      · have other : Act.takes s x = false := by
          unfold Act.takes
          split
          · next t => exact beq_eq_false_iff_ne.mpr fun same => own (same ▸ rfl)
          · rfl
        rw [other] at turns
        exact ih (orderly.does x) (has.does orderly (closing_lasting k x)) turns

theorem idle_stopped (idle : Schedule.act c = none) (has : c.Has s fun r => r.station.mailbox.Closing k) :
    c.Stopped s := by
  refine stuck_stopped has (List.findSome?_eq_none_iff.mp idle (.take s) ?_)
  obtain ⟨r,lives,_⟩ := has
  have key : s ∈ c.residents.keys := List.mem_map_of_mem (Directory.find?_mem lives)
  change Move.take s ∈ moves c
  simp [moves,key]

end Cluster
end LeaderElection
