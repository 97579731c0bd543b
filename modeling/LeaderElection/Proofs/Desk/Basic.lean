import LeaderElection.Proofs.Mailbox
import LeaderElection.Proofs.Node.Round

namespace LeaderElection

-- A node at work under a clock. Nothing is said of its peers: whatever they send arrives sometime.
structure Desk (τ : Type) where
  now : Nat
  mailbox : Mailbox τ

inductive Happening (τ : Type) where
  | pass (instant : Nat)
  | post (e : Event τ)
  | take (draw : Nat)
  | wake (draw : Nat)
  | release

namespace Desk

variable {τ : Type}

def opened (start first : Nat) (roster : Roster) (timings : Timings) : Desk τ :=
  ⟨start,.start (.create start first roster timings)⟩

def node? (d : Desk τ) : Option Node := d.mailbox.node?

def does : Happening τ → Desk τ → Desk τ
  | .pass instant,d => {d with now := instant}
  | .post e,d => {d with mailbox := (d.mailbox.post e).getD d.mailbox}
  | .take draw,d => {d with mailbox := ((d.mailbox.take d.now draw).map Turn.mailbox).getD d.mailbox}
  | .wake draw,d => {d with mailbox := ((d.mailbox.wake d.now draw).map Prod.fst).getD d.mailbox}
  | .release,d => {d with mailbox := d.mailbox.release}

def run : List (Happening τ) → Desk τ → Desk τ
  | [],d => d
  | x :: rest,d => run rest (d.does x)

-- What is handed to the transport, and when.
def sends : Happening τ → Desk τ → List Dispatch
  | .take draw,d => ((d.mailbox.take d.now draw).map Turn.sends).getD []
  | _,_ => []

def sent : List (Happening τ) → Desk τ → List (Nat × Dispatch)
  | [],_ => []
  | x :: rest,d => (d.sends x).map (d.now,·) ++ sent rest (d.does x)

-- What happens to the node itself.
def deed? : Happening τ → Desk τ → Option Deed
  | .take draw,d => (d.mailbox.events.head?.bind Event.call?).map (.call d.now draw)
  | .wake draw,d => some (.wake d.now draw)
  | _,_ => none

-- Something that befalls the node.
def Sees (befalls : Node → Deed → Prop) (d : Desk τ) (x : Happening τ) : Prop :=
  ∃ n deed, d.node? = some n ∧ d.deed? x = some deed ∧ befalls n deed

-- A candidacy for term `t` begins.
def Begins (t : Term) (d : Desk τ) (x : Happening τ) : Prop := d.Sees (Node.Begins t) x

-- A law that every happening of a run keeps.
def Along (law : Desk τ → Happening τ → Prop) : Desk τ → List (Happening τ) → Prop
  | _,[] => True
  | d,x :: rest => law d x ∧ Along law (d.does x) rest

variable {d : Desk τ} {x : Happening τ} {law : Desk τ → Happening τ → Prop}

theorem run_append (before after : List (Happening τ)) (d : Desk τ) :
    d.run (before ++ after) = (d.run before).run after := by
  induction before generalizing d with
  | nil => rfl
  | cons x rest ih => exact ih (d.does x)

theorem sent_append (before after : List (Happening τ)) (d : Desk τ) :
    d.sent (before ++ after) = d.sent before ++ (d.run before).sent after := by
  induction before generalizing d with
  | nil => rfl
  | cons x rest ih => simp only [List.cons_append,sent,run,ih,List.append_assoc]

theorem along_append {before after : List (Happening τ)} :
    Along law d (before ++ after) ↔ Along law d before ∧ Along law (d.run before) after := by
  induction before generalizing d with
  | nil => simp [Along,run]
  | cons x rest ih => simp [Along,run,ih,and_assoc]

-- What every happening preserves is preserved by a run.
theorem along_keeps {holds : Desk τ → Prop} {xs : List (Happening τ)}
    (keeps : ∀ d x, law d x → holds d → holds (d.does x)) (along : Along law d xs) (begins : holds d) :
    holds (d.run xs) := by
  induction xs generalizing d with
  | nil => exact begins
  | cons x rest ih => exact ih along.2 (keeps d x along.1 begins)

end Desk

namespace Desk

variable {τ : Type} {d : Desk τ} {x : Happening τ} {n : Node}

-- All that can happen at the desk of a running node, with the requests it sends then. Once the loop is
-- over its remains do not matter.
inductive Goes (now : Nat) (n : Node) (events : List (Event τ)) (held : Bool) :
    Happening τ → Desk τ → List Dispatch → Prop where
  | passed : Goes now n events held (.pass instant) ⟨instant,.running n,events,held⟩ []
  | posted (open' : held = true) : Goes now n events held (.post e) ⟨now,.running n,events ++ [e],held⟩ []
  | refused (closed : held = false) : Goes now n events held (.post e) ⟨now,.running n,events,held⟩ []
  | called (first : events = e :: rest) (calls : e.call? = some c) : Goes now n events held (.take draw)
      ⟨now,.running (n.apply now draw c).node,rest,held⟩ (n.apply now draw c).sends
  | skipped (first : events = e :: rest) (other : e.call? = none) :
      Goes now n events held (.take draw) ⟨now,.running n,rest,held⟩ []
  | idled (empty : events = []) (open' : held = true) :
      Goes now n events held (.take draw) ⟨now,.running n,events,held⟩ []
  | ended (gone : last.node? = none) : Goes now n events held (.take draw) last []
  | slept (asleep : n.wake now draw = none) :
      Goes now n events held (.wake draw) ⟨now,.running n,events,held⟩ []
  | woke (woken : n.wake now draw = some (after,alarm)) : Goes now n events held (.wake draw)
      ⟨now,.running after,if held then events ++ alarm.toList.map .alarm else events,held⟩ []
  | released : Goes now n events held .release ⟨now,.running n,events,false⟩ []

theorem goes (now : Nat) (n : Node) (events : List (Event τ)) (held : Bool) (x : Happening τ) :
    Goes now n events held x (does x ⟨now,.running n,events,held⟩) (sends x ⟨now,.running n,events,held⟩) := by
  cases x with
  | pass instant => exact .passed
  | post e =>
      cases held with
      | true => exact .posted rfl
      | false => exact .refused rfl
  | take draw =>
      cases events with
      | nil =>
          cases held with
          | true => exact .idled rfl rfl
          | false => exact .ended rfl
      | cons e rest =>
          have after : does (.take draw) ⟨now,.running n,e :: rest,held⟩ =
            ⟨now,(Mailbox.handle now draw n e rest held).mailbox⟩ := rfl
          have handed : sends (.take draw) ⟨now,.running n,e :: rest,held⟩ =
            (Mailbox.handle now draw n e rest held).sends := rfl
          cases calls : e.call? with
          | some c =>
              obtain ⟨mailbox,sends⟩ := Mailbox.handle_call calls now draw n rest held
              rw [after,handed,mailbox,sends]
              exact .called rfl calls
          | none =>
              obtain ⟨mailbox,sends⟩ := Mailbox.handle_other calls now draw n rest held
              rw [after,handed,sends]
              rcases mailbox with same | gone
              · rw [same]
                exact .skipped rfl calls
              · exact .ended gone
  | wake draw =>
      have after : does (.wake draw) ⟨now,.running n,events,held⟩ =
        ⟨now,((Mailbox.wake now draw ⟨.running n,events,held⟩).map Prod.fst).getD ⟨.running n,events,held⟩⟩ := rfl
      rw [after,Mailbox.wake_running]
      cases woken : n.wake now draw with
      | none => exact .slept woken
      | some next => exact .woke woken
  | release => exact .released

theorem does_stopped (stopped : d.node? = none) (x : Happening τ) : (d.does x).node? = none ∧ d.sends x = [] := by
  obtain ⟨now,loop,events,held⟩ := d
  cases loop with
  | running n => cases stopped
  | exited feed =>
      cases x with
      | post e => simp [does,sends,node?,Mailbox.post,Mailbox.node?]
      | _ => exact ⟨rfl,rfl⟩

theorem node_parts (present : d.node? = some n) : ∃ now events held, d = ⟨now,.running n,events,held⟩ := by
  obtain ⟨now,loop,events,held⟩ := d
  cases loop with
  | running m => cases present; exact ⟨now,events,held,rfl⟩
  | exited feed => cases present

theorem deed_parts (befallen : d.deed? x = some deed) :
    (∃ draw e c, x = .take draw ∧ d.mailbox.events.head? = some e ∧ e.call? = some c ∧ deed = .call d.now draw c) ∨
    ∃ draw, x = .wake draw ∧ deed = .wake d.now draw := by
  cases x with
  | take draw =>
      obtain ⟨c,called,rfl⟩ := Option.map_eq_some_iff.mp befallen
      obtain ⟨e,first,calls⟩ := Option.bind_eq_some_iff.mp called
      exact .inl ⟨draw,e,c,rfl,first,calls,rfl⟩
  | wake draw => exact .inr ⟨draw,rfl,(Option.some.inj befallen).symm⟩
  | _ => cases befallen

theorem does_deed (present : d.node? = some n) (befallen : d.deed? x = some deed) :
    (d.does x).node? = some (n.does deed) := by
  obtain ⟨now,events,held,rfl⟩ := node_parts present
  rcases deed_parts befallen with ⟨draw,e,c,rfl,first,calls,rfl⟩ | ⟨draw,rfl,rfl⟩
  · obtain ⟨rest,rfl⟩ := List.head?_eq_some_iff.mp first
    have after : does (.take draw) ⟨now,.running n,e :: rest,held⟩ =
      ⟨now,(Mailbox.handle now draw n e rest held).mailbox⟩ := rfl
    rw [after,(Mailbox.handle_call calls now draw n rest held).1]
    rfl
  · have went := goes now n events held (.wake draw)
    generalize does (.wake draw) ⟨now,.running n,events,held⟩ = last, sends _ _ = sent at went ⊢
    cases went with
    | slept asleep => simp [Node.does,asleep,node?,Mailbox.node?]
    | woke woken => simp [Node.does,woken,node?,Mailbox.node?]

theorem does_node (after : (d.does x).node? = some m) :
    ∃ n, d.node? = some n ∧ (m = n ∨ ∃ deed, d.deed? x = some deed ∧ m = n.does deed) := by
  cases present : d.node? with
  | none => simp [(does_stopped present x).1] at after
  | some n =>
      refine ⟨n,rfl,?_⟩
      obtain ⟨now,events,held,rfl⟩ := node_parts present
      have went := goes now n events held x
      have befallen : ∀ deed, deed? x ⟨now,.running n,events,held⟩ = some deed → _ := fun _ => does_deed present
      generalize does x ⟨now,.running n,events,held⟩ = last, sends x _ = sent at went after befallen
      cases went with
      | @called e rest c draw first calls =>
          have deed : deed? (.take draw) ⟨now,.running n,events,held⟩ = some (.call now draw c) := by
            simp [deed?,first,calls]
          exact .inr ⟨_,deed,Option.some.inj (after.symm.trans (befallen _ deed))⟩
      | ended gone => simp [gone] at after
      | woke _ => exact .inr ⟨_,rfl,Option.some.inj (after.symm.trans (befallen _ rfl))⟩
      | _ => exact .inl (Option.some.inj after).symm

-- Whatever happens at the desk, its node lives through some deeds.
theorem run_node {xs : List (Happening τ)} (after : (d.run xs).node? = some m) :
    ∃ n deeds, d.node? = some n ∧ m = n.run deeds := by
  induction xs generalizing d with
  | nil => exact ⟨m,[],after,rfl⟩
  | cons x rest ih =>
      obtain ⟨next,deeds,between,rfl⟩ := ih after
      obtain ⟨n,present,same | ⟨deed,_,same⟩⟩ := does_node between
      · exact ⟨n,deeds,present,same ▸ rfl⟩
      · exact ⟨n,deed :: deeds,present,same ▸ rfl⟩

theorem sends_deed (present : d.node? = some n) (befallen : d.deed? x = some (.call instant draw c)) :
    d.sends x = (n.apply instant draw c).sends := by
  obtain ⟨_,events,held,rfl⟩ := node_parts present
  rcases deed_parts befallen with ⟨_,e,_,rfl,first,calls,same⟩ | ⟨_,rfl,same⟩
  · cases same
    obtain ⟨rest,rfl⟩ := List.head?_eq_some_iff.mp first
    exact (Mailbox.handle_call calls _ draw n rest held).2
  · cases same

-- Nothing is sent but on account of an event the node is called with.
theorem sends_parts {s : Dispatch} (sent : s ∈ d.sends x) : ∃ n draw e c, d.node? = some n ∧ x = .take draw ∧
    d.mailbox.events.head? = some e ∧ e.call? = some c ∧ d.deed? x = some (.call d.now draw c) ∧
    s ∈ (n.apply d.now draw c).sends := by
  cases present : d.node? with
  | none => simp [(does_stopped present x).2] at sent
  | some n =>
      obtain ⟨now,events,held,rfl⟩ := node_parts present
      have went := goes now n events held x
      generalize does x _ = last, handed : sends x _ = all at went sent
      cases went with
      | @called e rest c draw first calls =>
          subst first
          refine ⟨n,draw,e,c,rfl,rfl,rfl,calls,?_,sent⟩
          simp [deed?,calls]
      | _ => cases sent

theorem sent_parts {xs : List (Happening τ)} (sent : s ∈ d.sent xs) :
    ∃ past x later, xs = past ++ x :: later ∧ s.1 = (d.run past).now ∧ s.2 ∈ (d.run past).sends x := by
  induction xs generalizing d with
  | nil => cases sent
  | cons x rest ih =>
      rcases List.mem_append.mp sent with first | further
      · obtain ⟨dispatch,handed,rfl⟩ := List.mem_map.mp first
        exact ⟨[],x,rest,rfl,rfl,handed⟩
      · obtain ⟨past,y,later,rfl,time,handed⟩ := ih further
        exact ⟨x :: past,y,later,rfl,time,handed⟩

end Desk
end LeaderElection
