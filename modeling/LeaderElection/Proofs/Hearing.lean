import LeaderElection.Proofs.Mailbox
import LeaderElection.Proofs.Roster

namespace LeaderElection

-- A listener beside a mailbox. It may have seen anything so far, so it may be the first one as well as
-- a copy made of another at any time. A reading takes two steps, and it may stand between them.
structure Hearing (τ : Type) where
  mailbox : Mailbox τ
  reader : Reader
  noticed : Bool

-- What goes on: the mailbox's own steps, calls of the node past it, the steps of a reading, and looks at
-- what is there, which take notice of nothing.
inductive Moment (τ : Type) where
  | call (now draw : Nat) (c : Call)
  | post (e : Event τ)
  | take (now draw : Nat)
  | wake (now draw : Nat)
  | release
  | notice
  | fetch
  | look

def Moment.notices {τ : Type} : Moment τ → Bool
  | .notice => true
  | _ => false

def Moment.looking {τ : Type} : Moment τ → Bool
  | .look => true
  | _ => false

-- What has been published goes forward only.
structure Forward (said : List Snapshot) : Prop where
  passes : said.IsChain Snapshot.Passes
  changes : said.IsChain (· ≠ ·)
  terms : said.Pairwise fun a b => a.term ≤ b.term
  led : said.Pairwise fun a b => ∀ t, a = .leader t → t < b.term
  opened : ∀ t, ¬ (.leaderless t ∈ said ∧ .candidate t ∈ said)

namespace Hearing

variable {τ : Type}

def passes : Moment τ → Hearing τ → Hearing τ
  | .call now draw c,h => {h with mailbox := {h.mailbox with loop := h.mailbox.loop.does (.call now draw c)}}
  | .post e,h => {h with mailbox := (h.mailbox.post e).getD h.mailbox}
  | .take now draw,h => {h with mailbox := ((h.mailbox.take now draw).map Turn.mailbox).getD h.mailbox}
  | .wake now draw,h => {h with mailbox := ((h.mailbox.wake now draw).map Prod.fst).getD h.mailbox}
  | .release,h => {h with mailbox := h.mailbox.release}
  | .notice,h => if h.noticed then h else
      (h.reader.notice h.mailbox.feed).elim h fun reader => {h with reader, noticed := true}
  | .fetch,h => {h with noticed := false}
  | .look,h => h

def after : List (Moment τ) → Hearing τ → Hearing τ
  | [],h => h
  | m :: rest,h => after rest (h.passes m)

-- What a reading comes to: at its second step it fetches what is there then, and it hears of the end at
-- its first. A reader that finds nothing new before the end goes on waiting.
def hears : Moment τ → Hearing τ → Option (Reading Snapshot)
  | .notice,h =>
    if !h.noticed && (h.reader.notice h.mailbox.feed).isNone && h.mailbox.feed.closed then some .ended else none
  | .fetch,h => if h.noticed then some (.fresh h.mailbox.feed.latest) else none
  | _,_ => none

def looks : Moment τ → Hearing τ → Option Snapshot
  | .look,h => some h.mailbox.feed.latest
  | _,_ => none

def readings : List (Moment τ) → Hearing τ → List (Reading Snapshot)
  | [],_ => []
  | m :: rest,h => (h.hears m).toList ++ readings rest (h.passes m)

def received (moments : List (Moment τ)) (h : Hearing τ) : List Snapshot :=
  (h.readings moments).filterMap Reading.fresh?

-- All that a listener is shown, by its readings and its looks.
def shown : List (Moment τ) → Hearing τ → List Snapshot
  | [],_ => []
  | m :: rest,h => (((h.hears m).bind Reading.fresh?).or (h.looks m)).toList ++ shown rest (h.passes m)

-- How many publications came before each that is fetched.
def places : List (Moment τ) → Hearing τ → List Nat
  | [],_ => []
  | m :: rest,h => (if (h.hears m).bind Reading.fresh? = none then [] else [h.mailbox.feed.earlier.length]) ++
      places rest (h.passes m)

-- Nothing is published between the two steps of any reading.
def Undisturbed : List (Moment τ) → Hearing τ → Prop
  | [],_ => True
  | m :: rest,h => (h.noticed = true → (h.passes m).mailbox.feed.count = h.mailbox.feed.count) ∧
      Undisturbed rest (h.passes m)

-- What a listener between two readings gets from then on: always the latest, never one that came before
-- another it got already, and each but once unless a reading is disturbed. After the end of the node it
-- gets what it has not seen yet, and then hears of the end, however often it reads. It may look at the
-- latest as well, as often as it likes, and its readings bring the same as if it had not looked.
structure Heeds (h : Hearing τ) (moments : List (Moment τ)) : Prop where
  latest : ∀ past m later v, moments = past ++ m :: later → (h.after past).hears m = some (.fresh v) →
    (h.after past).mailbox.feed.history.getLast? = some v
  onward : ∃ places : List Nat, places.Pairwise (· ≤ ·) ∧
    (h.received moments).map some = places.map fun k => (h.after moments).mailbox.feed.history[k]?
  once : h.Undisturbed moments →
    (h.received moments).Sublist ((h.after moments).mailbox.feed.history.drop h.reader.seen)
  ended : h.hears .notice = some .ended ↔ ¬ h.reader.seen < h.mailbox.feed.count ∧ h.mailbox.node? = none
  last : h.mailbox.node? = none → h.reader.seen < h.mailbox.feed.count → ∀ before between later,
    moments = before ++ .notice :: (between ++ .fetch :: later) → .notice ∉ before → .fetch ∉ between →
      h.readings moments = .fresh h.mailbox.feed.latest :: List.replicate (later.countP Moment.notices) .ended
  silent : h.mailbox.node? = none → ¬ h.reader.seen < h.mailbox.feed.count →
    h.readings moments = List.replicate (moments.countP Moment.notices) .ended
  looked : ∀ past m later v, moments = past ++ m :: later → (h.after past).looks m = some v →
    (h.after past).mailbox.feed.history.getLast? = some v
  apart : h.readings (moments.filter fun m => !m.looking) = h.readings moments

variable {h : Hearing τ}

theorem passes_notice (h : Hearing τ) : h.passes .notice = h ∨
    h.noticed = false ∧ h.reader.seen < h.mailbox.feed.count ∧
      h.passes .notice = ⟨h.mailbox,⟨h.mailbox.feed.count⟩,true⟩ := by
  obtain ⟨mailbox,reader,noticed⟩ := h
  cases noticed with
  | true => exact .inl rfl
  | false =>
      by_cases unseen : reader.seen < mailbox.feed.count
      · refine .inr ⟨rfl,unseen,?_⟩
        simp [passes,reader.notice_unseen unseen]
      · exact .inl (by simp [passes,reader.notice_seen unseen])

theorem passes_goes (m : Moment τ) (h : Hearing τ) : h.mailbox.loop.Goes (h.passes m).mailbox.loop := by
  cases m with
  | call now draw c => exact .does _
  | post e => exact Mailbox.getD_goes fun _ => Mailbox.post_goes
  | take now draw =>
      refine Mailbox.getD_goes ?_
      intro next taken
      obtain ⟨turn,took,rfl⟩ := Option.map_eq_some_iff.mp taken
      exact Mailbox.take_goes took
  | wake now draw =>
      refine Mailbox.getD_goes ?_
      intro next woken
      obtain ⟨⟨_,alarm⟩,woke,rfl⟩ := Option.map_eq_some_iff.mp woken
      exact Mailbox.wake_goes woke
  | notice =>
      rcases h.passes_notice with same | ⟨_,_,noticed⟩
      · rw [same]
        exact .same
      · rw [noticed]
        exact .same
  | _ => exact .same

-- The steps of the mailbox leave the listener where it is.
theorem passes_reader (m : Moment τ) (h : Hearing τ) (apart : m ≠ .notice) :
    (h.passes m).reader = h.reader ∧ (m ≠ .fetch → (h.passes m).noticed = h.noticed ∧ h.hears m = none) := by
  cases m with
  | notice => exact absurd rfl apart
  | fetch => exact ⟨rfl,fun other => absurd rfl other⟩
  | _ => exact ⟨rfl,fun _ => ⟨rfl,rfl⟩⟩

theorem after_sound (sound : h.mailbox.loop.Sound) (moments : List (Moment τ)) :
    (h.after moments).mailbox.loop.Sound := by
  induction moments generalizing h with
  | nil => exact sound
  | cons m rest ih => exact ih ((passes_goes m h).sound sound)

theorem after_history (sound : h.mailbox.loop.Sound) (moments : List (Moment τ)) :
    h.mailbox.feed.history <+: (h.after moments).mailbox.feed.history := by
  simp only [Mailbox.feed_loop]
  induction moments generalizing h with
  | nil => exact List.prefix_rfl
  | cons m rest ih =>
      have goes := passes_goes m h
      exact (goes.history sound).trans (ih (goes.sound sound))

theorem passes_stopped (stopped : h.mailbox.node? = none) (m : Moment τ) :
    (h.passes m).mailbox.node? = none ∧ (h.passes m).mailbox.feed = h.mailbox.feed := by
  have goes := passes_goes m h
  rw [Mailbox.stopped_loop.mp stopped] at goes
  have still := goes.exited
  have same : (h.passes m).mailbox.feed = h.mailbox.feed := by
    rw [Mailbox.feed_loop,still]
    rfl
  exact ⟨Mailbox.stopped_loop.mpr (same ▸ still),same⟩

theorem fetch_noticed (noticed : h.noticed = true) : h.hears .fetch = some (.fresh h.mailbox.feed.latest) := if_pos noticed

theorem fetch_idle (idle : h.noticed = false) : h.hears .fetch = none ∧ h.passes .fetch = h := by
  obtain ⟨mailbox,reader,noticed⟩ := h
  cases idle
  exact ⟨rfl,rfl⟩

theorem hears_notice (idle : h.noticed = false) : h.hears .notice =
    if ¬ h.reader.seen < h.mailbox.feed.count ∧ h.mailbox.feed.closed = true then some .ended else none := by
  by_cases unseen : h.reader.seen < h.mailbox.feed.count
  · simp [hears,idle,h.reader.notice_unseen unseen,unseen]
  · simp [hears,idle,h.reader.notice_seen unseen,unseen]

theorem notice_ended (sound : h.mailbox.loop.Sound) (idle : h.noticed = false) : h.hears .notice = some .ended ↔
    ¬ h.reader.seen < h.mailbox.feed.count ∧ h.mailbox.node? = none := by
  rw [hears_notice idle,← Mailbox.closed_stopped sound]
  simp

-- Only a fetch brings anything.
theorem hears_cases (m : Moment τ) (h : Hearing τ) :
    (h.hears m).bind Reading.fresh? = none ∨ m = .fetch ∧ h.noticed = true := by
  cases m with
  | notice =>
      refine .inl ?_
      rw [hears]
      split <;> rfl
  | fetch =>
      cases noticed : h.noticed with
      | false => exact .inl (by rw [(fetch_idle noticed).1]; rfl)
      | true => exact .inr ⟨rfl,rfl⟩
  | _ => exact .inl rfl

theorem hears_latest {m : Moment τ} (fresh : h.hears m = some (.fresh v)) :
    h.mailbox.feed.history.getLast? = some v := by
  rcases hears_cases m h with nothing | ⟨rfl,noticed⟩
  · rw [fresh] at nothing
    cases nothing
  · rw [fetch_noticed noticed] at fresh
    cases fresh
    rw [Feed.history_last,List.getLast?_concat]

theorem looks_latest {m : Moment τ} (looked : h.looks m = some v) : h.mailbox.feed.history.getLast? = some v := by
  cases m with
  | look =>
      cases looked
      rw [Feed.history_last,List.getLast?_concat]
  | _ => cases looked

theorem readings_unlooked (moments : List (Moment τ)) (h : Hearing τ) :
    h.readings (moments.filter fun m => !m.looking) = h.readings moments := by
  induction moments generalizing h with
  | nil => rfl
  | cons m rest ih =>
      cases m with
      | look => exact ih h
      | _ => exact congrArg (_ ++ ·) (ih _)

theorem received_cons (m : Moment τ) (rest : List (Moment τ)) (h : Hearing τ) : h.received (m :: rest) =
    ((h.hears m).bind Reading.fresh?).toList ++ (h.passes m).received rest := by
  rw [received,readings,List.filterMap_append]
  congr 1
  cases h.hears m with
  | none => rfl
  | some reading => cases reading <;> rfl

theorem latest_place (f : Feed Snapshot) : f.history[f.earlier.length]? = some f.latest := by
  rw [f.history_last,List.getElem?_append_right (by simp)]
  simp

-- However a reading is disturbed, what a listener gets never goes back.
theorem places_onward (sound : h.mailbox.loop.Sound) (moments : List (Moment τ)) :
    (∀ k ∈ h.places moments, h.mailbox.feed.earlier.length ≤ k) ∧ (h.places moments).Pairwise (· ≤ ·) ∧
      (h.received moments).map some = (h.places moments).map fun k => (h.after moments).mailbox.feed.history[k]? := by
  induction moments generalizing h with
  | nil => exact ⟨nofun,.nil,rfl⟩
  | cons m rest ih =>
      have goes := passes_goes m h
      obtain ⟨bounded,ordered,same⟩ := ih (goes.sound sound)
      have grows : h.mailbox.feed.earlier.length ≤ (h.passes m).mailbox.feed.earlier.length := by
        have longer := (after_history sound [m]).length_le
        rw [Feed.history_length,Feed.history_length] at longer
        exact Nat.le_of_succ_le_succ longer
      have later : ∀ k ∈ (h.passes m).places rest, h.mailbox.feed.earlier.length ≤ k := fun k present =>
        Nat.le_trans grows (bounded k present)
      rw [received_cons,places,after]
      rcases hears_cases m h with nothing | ⟨rfl,noticed⟩
      · rw [nothing,if_pos rfl]
        exact ⟨later,ordered,same⟩
      · have there : ((h.passes .fetch).after rest).mailbox.feed.history[h.mailbox.feed.earlier.length]? =
            some h.mailbox.feed.latest := by
          obtain ⟨more,said⟩ := after_history sound (.fetch :: rest)
          have place := latest_place h.mailbox.feed
          rw [after] at said
          rw [← said,List.getElem?_append_left (List.getElem?_eq_some_iff.mp place).1]
          exact place
        rw [fetch_noticed noticed]
        refine ⟨?_,?_,?_⟩
        · intro k present
          rcases List.mem_cons.mp present with rfl | further
          · exact Nat.le_refl _
          · exact later k further
        · exact List.pairwise_cons.mpr ⟨later,ordered⟩
        · simp [Reading.fresh?,there,same]

-- How many publications a listener has behind it. The one it has noticed is still to come.
def behind (h : Hearing τ) : Nat := if h.noticed then h.mailbox.feed.earlier.length else h.reader.seen

-- What a listener gets is published, in that order, each time but once, and new to it.
theorem received_sublist (sound : h.mailbox.loop.Sound) (tight : h.noticed = true → h.reader.seen = h.mailbox.feed.count)
    (moments : List (Moment τ)) (undisturbed : h.Undisturbed moments) :
    (h.received moments).Sublist ((h.after moments).mailbox.feed.history.drop h.behind) := by
  induction moments generalizing h with
  | nil => exact List.nil_sublist _
  | cons m rest ih =>
      obtain ⟨still,calm⟩ := undisturbed
      have later (tight' : (h.passes m).noticed = true → (h.passes m).reader.seen = (h.passes m).mailbox.feed.count) :=
        ih ((passes_goes m h).sound sound) tight' calm
      rw [received_cons,after]
      by_cases first : m = .notice
      · subst first
        have nothing : (h.hears .notice).bind Reading.fresh? = none := by
          rcases hears_cases .notice h with nothing | ⟨fetches,_⟩
          · exact nothing
          · cases fetches
        rw [nothing]
        rcases h.passes_notice with same | ⟨idle,unseen,noticed⟩
        · rw [same] at later ⊢
          exact later tight
        · rw [noticed] at later ⊢
          refine (later fun _ => rfl).trans (List.drop_sublist_drop_left _ ?_)
          rw [behind,behind,idle]
          exact Nat.le_of_lt_succ unseen
      · obtain ⟨reader,others⟩ := passes_reader m h first
        by_cases second : m = .fetch
        · subst second
          cases noticed : h.noticed with
          | false =>
              obtain ⟨nothing,same⟩ := fetch_idle noticed
              rw [nothing]
              rw [same] at later ⊢
              exact later tight
          | true =>
              have said := after_history sound (.fetch :: rest)
              have rest' := later fun stands => by cases stands
              rw [fetch_noticed noticed]
              rw [behind,noticed]
              refine Reader.unseen_sublist ⟨h.mailbox.feed.earlier.length⟩ (Nat.lt_succ_self _) said ?_
              rw [← tight noticed]
              exact rest'
        · obtain ⟨same,nothing⟩ := others second
          rw [nothing]
          have tight' : (h.passes m).noticed = true → (h.passes m).reader.seen = (h.passes m).mailbox.feed.count := by
            intro noticed
            rw [same] at noticed
            rw [reader,still noticed]
            exact tight noticed
          have behind : (h.passes m).behind = h.behind := by
            rw [behind,behind,same,reader]
            cases noticed : h.noticed with
            | false => rfl
            | true => exact Nat.succ.inj (still noticed)
          rw [← behind]
          exact later tight'

theorem after_append (before after' : List (Moment τ)) (h : Hearing τ) : h.after (before ++ after') = (h.after before).after after' := by
  induction before generalizing h with
  | nil => rfl
  | cons m rest ih => exact ih (h.passes m)

theorem readings_append (before after' : List (Moment τ)) (h : Hearing τ) :
    h.readings (before ++ after') = h.readings before ++ (h.after before).readings after' := by
  induction before generalizing h with
  | nil => rfl
  | cons m rest ih => rw [List.cons_append,readings,readings,after,ih,List.append_assoc]

-- After the end of the node a listener stays as it is until its next step.
theorem stopped_waits (stopped : h.mailbox.node? = none) (moments : List (Moment τ))
    (waits : ∀ m ∈ moments, m ≠ if h.noticed then .fetch else .notice) :
    h.readings moments = [] ∧ (h.after moments).mailbox.node? = none ∧
      (h.after moments).mailbox.feed = h.mailbox.feed ∧ (h.after moments).reader = h.reader ∧
      (h.after moments).noticed = h.noticed := by
  induction moments generalizing h with
  | nil => exact ⟨rfl,stopped,rfl,rfl,rfl⟩
  | cons m rest ih =>
      have first := waits m List.mem_cons_self
      have step : h.hears m = none ∧ (h.passes m).reader = h.reader ∧ (h.passes m).noticed = h.noticed := by
        by_cases notices : m = .notice
        · subst notices
          cases noticed : h.noticed with
          | false => simp [noticed] at first
          | true => simp [hears,passes,noticed]
        · obtain ⟨reader,others⟩ := passes_reader m h notices
          by_cases fetches : m = .fetch
          · subst fetches
            cases noticed : h.noticed with
            | false => exact ⟨(fetch_idle noticed).1,rfl,rfl⟩
            | true => simp [noticed] at first
          · obtain ⟨same,nothing⟩ := others fetches
            exact ⟨nothing,reader,same⟩
      obtain ⟨nothing,reader,noticed⟩ := step
      obtain ⟨still,feed⟩ := passes_stopped stopped m
      obtain ⟨silent,stopped',feed',reader',noticed'⟩ := ih still fun m' later => by
        rw [noticed]
        exact waits m' (List.mem_cons_of_mem m later)
      rw [readings,nothing,silent,after]
      exact ⟨rfl,stopped',feed'.trans feed,reader'.trans reader,noticed'.trans noticed⟩

-- Once the node has stopped and the last publication has been seen, there is nothing but the end.
theorem stopped_seen (sound : h.mailbox.loop.Sound) (stopped : h.mailbox.node? = none) (idle : h.noticed = false)
    (seen : ¬ h.reader.seen < h.mailbox.feed.count) (moments : List (Moment τ)) :
    h.readings moments = List.replicate (moments.countP Moment.notices) .ended := by
  induction moments generalizing h with
  | nil => rfl
  | cons m rest ih =>
      have sound' := (passes_goes m h).sound sound
      by_cases notices : m = .notice
      · subst notices
        have same : h.passes .notice = h := by
          rcases h.passes_notice with same | ⟨_,unseen,_⟩
          · exact same
          · exact absurd unseen seen
        rw [readings,(notice_ended sound idle).mpr ⟨seen,stopped⟩,same,ih sound stopped idle seen,
          List.countP_cons_of_pos rfl,List.replicate_succ]
        rfl
      · obtain ⟨silent,stopped',feed,reader,noticed⟩ := stopped_waits stopped [m] (by simpa [idle] using notices)
        rw [readings,readings,List.append_nil] at silent
        rw [readings,silent,List.nil_append]
        rw [after,after] at stopped' feed reader noticed
        have other : m.notices = false := by
          cases m with
          | notice => exact absurd rfl notices
          | _ => rfl
        rw [ih sound' stopped' (noticed.trans idle) (by rw [reader,feed]; exact seen),
          List.countP_cons_of_neg (by rw [other]; exact Bool.false_ne_true)]

-- A reading that comes after the end of the node fetches the last publication, if that was not seen before.
theorem stopped_unseen (sound : h.mailbox.loop.Sound) (stopped : h.mailbox.node? = none) (idle : h.noticed = false)
    (unseen : h.reader.seen < h.mailbox.feed.count) {before between later : List (Moment τ)}
    (first : .notice ∉ before) (second : .fetch ∉ between) :
    h.readings (before ++ .notice :: (between ++ .fetch :: later)) =
      .fresh h.mailbox.feed.latest :: List.replicate (later.countP Moment.notices) .ended := by
  obtain ⟨silent,stopped,feed,reader,noticed⟩ := stopped_waits stopped before fun m present => by
    rw [idle]
    rintro rfl
    exact first present
  have sound := after_sound sound before
  rw [readings_append,silent,List.nil_append,← feed]
  rw [← reader,← feed] at unseen
  have idle : (h.after before).noticed = false := noticed.trans idle
  generalize h.after before = g at sound stopped unseen idle
  have noticing : g.passes .notice = ⟨g.mailbox,⟨g.mailbox.feed.count⟩,true⟩ := by
    simp [passes,idle,g.reader.notice_unseen unseen]
  have nothing : g.hears .notice = none := by
    rw [hears_notice idle,if_neg (fun seen => seen.1 unseen)]
  rw [readings,nothing,noticing,readings_append]
  obtain ⟨silent,stopped,feed,reader,noticed⟩ := stopped_waits (h := ⟨g.mailbox,⟨g.mailbox.feed.count⟩,true⟩) stopped
    between fun m present => by
      rintro rfl
      exact second present
  have sound := after_sound (h := ⟨g.mailbox,⟨g.mailbox.feed.count⟩,true⟩) sound between
  generalize after between ⟨g.mailbox,⟨g.mailbox.feed.count⟩,true⟩ = f at sound stopped feed reader noticed ⊢
  rw [silent,readings,fetch_noticed noticed,feed,stopped_seen (h := f.passes .fetch) sound stopped rfl ?_ later]
  · rfl
  · change ¬ f.reader.seen < f.mailbox.feed.count
    rw [reader,feed]
    exact Nat.lt_irrefl _

theorem heeded (sound : h.mailbox.loop.Sound) (idle : h.noticed = false) (moments : List (Moment τ)) :
    h.Heeds moments := by
  have seen (undisturbed : h.Undisturbed moments) := received_sublist sound (by simp [idle]) moments undisturbed
  rw [behind,idle] at seen
  refine ⟨?_,⟨_,(places_onward sound moments).2⟩,seen,notice_ended sound idle,?_,?_,?_,readings_unlooked moments h⟩
  · intro past m later v _ fresh
    exact hears_latest fresh
  · rintro stopped unseen before between later rfl first second
    exact stopped_unseen sound stopped idle unseen first second
  · intro stopped seen
    exact stopped_seen sound stopped idle seen moments
  · intro past m later v _ looked
    exact looks_latest looked

theorem said_forward (sound : h.mailbox.loop.Sound) : Forward h.mailbox.feed.history := by
  have chain : h.mailbox.feed.history.IsChain Snapshot.Passes := by
    rw [Mailbox.feed_loop]
    exact sound.chain
  have ordered := Snapshot.chain_precedes chain
  refine ⟨chain,chain.imp fun _ _ => Snapshot.Passes.ne,ordered.imp Snapshot.Precedes.term_le,?_,
    fun t => Snapshot.opened_once ordered⟩
  refine ordered.imp ?_
  intro a b precedes t leads
  exact precedes.after_leader leads

-- Whatever becomes of a node, what it publishes goes forward only, and so does what a listener gets of it, whoever
-- begins to listen at any time.
theorem published_forward (start first : Nat) (roster : Roster) (timings : Timings) (reader : Reader)
    (before moments : List (Moment τ)) :
    let begun : Hearing τ := ⟨.start (.create start first roster timings),reader,false⟩
    let early : Hearing τ := {begun.after before with reader, noticed := false}
    Forward (early.after moments).mailbox.feed.history ∧ early.Heeds moments := by
  intro begun early
  have sound : early.mailbox.loop.Sound := after_sound (h := begun) (.created start first roster timings) before
  exact ⟨said_forward (after_sound sound moments),heeded sound rfl moments⟩

-- The first listener of one of three reads of the candidacy while it lasts, and of the victory after
-- the end.
theorem trio_heard_out :
    let grant : Event Unit := .voteReply ⟨"b"⟩ .one (.ok ⟨true,.one⟩)
    let n := Node.create 0 5 ⟨⟨"a"⟩,⟨"a",100⟩,trio.tail⟩ ⟨1,⟨5,10⟩,1⟩
    let life : List (Moment Unit) :=
      [.post grant,.post (.shutdown ()),.call 5 5 .timeout,.notice,.fetch,.take 6 5,.take 7 5]
    let h : Hearing Unit := {(Hearing.mk (.start n) ⟨2⟩ false).after life with reader := ⟨2⟩, noticed := false}
    h.mailbox.node? = none ∧ h.readings [.notice,.fetch,.notice] = [.fresh (.leader .one),.ended] := by
  intro grant n life h
  have stopped : h.mailbox.node? = none := by decide
  have unseen : h.reader.seen < h.mailbox.feed.count := by decide
  have latest : h.mailbox.feed.latest = .leader .one := by decide
  obtain ⟨_,heeds⟩ := published_forward 0 5 n.roster n.timings ⟨2⟩ life [.notice,.fetch,.notice]
  refine ⟨stopped,?_⟩
  rw [← latest]
  exact heeds.last stopped unseen [] [] [.notice] rfl List.not_mem_nil List.not_mem_nil

-- Who wins while a listener stands between the two steps of a reading is heard of by that reading, and by the
-- next one as well. Whoever looks gets to see the latest as often as he likes.
theorem victory_heard_twice :
    let n := Node.create 0 5 ⟨⟨"a"⟩,⟨"a",100⟩,trio.tail⟩ ⟨1,⟨5,10⟩,1⟩
    let h : Hearing Unit := (Hearing.mk (.start n) ⟨1⟩ false).after [.call 5 5 .timeout]
    let win : Moment Unit := .call 6 5 (.voteReply ⟨"b"⟩ .one (.ok ⟨true,.one⟩))
    let race : List (Moment Unit) := [.notice,win,.fetch,.notice,.fetch]
    let look : List (Moment Unit) := [win,.notice,.fetch,.look]
    (h.after race).mailbox.feed.history = [.leaderless .zero,.candidate .one,.leader .one] ∧
      h.received race = [.leader .one,.leader .one] ∧ h.shown look = [.leader .one,.leader .one] ∧
      ¬ (h.received race).Sublist (h.after race).mailbox.feed.history := by
  decide

end Hearing
end LeaderElection
