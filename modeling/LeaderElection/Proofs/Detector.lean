import LeaderElection.Detector
import LeaderElection.Proofs.Basic
import Mathlib.Data.List.Sort
import Mathlib.Data.String.Basic

namespace LeaderElection

-- What a detector is used for: it is told three things, and asked for three.
inductive Use where
  | mark (peer : NodeId)
  | setPatience (peer : NodeId) (patience : Nat)
  | clear
  | suspects (peer : NodeId)
  | known
  | suspected

inductive Finding where
  | done
  | suspicion (suspected : Bool)
  | peers (ids : List NodeId)
  deriving DecidableEq

namespace Use

def asks : Use → Prop
  | .suspects _ => True
  | .known => True
  | .suspected => True
  | _ => False

def clears : Use → Bool
  | .clear => true
  | _ => false

-- The peer that is known from then on.
def peer? : Use → Option NodeId
  | .mark peer => some peer
  | .setPatience peer _ => some peer
  | _ => none

def marks (p : NodeId) : Use → Bool
  | .mark peer => peer = p
  | _ => false

def patience? (p : NodeId) : Use → Option Nat
  | .setPatience peer patience => if peer = p then some patience else none
  | _ => none

end Use

-- Detectors of one process behind handles. A copy of a handle leads to the same detector.
structure Handles where
  behind : Nat → Nat
  detector : Nat → Detector

inductive Handling where
  | copy (handle copy : Nat)
  | use (handle now : Nat) (use : Use)

-- What was done at which time since the last clear, the latest first.
def lately (past : List (Nat × Use)) : List (Nat × Use) := past.reverse.takeWhile fun u => !u.2.clears

def lastMark (p : NodeId) (recent : List (Nat × Use)) : Option Nat := (recent.find? fun u => u.2.marks p).map Prod.fst

def lastPatience (p : NodeId) (recent : List (Nat × Use)) : Option Nat := recent.findSome? fun u => u.2.patience? p

namespace NodeId

theorem sort_mem {id : NodeId} {ids : List NodeId} : id ∈ sort ids ↔ id ∈ ids := List.mem_mergeSort

-- Ids that occur once each are in strictly ascending order once they are sorted.
theorem sort_ascends {ids : List NodeId} (distinct : ids.Nodup) : (sort ids).Pairwise fun a b => a.text < b.text := by
  have ordered : (sort ids).Pairwise fun a b => le a b = true := by
    refine List.pairwise_mergeSort ?_ ?_ ids
    · intro a b c ab bc
      exact decide_eq_true (le_trans (of_decide_eq_true ab) (of_decide_eq_true bc))
    · intro a b
      simpa [le] using le_total a.text b.text
  have apart : (sort ids).Nodup := (List.mergeSort_perm ids le).nodup_iff.mpr distinct
  refine ordered.imp₂ ?_ apart
  intro a b below differ
  refine lt_of_le_of_ne (of_decide_eq_true below) ?_
  intro same
  exact differ (congrArg NodeId.mk same)

end NodeId

namespace Detector

def used (now : Nat) (d : Detector) : Use → Detector × Finding
  | .mark peer => (d.mark now peer,.done)
  | .setPatience peer patience => (d.setPatience peer patience,.done)
  | .clear => (d.clear,.done)
  | .suspects peer => (d,.suspicion (d.suspects now peer))
  | .known => (d,.peers d.known)
  | .suspected => (d,.peers (d.suspected now))

-- A detector knows of its past what was done since the last clear.
structure Recalls (standard : Nat) (recent : List (Nat × Use)) (d : Detector) : Prop where
  patience : d.patience = standard
  distinct : d.sightings.keys.Nodup
  keys : ∀ p, p ∈ d.sightings.keys ↔ ∃ u ∈ recent, u.2.peer? = some p
  sighting : ∀ p, d.sighting p = ⟨lastMark p recent,lastPatience p recent⟩

variable {d : Detector} {standard : Nat} {recent : List (Nat × Use)}

theorem Recalls.blank (patience : d.patience = standard) (blank : d.sightings = .empty) : Recalls standard [] d := by
  refine ⟨patience,?_,?_,?_⟩
  · rw [blank]
    exact List.nodup_nil
  · intro p
    simp [blank,Directory.keys,Directory.empty]
  · intro p
    simp [Detector.sighting,blank,Directory.find?,Directory.empty,lastMark,lastPatience]

theorem sighting_put (d : Detector) (peer p : NodeId) (s : Sighting) :
    sighting {d with sightings := d.sightings.put peer s} p = if p = peer then s else d.sighting p := by
  unfold sighting
  rw [Directory.find?_put]
  by_cases same : p = peer
  · subst same
    simp
  · simp [same]

-- What is done for one peer does not change what is known of another.
theorem recent_other (recent : List (Nat × Use)) {u : Nat × Use} (other : u.2.peer? ≠ some p) :
    lastMark p (u :: recent) = lastMark p recent ∧ lastPatience p (u :: recent) = lastPatience p recent := by
  obtain ⟨now,use⟩ := u
  have unmarked : use.marks p = false := by
    cases use with
    | mark peer => simpa [Use.marks,Use.peer?] using other
    | _ => rfl
  have unset : use.patience? p = none := by
    cases use with
    | setPatience peer patience => simpa [Use.patience?,Use.peer?] using other
    | _ => rfl
  simp [lastMark,lastPatience,unmarked,unset]

theorem Recalls.put (recalls : Recalls standard recent d) {u : Nat × Use} (names : u.2.peer? = some peer)
    (seen : s = ⟨lastMark peer (u :: recent),lastPatience peer (u :: recent)⟩) :
    Recalls standard (u :: recent) {d with sightings := d.sightings.put peer s} := by
  refine ⟨recalls.patience,Directory.put_keys_nodup recalls.distinct peer s,?_,?_⟩
  · intro p
    rw [Directory.put_keys_mem,recalls.keys,eq_comm]
    simp [names]
  · intro p
    rw [sighting_put]
    by_cases same : p = peer
    · rw [if_pos same,same,seen]
    · have other : u.2.peer? ≠ some p := by
        rw [names]
        exact fun same' => same (Option.some.inj same').symm
      obtain ⟨mark,patience⟩ := recent_other recent other
      rw [if_neg same,recalls.sighting,mark,patience]

theorem Recalls.asked (recalls : Recalls standard recent d) {u : Nat × Use} (unnamed : u.2.peer? = none) :
    Recalls standard (u :: recent) d := by
  refine ⟨recalls.patience,recalls.distinct,?_,?_⟩
  · intro p
    rw [recalls.keys]
    simp [unnamed]
  · intro p
    have other : u.2.peer? ≠ some p := by
      rw [unnamed]
      exact nofun
    obtain ⟨mark,patience⟩ := recent_other recent other
    rw [recalls.sighting,mark,patience]

theorem lately_snoc (past : List (Nat × Use)) (u : Nat × Use) :
    lately (past ++ [u]) = if u.2.clears then [] else u :: lately past := by
  unfold lately
  rw [List.reverse_concat,List.takeWhile_cons]
  cases u.2.clears <;> rfl

theorem Recalls.used (recalls : Recalls standard (lately past) d) (now : Nat) (use : Use) :
    Recalls standard (lately (past ++ [(now,use)])) (d.used now use).1 := by
  rw [lately_snoc]
  cases use with
  | mark peer =>
      refine recalls.put rfl ?_
      rw [recalls.sighting]
      simp [lastMark,lastPatience,Use.marks,Use.patience?]
  | setPatience peer patience =>
      refine recalls.put rfl ?_
      rw [recalls.sighting]
      simp [lastMark,lastPatience,Use.marks,Use.patience?]
  | clear => exact .blank recalls.patience rfl
  | suspects peer => exact recalls.asked rfl
  | known => exact recalls.asked rfl
  | suspected => exact recalls.asked rfl

theorem Recalls.suspects (recalls : Recalls standard recent d) (now : Nat) (p : NodeId) :
    d.suspects now p = false ↔
      ∃ last, lastMark p recent = some last ∧ now-last ≤ (lastPatience p recent).getD standard := by
  unfold Detector.suspects
  rw [recalls.sighting,recalls.patience]
  cases lastMark p recent with
  | none => simp
  | some last => simp

theorem Recalls.known (recalls : Recalls standard recent d) :
    d.known.Pairwise (fun a b => a.text < b.text) ∧ ∀ p, p ∈ d.known ↔ ∃ u ∈ recent, u.2.peer? = some p := by
  refine ⟨NodeId.sort_ascends recalls.distinct,?_⟩
  intro p
  rw [Detector.known,NodeId.sort_mem,recalls.keys]

end Detector

namespace Handles

-- New detectors, each with the patience it was made with.
def opened (behind patience : Nat → Nat) : Handles := ⟨behind,fun k => .create (patience k)⟩

def finding (handle now : Nat) (use : Use) (h : Handles) : Finding := ((h.detector (h.behind handle)).used now use).2

def does : Handling → Handles → Handles
  | .copy handle copy,h => {h with behind := Function.update h.behind copy (h.behind handle)}
  | .use handle now use,h => {h with
      detector := Function.update h.detector (h.behind handle) ((h.detector (h.behind handle)).used now use).1}

def run : List Handling → Handles → Handles
  | [],h => h
  | x :: rest,h => run rest (h.does x)

-- What is done with detector `k`, through whatever handle.
def uses (k : Nat) : List Handling → Handles → List (Nat × Use)
  | [],_ => []
  | .use handle now use :: rest,h =>
    (if h.behind handle = k then [(now,use)] else []) ++ uses k rest (h.does (.use handle now use))
  | x :: rest,h => uses k rest (h.does x)

variable {h : Handles} {past : List (Nat × Use)} {k standard : Nat}

theorem run_recalls (recalls : (h.detector k).Recalls standard (lately past)) (xs : List Handling) :
    ((h.run xs).detector k).Recalls standard (lately (past ++ h.uses k xs)) := by
  induction xs generalizing h past with
  | nil => rwa [uses,List.append_nil]
  | cons x rest ih =>
      cases x with
      | copy handle copy => exact ih recalls
      | use handle now use =>
          rw [uses,run,← List.append_assoc]
          refine ih ?_
          by_cases same : h.behind handle = k
          · subst same
            rw [if_pos rfl]
            simp only [does,Function.update_self]
            exact recalls.used now use
          · have other : ¬ k = h.behind handle := fun same' => same same'.symm
            rw [if_neg same,List.append_nil]
            simp only [does,Function.update_of_ne other]
            exact recalls

-- Whatever was done with detectors, through whatever copies of their handles: each tells what it was
-- told since it was cleared last, and nothing changes by asking.
theorem detector_tells_past (behind patience : Nat → Nat) (xs : List Handling) (handle now : Nat) :
    let first := opened behind patience
    let h := first.run xs
    let recent := lately (first.uses (h.behind handle) xs)
    (∀ p, h.finding handle now (.suspects p) = .suspicion false ↔
      ∃ last, lastMark p recent = some last ∧
        now-last ≤ (lastPatience p recent).getD (patience (h.behind handle))) ∧
    (∃ ids, h.finding handle now .known = .peers ids ∧
      ids.Pairwise (fun a b => a.text < b.text) ∧
      (∀ p, p ∈ ids ↔ ∃ u ∈ recent, u.2.peer? = some p) ∧
      h.finding handle now .suspected =
        .peers (ids.filter fun p => h.finding handle now (.suspects p) = .suspicion true)) ∧
    (∀ use, use.asks → h.does (.use handle now use) = h) := by
  intro first h recent
  have begun : (first.detector (h.behind handle)).Recalls (patience (h.behind handle)) (lately []) :=
    .blank rfl rfl
  have recalls : (h.detector (h.behind handle)).Recalls (patience (h.behind handle)) recent := run_recalls begun xs
  refine ⟨?_,⟨_,rfl,recalls.known.1,recalls.known.2,?_⟩,?_⟩
  · intro p
    rw [← recalls.suspects]
    exact ⟨Finding.suspicion.inj,congrArg Finding.suspicion⟩
  · simp only [finding,Detector.used,Detector.suspected,Finding.suspicion.injEq,Bool.decide_eq_true]
  · intro use asks
    cases use with
    | mark peer => exact asks.elim
    | setPatience peer patience => exact asks.elim
    | clear => exact asks.elim
    | _ => simp only [does,Detector.used,Function.update_eq_self]

end Handles
end LeaderElection
