import LeaderElection.Proofs.Node.Run
import LeaderElection.Proofs.Node.Sends
import LeaderElection.Proofs.PeerList
import LeaderElection.Proofs.Roster
import LeaderElection.Proofs.Wire.Codec
import LeaderElection.Settings

namespace LeaderElection

-- What the receiver of a request without a sender misses.
def Request.lack : Request → Wire.Incomprehensible
  | .vote _ => .missing "candidate_id"
  | .heartbeat _ => .missing "leader_id"

theorem Request.frame_nameless {r : Request} (nameless : r.sender.text = "") : r.frame.request = .error r.lack := by
  cases r with
  | vote r => exact if_pos nameless
  | heartbeat h => exact if_pos nameless

theorem Request.frame_exact (r : Request) : r.frame.request = .ok r ↔ r.sender.text ≠ "" := by
  constructor
  · intro understood nameless
    rw [frame_nameless nameless] at understood
    cases understood
  · exact frame_request

theorem Request.decode_exact {r : Request} (held : Wire.Held r.sender.text) :
    Request.decode r.encode = .ok r ↔ r.sender.text ≠ "" := by
  rw [decode_encode r held,← frame_exact]
  cases r.frame.request with
  | error why => exact iff_of_false nofun nofun
  | ok other => simp only [Except.mapError,Except.ok.injEq]

-- Peers are only taken with a name, the process itself is taken with any.
theorem Settings.nameless {env : Environment} (found : ofEnvironment env = .ok (settings,records)) :
    (settings.me.text = "" ↔ env.nodeId = some "") ∧
      ∀ m ∈ settings.members, m.id.text = "" → m.id = settings.me := by
  obtain ⟨nodeId,host,port,peers⟩ := env
  unfold ofEnvironment at found
  cases given : portOf port with
  | error e =>
      rw [given] at found
      cases found
  | ok port =>
      rw [given] at found
      cases found
      constructor
      · cases nodeId with
        | none =>
            have named : "node1" ≠ "" := by decide
            exact iff_of_false named nofun
        | some name => simp
      · intro m present nameless
        rcases List.mem_cons.mp present with rfl | listed
        · rfl
        · exact absurd nameless (PeerList.members_representable listed).named

-- How a request fares of which only the sender matters.
structure Request.Fares (r : Request) (me : NodeId) : Prop where
  sender : r.sender = me
  understood : r.frame.request = .ok r ↔ me.text ≠ ""
  lost : me.text = "" → r.frame.request = .error r.lack
  decoded : Wire.Held me.text → (Request.decode r.encode = .ok r ↔ me.text ≠ "")

theorem Request.fares (r : Request) : r.Fares r.sender := ⟨rfl,r.frame_exact,frame_nameless,decode_exact⟩

theorem Node.run_fares {me : NodeId} {roster : Roster} (accepted : Roster.ofMembers me members = .ok roster) (timings : Timings)
    (start first : Nat) (deeds : List Deed) {d : Dispatch}
    (sent : d ∈ (((create start first roster timings).run deeds).apply now draw c).sends) : d.request.Fares me := by
  have own := (congrArg Roster.me (run_roster deeds (create start first roster timings))).trans
    (Roster.ofMembers_me accepted)
  have sender : d.request.sender = me := by
    rcases (apply_sends sent).2 with asks | beats
    · rw [asks.request]
      exact own
    · rw [beats.request]
      exact own
  rw [← sender]
  exact d.request.fares

-- Every request that an accepted member ever sends, and every one that a process sends with what it finds in its
-- environment.
theorem requests_understood (timings : Timings) (start first : Nat) (deeds : List Deed) (now draw : Nat) (c : Call) :
    (∀ me members roster, Roster.ofMembers me members = .ok roster →
      ∀ d ∈ (((Node.create start first roster timings).run deeds).apply now draw c).sends, d.request.Fares me) ∧
    ∀ env settings records roster, Settings.ofEnvironment env = .ok (settings,records) →
      Roster.ofMembers settings.me settings.members = .ok roster →
      (∀ m ∈ settings.members, m.id.text = "" → m.id = settings.me ∧ env.nodeId = some "") ∧
      ∀ d ∈ (((Node.create start first roster timings).run deeds).apply now draw c).sends,
        d.request.Fares settings.me ∧ (d.request.frame.request = .ok d.request ↔ env.nodeId ≠ some "") := by
  constructor
  · intro me members roster accepted d sent
    exact Node.run_fares accepted timings start first deeds sent
  · intro env settings records roster found accepted
    obtain ⟨own,others⟩ := Settings.nameless found
    constructor
    · intro m present nameless
      have same := others m present nameless
      exact ⟨same,own.mp (same ▸ nameless)⟩
    · intro d sent
      have fares := Node.run_fares accepted timings start first deeds sent
      exact ⟨fares,fares.understood.trans (not_congr own)⟩

-- A member without a name is accepted and stands for election, and its peer cannot tell who asks.
theorem nameless_not_understood :
    let members : List Member := [⟨⟨""⟩,⟨"a",100⟩⟩,⟨⟨"b"⟩,⟨"b",100⟩⟩]
    ∃ roster, Roster.ofMembers ⟨""⟩ members = .ok roster ∧
      ∃ d ∈ ((Node.create 0 5 roster ⟨1,⟨5,10⟩,1⟩).apply 5 5 .timeout).sends,
        d.peer.id = ⟨"b"⟩ ∧ Request.decode d.request.encode = .error (.incomprehensible (.missing "candidate_id")) := by
  intro members
  refine ⟨⟨⟨""⟩,⟨"a",100⟩,[⟨⟨"b"⟩,⟨"b",100⟩⟩]⟩,rfl,⟨⟨⟨"b"⟩,⟨"b",100⟩⟩,.vote ⟨.one,⟨""⟩⟩⟩,List.mem_singleton.mpr rfl,rfl,?_⟩
  exact Request.decode_encode (.vote ⟨.one,⟨""⟩⟩) (Nat.two_pow_pos 63)

-- The other way round it is understood.
theorem peer_of_nameless_understood :
    let members : List Member := [⟨⟨""⟩,⟨"a",100⟩⟩,⟨⟨"b"⟩,⟨"b",100⟩⟩]
    ∃ roster, Roster.ofMembers ⟨"b"⟩ members = .ok roster ∧
      ∃ d ∈ ((Node.create 0 5 roster ⟨1,⟨5,10⟩,1⟩).apply 5 5 .timeout).sends,
        d.peer.id = ⟨""⟩ ∧ Request.decode d.request.encode = .ok d.request := by
  intro members
  have accepted : Roster.ofMembers ⟨"b"⟩ members = .ok ⟨⟨"b"⟩,⟨"b",100⟩,[⟨⟨""⟩,⟨"a",100⟩⟩]⟩ := rfl
  have sent : ⟨⟨⟨""⟩,⟨"a",100⟩⟩,.vote ⟨.one,⟨"b"⟩⟩⟩ ∈ ((Node.create 0 5 ⟨⟨"b"⟩,⟨"b",100⟩,[⟨⟨""⟩,⟨"a",100⟩⟩]⟩
      ⟨1,⟨5,10⟩,1⟩).apply 5 5 .timeout).sends := List.mem_singleton.mpr rfl
  obtain ⟨fares,_⟩ := requests_understood ⟨1,⟨5,10⟩,1⟩ 0 5 [] 5 5 .timeout
  have short : "b".utf8ByteSize < 2^63 := by decide
  have named : "b" ≠ "" := by decide
  exact ⟨_,accepted,_,sent,rfl,((fares _ _ _ accepted _ sent).decoded short).mpr named⟩

end LeaderElection
