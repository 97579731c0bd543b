import LeaderElection.Proofs.Text
import LeaderElection.Settings

namespace LeaderElection

-- A member that a list of peers can name.
structure Member.Representable (m : Member) : Prop where
  named : m.id.text ≠ ""
  host : m.address.host = m.id.text
  whole : ',' ∉ m.id.text.toList ∧ ':' ∉ m.id.text.toList
  first : ∀ c ∈ m.id.text.toList.head?, Text.isBlank c = false

namespace PeerList

open Text

-- What may stand between two commas: a peer with blanks around it, or blanks only.
inductive Piece where
  | peer (left : List Char) (m : Member) (right : List Char)
  | blank (chars : List Char)

namespace Piece

def text : Piece → List Char
  | .peer left m right => left ++ m.address.text.toList ++ right
  | .blank chars => chars

def member? : Piece → Option Member
  | .peer _ m _ => some m
  | .blank _ => none

inductive Proper : Piece → Prop where
  | peer (before : ∀ c ∈ left, isBlank c = true) (representable : m.Representable)
      (behind : ∀ c ∈ right, isBlank c = true) : Proper (.peer left m right)
  | blank (blank : ∀ c ∈ chars, isBlank c = true) : Proper (.blank chars)

end Piece

def join (entries : List (List Char)) : List Char := List.intercalate [','] entries

def render (members : List Member) : List Char := join (members.map fun m => m.address.text.toList)

variable {token s left right : List Char} {m : Member} {p : Piece}

theorem address_text (a : Address) : a.text.toList = a.host.toList ++ ':' :: (toString a.port.toNat).toList := by
  simp [Address.text]

theorem cut_colon {name : List Char} (whole : ':' ∉ name) (digits : List Char) :
    (name ++ ':' :: digits).takeWhile (· != ':') = name ∧
      (name ++ ':' :: digits).dropWhile (· != ':') = ':' :: digits := by
  have plain : ∀ c ∈ name, (c != ':') = true := by
    intro c present
    refine bne_iff_ne.mpr ?_
    rintro rfl
    exact whole present
  rw [List.takeWhile_append_of_pos plain,List.dropWhile_append_of_pos plain]
  simp

-- What is in front of the first colon is the name, and a number has to be behind it.
theorem readEntry_peer : readEntry token = .peer m ↔ ∃ name digits, token = name ++ ':' :: digits ∧ ':' ∉ name ∧
    name ≠ [] ∧ m = ⟨⟨String.ofList name⟩,⟨String.ofList name,m.address.port⟩⟩ ∧
    readNumber digits = .ok m.address.port := by
  unfold readEntry
  dsimp only
  constructor
  · intro read
    have whole := List.takeWhile_append_dropWhile (p := (· != ':')) (l := token)
    have colon := List.head?_dropWhile_not (· != ':') token
    split at read
    · cases read
    · next mark digits rest =>
        rw [rest] at whole colon
        have same : mark = ':' := by simpa using colon
        split at read
        · cases read
        · next port number =>
            split at read
            · cases read
            · next some =>
                cases read
                refine ⟨_,digits,same ▸ whole.symm,?_,some,rfl,number⟩
                intro present
                simpa using List.mem_takeWhile_imp present
  · rintro ⟨name,digits,rfl,whole,some,same,number⟩
    obtain ⟨front,rest⟩ := cut_colon whole digits
    rw [front,rest]
    dsimp only
    rw [number]
    dsimp only
    rw [if_neg some,← same]

theorem readEntry_total (token : List Char) : (∃ m, readEntry token = .peer m) ∨ readEntry token = .malformed token := by
  unfold readEntry
  dsimp only
  split
  · exact .inr rfl
  · split
    · exact .inr rfl
    · split
      · exact .inr rfl
      · exact .inl ⟨_,rfl⟩

theorem readEntry_written (representable : m.Representable) : readEntry m.address.text.toList = .peer m := by
  obtain ⟨⟨name⟩,host,port⟩ := m
  obtain ⟨named,same,whole,_⟩ := representable
  cases same
  refine readEntry_peer.mpr ⟨name.toList,_,address_text _,whole.2,?_,?_,readNumber_numeral port⟩
  · exact fun none => named (String.toList_eq_nil_iff.mp none)
  · rw [String.ofList_toList]

-- A peer that is written out is one entry, and no blanks belong to it.
theorem written_free (representable : m.Representable) : ',' ∉ m.address.text.toList := by
  rw [address_text,representable.host]
  intro present
  rcases List.mem_append.mp present with inName | behind
  · exact representable.whole.1 inName
  · rcases List.mem_cons.mp behind with colon | inPort
    · exact absurd colon (by decide)
    · exact absurd (numeral_digits _ _ inPort) (by decide)

theorem written_trimmed (representable : m.Representable) (before : ∀ c ∈ left, isBlank c = true)
    (behind : ∀ c ∈ right, isBlank c = true) : trim (left ++ m.address.text.toList ++ right) = m.address.text.toList := by
  have numeral := numeral_nonempty m.address.port.toNat
  refine trim_around before behind ?_ ?_
  · rw [address_text,representable.host]
    have name : m.id.text.toList ≠ [] := fun none => representable.named (String.toList_eq_nil_iff.mp none)
    rw [List.head?_append_of_ne_nil _ name]
    exact representable.first
  · intro c ends
    rw [address_text,List.getLast?_append_of_ne_nil _ (List.cons_ne_nil _ _),
      List.getLast?_cons_of_ne_nil numeral] at ends
    exact digit_solid (numeral_digits _ c (List.mem_of_getLast? ends))

theorem pieces_trimmed {pieces : List Piece} (proper : ∀ p ∈ pieces, p.Proper) :
    ((pieces.map Piece.text).map trim).filter (· ≠ []) =
      (pieces.filterMap Piece.member?).map fun m => m.address.text.toList := by
  induction pieces with
  | nil => rfl
  | cons p rest ih =>
      have later := ih fun q present => proper q (List.mem_cons_of_mem _ present)
      cases proper p List.mem_cons_self with
      | @peer left right m before representable behind =>
          have some : m.address.text.toList ≠ [] := by simp [address_text]
          have trimmed : trim (Piece.text (.peer left m right)) = m.address.text.toList :=
            written_trimmed representable before behind
          simp only [List.map_cons,trimmed]
          rw [List.filter_cons_of_pos (by simpa using some),later]
          rfl
      | @blank chars blank =>
          have trimmed : trim (Piece.text (.blank chars)) = [] := trim_blank.mpr blank
          simp only [List.map_cons,trimmed]
          rw [List.filter_cons_of_neg (by simp),later]
          rfl

theorem piece_free (proper : p.Proper) : ',' ∉ p.text := by
  have solid : ¬ isBlank ',' = true := by decide
  cases proper with
  | peer before representable behind =>
      intro present
      rcases List.mem_append.mp present with front | after
      · rcases List.mem_append.mp front with left | inside
        · exact solid (before _ left)
        · exact written_free representable inside
      · exact solid (behind _ after)
  | blank blank => exact fun present => solid (blank _ present)

theorem read_join {pieces : List Piece} (proper : ∀ p ∈ pieces, p.Proper) :
    read (join (pieces.map Piece.text)) = (pieces.filterMap Piece.member?).map Entry.peer := by
  have parts : tokens (join (pieces.map Piece.text)) =
      (pieces.filterMap Piece.member?).map fun m => m.address.text.toList := by
    rw [← pieces_trimmed proper]
    cases pieces with
    | nil => rfl
    | cons p rest =>
        have free : ∀ part ∈ (p :: rest).map Piece.text, ',' ∉ part := by
          intro part present
          obtain ⟨q,listed,rfl⟩ := List.mem_map.mp present
          exact piece_free (proper q listed)
        have some : (p :: rest).map Piece.text ≠ [] := List.cons_ne_nil _ _
        rw [tokens,join,separate_joined some free]
  rw [read,parts,List.map_map]
  refine List.map_congr_left ?_
  intro m present
  obtain ⟨p,listed,same⟩ := List.mem_filterMap.mp present
  cases proper p listed with
  | peer _ representable _ =>
      cases same
      exact readEntry_written representable
  | blank _ => cases same

theorem peers_alone (ms : List Member) :
    (ms.map Entry.peer).filterMap Entry.member? = ms ∧ (ms.map Entry.peer).filterMap Entry.warning? = [] := by
  induction ms with
  | nil => exact ⟨rfl,rfl⟩
  | cons m rest ih => exact ⟨congrArg (m :: ·) ih.1,ih.2⟩

theorem tokens_append (s u : List Char) : tokens (s ++ ',' :: u) = tokens s ++ tokens u := by
  rw [tokens,separate_append,List.map_append,List.filter_append]
  rfl

theorem read_append (s u : List Char) : read (s ++ ',' :: u) = read s ++ read u := by
  rw [read,tokens_append,List.map_append]
  rfl

theorem token_parts (present : token ∈ tokens s) :
    token ≠ [] ∧ ',' ∉ token ∧ ∀ c ∈ token.head?, isBlank c = false := by
  obtain ⟨trimmed,some⟩ := List.mem_filter.mp present
  obtain ⟨part,separated,rfl⟩ := List.mem_map.mp trimmed
  exact ⟨of_decide_eq_true some,fun inside => separate_free separated (trim_subset part inside),trim_first part⟩

theorem members_representable (present : m ∈ members s) : m.Representable := by
  obtain ⟨entry,read,same⟩ := List.mem_filterMap.mp present
  obtain ⟨token,listed,rfl⟩ := List.mem_map.mp read
  obtain ⟨_,whole,first⟩ := token_parts listed
  rcases readEntry_total token with ⟨other,found⟩ | skipped
  · rw [found] at same
    cases same
    obtain ⟨name,digits,rfl,plain,some,same,_⟩ := readEntry_peer.mp found
    rw [List.head?_append_of_ne_nil _ some] at first
    rw [same]
    refine ⟨?_,rfl,⟨?_,?_⟩,?_⟩
    · exact fun none => some (String.ofList_eq_empty_iff.mp none)
    · rw [String.toList_ofList]
      exact fun inside => whole (List.mem_append_left _ inside)
    · rwa [String.toList_ofList]
    · rwa [String.toList_ofList]
  · rw [skipped] at same
    cases same

theorem entries_split (es : List Entry) :
    (es.filterMap Entry.member?).length + (es.filterMap Entry.warning?).length = es.length := by
  induction es with
  | nil => rfl
  | cons e rest ih =>
      cases e with
      | peer m =>
          change (rest.filterMap Entry.member?).length + 1 + _ = _
          rw [List.length_cons,← ih,Nat.add_right_comm]
          rfl
      | malformed token =>
          change _ + ((rest.filterMap Entry.warning?).length + 1) = _
          rw [List.length_cons,← ih,Nat.add_assoc]
          rfl

theorem trim_solid (s : List Char) : decide (trim s ≠ []) = s.any fun c => !isBlank c := by
  rw [Bool.eq_iff_iff,decide_eq_true_eq,ne_eq,trim_blank]
  simp

theorem tokens_length (s : List Char) :
    (tokens s).length = (separate ',' s).countP fun e => e.any fun c => !isBlank c := by
  rw [tokens,← List.countP_eq_length_filter,List.countP_map]
  congr 1
  funext e
  exact trim_solid e

theorem render_pieces (ms : List Member) : render ms = join ((ms.map fun m => Piece.peer [] m []).map Piece.text) := by
  rw [render,List.map_map]
  congr 2
  funext m
  simp [Piece.text]

-- A list of peers is read as it was written, with whatever blanks. What is read can be written again, and each entry
-- counts for itself.
theorem peers_read_back :
    (∀ pieces : List Piece, (∀ p ∈ pieces, p.Proper) →
      members (join (pieces.map Piece.text)) = pieces.filterMap Piece.member? ∧
      warnings (join (pieces.map Piece.text)) = []) ∧
    (∀ s, (∀ m ∈ members s, m.Representable) ∧
      members (render (members s)) = members s ∧ warnings (render (members s)) = []) ∧
    (∀ s u, members (s ++ ',' :: u) = members s ++ members u ∧ warnings (s ++ ',' :: u) = warnings s ++ warnings u) ∧
    ∀ s, (members s).length + (warnings s).length = (separate ',' s).countP fun e => e.any fun c => !isBlank c := by
  have joined {pieces : List Piece} (proper : ∀ p ∈ pieces, p.Proper) :
      members (join (pieces.map Piece.text)) = pieces.filterMap Piece.member? ∧
      warnings (join (pieces.map Piece.text)) = [] := by
    rw [members,warnings,read_join proper]
    exact peers_alone _
  refine ⟨fun pieces => joined,?_,?_,?_⟩
  · intro s
    have representable : ∀ m ∈ members s, m.Representable := fun m present => members_representable present
    have proper : ∀ p ∈ (members s).map fun m => Piece.peer [] m [], p.Proper := by
      intro p present
      obtain ⟨m,listed,rfl⟩ := List.mem_map.mp present
      exact .peer nofun (representable m listed) nofun
    obtain ⟨same,silent⟩ := joined proper
    rw [render_pieces]
    refine ⟨representable,same.trans ?_,silent⟩
    rw [List.filterMap_map]
    exact List.filterMap_some
  · intro s u
    rw [members,warnings,read_append,List.filterMap_append,List.filterMap_append]
    exact ⟨rfl,rfl⟩
  · intro s
    rw [← tokens_length,members,warnings,entries_split,read,List.length_map]

def spaced : List Piece :=
  [.blank [' '],.peer ['\u3000'] ⟨⟨"node 1 "⟩,⟨"node 1 ",65535⟩⟩ ['\t'],.blank [],.peer [] ⟨⟨"+7"⟩,⟨"+7",0⟩⟩ []]

-- The blank behind a name is part of it, the one in front is not.
theorem spaced_read : join (spaced.map Piece.text) = " ,\u3000node 1 :65535\t,,+7:0".toList ∧
    members (join (spaced.map Piece.text)) = [⟨⟨"node 1 "⟩,⟨"node 1 ",65535⟩⟩,⟨⟨"+7"⟩,⟨"+7",0⟩⟩] ∧
    warnings (join (spaced.map Piece.text)) = [] := by
  have proper : ∀ p ∈ spaced, p.Proper := by
    simp only [spaced,List.forall_mem_cons]
    have around (c : Char) (blank : isBlank c = true) : ∀ d ∈ [c], isBlank d = true := List.forall_mem_singleton.mpr blank
    refine ⟨.blank (around ' ' rfl),.peer (around _ rfl) ⟨by decide,rfl,by decide,?_⟩ (around _ rfl),.blank nofun,
      .peer nofun ⟨by decide,rfl,by decide,?_⟩ nofun,nofun⟩
    · rintro c ⟨⟩
      rfl
    · rintro c ⟨⟩
      rfl
  exact ⟨by decide,peers_read_back.1 spaced proper⟩

end PeerList
end LeaderElection
