import LeaderElection.Proofs.Wire.Codec

namespace LeaderElection

namespace Wire

variable {depth : Nat} {closing : Option Nat} {bytes seen missing whole : List UInt8}

-- What has to be there behind the key of a number or a block.
structure Opens (key : Nat) (body : List UInt8) : Prop where
  number : key%8 = 0 → ∃ n rest, readVarint body = some (n,rest)
  block : key%8 = 2 → ∃ length contents, readVarint body = some (length,contents) ∧ length ≤ contents.length

theorem readFields_opens {got : List Field × List UInt8} (present : bytes ≠ [])
    (read : readFields depth closing bytes = some got) :
    ∃ key body, readVarint bytes = some (key,body) ∧ Opens key body := by
  revert read
  -- Something is read behind the key of a number, of a block and of what is neither. All other ways end in nothing.
  fun_cases readFields depth closing bytes with
  | case1 => contradiction
  | case9 _ key body keyed _ _ _ _ _ kind n rest numbered =>
      exact fun _ => ⟨key,body,keyed,fun _ => ⟨n,rest,numbered⟩,by omega⟩
  | case14 _ key body keyed _ _ _ _ _ kind length contents sized _ block rest taken =>
      exact fun _ => ⟨key,body,keyed,by omega,fun _ => ⟨length,contents,sized,takeBlock_room taken⟩⟩
  | case5 _ key body keyed | case11 _ key body keyed | case16 _ key body keyed | case19 _ key body keyed =>
      exact fun _ => ⟨key,body,keyed,by omega,by omega⟩
  | _ => nofun

-- Of a field that is not there to its end nothing is read, wherever it ends: what can be read of it reads
-- the same in the whole field, and leaves less.
theorem readFields_cut {f : Field} (fits : f.Fits) (whole : seen ++ missing = f.write) (present : seen ≠ [])
    (lacks : missing ≠ []) : readFields depth closing seen = none := by
  cases read : readFields depth closing seen with
  | none => rfl
  | some got =>
      exfalso
      obtain ⟨key,body,keyed,opens⟩ := readFields_opens present read
      have first := readVarint_append keyed missing
      rw [whole] at first
      obtain ⟨tag,payload⟩ := f
      obtain ⟨named,short,within⟩ := fits
      dsimp only at short within
      cases payload with
      | other => exact within
      | number n =>
          obtain ⟨rfl,behind⟩ := Prod.mk.inj (Option.some.inj (first.symm.trans (Field.key_number n short)))
          obtain ⟨m,rest,value⟩ := opens.number (by omega)
          have second := readVarint_append value missing
          have written := readVarint_write within []
          rw [List.append_nil,← behind,second] at written
          exact lacks (List.append_eq_nil_iff.mp (Prod.mk.inj (Option.some.inj written)).2).2
      | block bytes =>
          obtain ⟨rfl,behind⟩ := Prod.mk.inj (Option.some.inj (first.symm.trans (Field.key_block bytes short)))
          obtain ⟨length,contents,size,room⟩ := opens.block (by omega)
          have second := readVarint_append size missing
          rw [behind,readVarint_write within] at second
          obtain ⟨rfl,rfl⟩ := Prod.mk.inj (Option.some.inj second)
          have lost := List.length_pos_iff.mpr lacks
          rw [List.length_append] at room
          omega

-- The beginning of something that is written, without all of it.
structure Cut (seen whole : List UInt8) : Prop where
  begins : seen <+: whole
  short : seen ≠ whole

theorem Cut.parts (cut : Cut seen whole) : ∃ missing, missing ≠ [] ∧ seen ++ missing = whole := by
  obtain ⟨missing,rfl⟩ := cut.begins
  refine ⟨missing,?_,rfl⟩
  rintro rfl
  exact cut.short (List.append_nil seen).symm

-- Without a byte there is no body, which is a frame as well.
theorem readFrame_cut {α : Type} {take : Option α → Field → Option (Option α)} {field : α → Field}
    {frame : Option α} (fits : ∀ body ∈ frame, (field body).Fits)
    (cut : Cut seen (writeFields (frame.toList.map field))) :
    readFrame take seen = if seen = [] then some none else none := by
  split
  · next empty =>
      have read : readFrame take (writeFields []) = some none := readFrame_write take nofun
      exact empty ▸ read
  · next present =>
      obtain ⟨missing,lacks,whole⟩ := cut.parts
      cases frame with
      | none => exact absurd (List.append_eq_nil_iff.mp whole).1 present
      | some body =>
          rw [Option.toList_some,List.map_singleton,writeFields,List.flatMap_singleton] at whole
          rw [readFrame,readFields_cut (fits body rfl) whole present lacks]
          rfl

theorem RequestFrame.read_cut {frame : RequestFrame} (held : ∀ body ∈ frame, Held body.text)
    (cut : Cut seen frame.write) : read seen = if seen = [] then some none else none :=
  readFrame_cut (fun body present => field_fits (held body present)) cut

theorem ReplyFrame.read_cut {frame : ReplyFrame} (held : ∀ body ∈ frame, Held body.text)
    (cut : Cut seen frame.write) : read seen = if seen = [] then some none else none :=
  readFrame_cut (fun body present => field_fits (held body present)) cut

-- A frame of which no body is read before its end begins with no other frame that has a body.
theorem Faithful.apart {α : Type} {write : Option α → List UInt8} {read : List UInt8 → Option (Option α)}
    {held : Option α → Prop} {a b : Option α} (faithful : Faithful write read held) (heldA : held a) (heldB : held b)
    (lost : ∀ seen, Cut seen (write b) → read seen = if seen = [] then some none else none) (body : a ≠ none)
    (begins : write a <+: write b) : a = b := by
  by_cases same : write a = write b
  · exact faithful.distinct a b heldA heldB same
  · have read := faithful.unchanged a heldA
    rw [lost (write a) ⟨begins,same⟩] at read
    split at read
    · exact absurd (Option.some.inj read).symm body
    · cases read

end Wire

theorem Request.frame_injective : Function.Injective Request.frame := by
  rintro (⟨t,⟨s⟩⟩ | ⟨t,⟨s⟩⟩) (⟨t',⟨s'⟩⟩ | ⟨t',⟨s'⟩⟩) same <;> cases same <;> rfl

theorem Reply.frame_injective : Function.Injective Reply.frame := by
  rintro (⟨b,t⟩ | ⟨b,t⟩ | message) (⟨b',t'⟩ | ⟨b',t'⟩ | message') same <;> cases same <;> rfl

theorem Request.frame_present (r : Request) : r.frame ≠ none := by cases r <;> nofun

theorem Reply.frame_present (r : Reply) : r.frame ≠ none := by cases r <;> nofun

theorem Request.decode_cut {r : Request} (held : Wire.Held r.sender.text) (cut : Wire.Cut seen r.encode) :
    Request.decode seen = .error (if seen = [] then .incomprehensible .unknownType else .malformed) := by
  rw [decode,Wire.RequestFrame.read_cut (frame_held held) cut]
  by_cases empty : seen = []
  · rw [if_pos empty,if_pos empty]
    rfl
  · rw [if_neg empty,if_neg empty]

theorem Reply.decode_cut {r : Reply} (held : ∀ message ∈ r.message?, Wire.Held message) (cut : Wire.Cut seen r.encode) :
    Reply.decode seen = .error (if seen = [] then .incomprehensible .unknownType else .malformed) := by
  rw [decode,Wire.ReplyFrame.read_cut (frame_held held) cut]
  by_cases empty : seen = []
  · rw [if_pos empty,if_pos empty]
    rfl
  · rw [if_neg empty,if_neg empty]

theorem Request.encode_apart {a b : Request} (heldA : Wire.Held a.sender.text) (heldB : Wire.Held b.sender.text)
    (begins : a.encode <+: b.encode) : a = b := by
  refine frame_injective (Wire.RequestFrame.faithful.apart (frame_held heldA) (frame_held heldB) ?_ a.frame_present begins)
  exact fun _ => Wire.RequestFrame.read_cut (frame_held heldB)

theorem Reply.encode_apart {a b : Reply} (heldA : ∀ message ∈ a.message?, Wire.Held message)
    (heldB : ∀ message ∈ b.message?, Wire.Held message) (begins : a.encode <+: b.encode) : a = b := by
  refine frame_injective (Wire.ReplyFrame.faithful.apart (frame_held heldA) (frame_held heldB) ?_ a.frame_present begins)
  exact fun _ => Wire.ReplyFrame.read_cut (frame_held heldB)

-- Wherever a message is cut, its receiver knows that something is missing, so no message begins with another.
theorem truncated_never_taken :
    (∀ (r : Request) seen, Wire.Held r.sender.text → Wire.Cut seen r.encode →
      Request.decode seen = .error (if seen = [] then .incomprehensible .unknownType else .malformed)) ∧
    (∀ (r : Reply) seen, (∀ message ∈ r.message?, Wire.Held message) → Wire.Cut seen r.encode →
      Reply.decode seen = .error (if seen = [] then .incomprehensible .unknownType else .malformed)) ∧
    (∀ a b : Request, Wire.Held a.sender.text → Wire.Held b.sender.text → a.encode <+: b.encode → a = b) ∧
    (∀ a b : Reply, (∀ message ∈ a.message?, Wire.Held message) → (∀ message ∈ b.message?, Wire.Held message) →
      a.encode <+: b.encode → a = b) :=
  ⟨fun _ _ => Request.decode_cut,fun _ _ => Reply.decode_cut,fun _ _ => Request.encode_apart,
    fun _ _ => Reply.encode_apart⟩

-- A vote request of which nothing is there, or all up to the middle of its term, an error that ends behind its key,
-- and two verdicts of which one says nothing but that it is one.
theorem broken_messages_refused :
    let r : Request := .vote ⟨⟨300,by decide⟩,⟨"ä"⟩⟩
    let yes : Reply := .vote ⟨true,⟨1,by decide⟩⟩
    let no : Reply := .vote ⟨false,.zero⟩
    Wire.Held "ä" ∧ Wire.Cut [] r.encode ∧ Request.decode [] = .error (.incomprehensible .unknownType) ∧
    Wire.Cut [10,7,8,172] r.encode ∧ Request.decode [10,7,8,172] = .error .malformed ∧
    Wire.Cut [26] (Reply.error "").encode ∧ Reply.decode [26] = .error .malformed ∧
    ¬ no.encode <+: yes.encode ∧ ¬ r.encode <+: (Request.heartbeat ⟨.zero,⟨""⟩⟩).encode := by
  intro r yes no
  have held : Wire.Held "ä" := (by decide : "ä".utf8ByteSize < 2^63)
  have nothing : Wire.Held "" := Nat.two_pow_pos 63
  have written : r.encode = [10,7,8,172,2,18,2,195,164] := by decide +kernel
  have blank : (Reply.error "").encode = [26,0] := by decide +kernel
  have empty : Wire.Cut [] r.encode := by
    rw [written]
    exact ⟨by decide,by decide⟩
  have cut : Wire.Cut [10,7,8,172] r.encode := by
    rw [written]
    exact ⟨by decide,by decide⟩
  have short : Wire.Cut [26] (Reply.error "").encode := by
    rw [blank]
    exact ⟨by decide,by decide⟩
  obtain ⟨request,reply,requests,replies⟩ := truncated_never_taken
  refine ⟨held,empty,request r _ held empty,cut,request r _ held cut,short,reply _ _ ?_ short,?_,?_⟩
  · rintro _ ⟨⟩
    exact nothing
  · intro begins
    exact absurd (replies no yes nofun nofun begins) (by decide)
  · intro begins
    exact absurd (requests r (.heartbeat ⟨.zero,⟨""⟩⟩) held nothing begins) (by decide)

end LeaderElection
