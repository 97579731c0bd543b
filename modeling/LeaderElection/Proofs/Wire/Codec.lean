import LeaderElection.Proofs.Wire.Field
import LeaderElection.Wire.Codec

namespace LeaderElection

namespace Wire

theorem readText_write (s : String) : readText (writeText s) = some s := by
  have same : ByteArray.mk (writeText s).toArray = s.toByteArray := congrArg ByteArray.mk (Array.toArray_toList ..)
  rw [readText,same,String.fromUTF8?,dif_pos s.isValidUTF8]
  rfl

-- A text is read from no other bytes than its own.
theorem readText_parts (read : readText bytes = some s) : bytes.length = s.utf8ByteSize := by
  simp only [readText,String.fromUTF8?] at read
  split at read
  · cases read
    rfl
  · cases read

theorem ofNat_number (t : Term) : Term.ofNat? t.number = some t := dif_pos t.bounded

-- No text that is held in memory is longer.
def Held (s : String) : Prop := s.utf8ByteSize < 2^63

-- Fields that are read as they are written, and are no longer than `limit` bytes together.
structure Compact (limit : Nat) (fields : List Field) : Prop where
  fits : ∀ f ∈ fields, f.Fits
  short : (writeFields fields).length ≤ limit

theorem Compact.none (limit : Nat) : Compact limit [] := ⟨nofun,Nat.zero_le _⟩

theorem Compact.append (early : Compact a xs) (late : Compact b ys) : Compact (a+b) (xs ++ ys) := by
  refine ⟨?_,?_⟩
  · intro f present
    exact (List.mem_append.mp present).elim (early.fits f) (late.fits f)
  · rw [writeFields,List.flatMap_append,List.length_append]
    exact Nat.add_le_add early.short late.short

theorem Compact.number (named : tag ≠ 0) (short : tag*8+7 < UInt32.size) (bounded : n < UInt64.size) :
    Compact 20 [⟨tag,.number n⟩] := by
  have room : UInt32.size < UInt64.size := by decide
  refine ⟨fun f present => List.mem_singleton.mp present ▸ ⟨named,short,bounded⟩,?_⟩
  have key := writeVarint_length (n := tag*8) (by omega)
  have value := writeVarint_length bounded
  simp only [writeFields,List.flatMap_singleton,Field.write,writeKey,List.length_append]
  exact Nat.add_le_add key value

theorem Compact.block {bytes : List UInt8} (named : tag ≠ 0) (short : tag*8+7 < UInt32.size)
    (bounded : bytes.length < UInt64.size) : Compact (20+bytes.length) [⟨tag,.block bytes⟩] := by
  have room : UInt32.size < UInt64.size := by decide
  refine ⟨fun f present => List.mem_singleton.mp present ▸ ⟨named,short,bounded⟩,?_⟩
  have key := writeVarint_length (n := tag*8+2) (by omega)
  have size := writeVarint_length bounded
  simp only [writeFields,List.flatMap_singleton,Field.write,writeKey,List.length_append]
  exact Nat.add_le_add_right (Nat.add_le_add key size) _

theorem termField_compact (named : tag ≠ 0) (short : tag*8+7 < UInt32.size) (t : Term) :
    Compact 20 (termField tag t) := by
  unfold termField
  split
  · exact .none _
  · exact .number named short t.bounded

theorem textField_compact (named : tag ≠ 0) (short : tag*8+7 < UInt32.size) (held : Held s) :
    Compact (20+s.utf8ByteSize) (textField tag s) := by
  unfold textField
  split
  · exact .none _
  · exact .block named short (Nat.lt_trans held (by decide))

theorem flagField_compact (named : tag ≠ 0) (short : tag*8+7 < UInt32.size) (b : Bool) :
    Compact 20 (flagField tag b) := by
  unfold flagField
  split
  · exact .number named short (by decide)
  · exact .none _

-- What a message says is what its fields say, laid over a blank one.
theorem Claim.take_fields (c : Claim) : c.fields.foldlM take blank = some c := by
  obtain ⟨t,s⟩ := c
  by_cases first : t = .zero <;> by_cases empty : s = "" <;>
    simp [fields,termField,textField,first,empty,take,Payload.term?,Payload.text?,ofNat_number,readText_write,blank]

theorem Verdict.take_fields (v : Verdict) : v.fields.foldlM take blank = some v := by
  obtain ⟨b,t⟩ := v
  by_cases first : t = .zero <;> cases b <;>
    simp [fields,flagField,termField,first,take,Payload.flag?,Payload.term?,ofNat_number,blank]

theorem takeMessage_fields (message : String) : (textField 1 message).foldlM takeMessage "" = some message := by
  by_cases empty : message = "" <;> simp [textField,empty,takeMessage,Payload.text?,readText_write]

theorem Claim.compact {c : Claim} (held : Held c.sender) : Compact (20+(20+c.sender.utf8ByteSize)) c.fields :=
  (termField_compact (by decide) (by decide) c.term).append (textField_compact (by decide) (by decide) held)

theorem Verdict.compact (v : Verdict) : Compact (20+20) v.fields :=
  (flagField_compact (by decide) (by decide) v.agreed).append (termField_compact (by decide) (by decide) v.term)

section

variable {α : Type}

theorem readInto_write {fields : List Field} (take : α → Field → Option α) (start : α) (fits : ∀ f ∈ fields, f.Fits) :
    readInto take start (.block (writeFields fields)) = fields.foldlM take start := by
  simp only [readInto,readFields_writeFields fits (show nesting-1 ≠ 0 by decide),Option.bind_eq_bind,Option.bind_some]

theorem readFrame_write {fields : List Field} (take : Option α → Field → Option (Option α))
    (fits : ∀ f ∈ fields, f.Fits) : readFrame take (writeFields fields) = fields.foldlM take none := by
  simp only [readFrame,readFields_writeFields fits (show nesting ≠ 0 by decide),Option.bind_eq_bind,Option.bind_some]

-- A frame is one field, or none.
theorem readFrame_frame {take : Option α → Field → Option (Option α)} {field : α → Field} {frame : Option α}
    (fits : ∀ body ∈ frame, (field body).Fits) (taken : ∀ body ∈ frame, take none (field body) = some (some body)) :
    readFrame take (writeFields (frame.toList.map field)) = some frame := by
  cases frame with
  | none => exact readFrame_write take nofun
  | some body =>
      have fits : ∀ f ∈ [field body], f.Fits := fun f present => List.mem_singleton.mp present ▸ fits body rfl
      rw [Option.toList_some,List.map_singleton,readFrame_write take fits,List.foldlM_cons,taken body rfl]
      rfl

end

-- The text a body carries, if it carries one.
def RequestBody.text : RequestBody → String
  | .vote c => c.sender
  | .heartbeat c => c.sender

def ReplyBody.text : ReplyBody → String
  | .error message => message
  | _ => ""

theorem block_fits (named : tag ≠ 0) (short : tag*8+7 < UInt32.size) (compact : Compact limit fields)
    (bounded : limit < UInt64.size) : Field.Fits ⟨tag,.block (writeFields fields)⟩ :=
  ⟨named,short,Nat.lt_of_le_of_lt compact.short bounded⟩

theorem Held.bounded (held : Held s) : 20+(20+s.utf8ByteSize) < UInt64.size := by
  have room : 2^63+40 < UInt64.size := by decide
  unfold Held at held
  omega

namespace RequestFrame

theorem field_fits {body : RequestBody} (held : Held body.text) : (field body).Fits := by
  cases body with
  | vote c => exact block_fits (by decide) (by decide) (Claim.compact held) held.bounded
  | heartbeat c => exact block_fits (by decide) (by decide) (Claim.compact held) held.bounded

theorem take_field {body : RequestBody} (held : Held body.text) : take none (field body) = some (some body) := by
  cases body with
  | vote c => simp [take,field,readInto_write Claim.take .blank (Claim.compact held).fits,Claim.take_fields]
  | heartbeat c => simp [take,field,readInto_write Claim.take .blank (Claim.compact held).fits,Claim.take_fields]

theorem read_write {frame : RequestFrame} (held : ∀ body ∈ frame, Held body.text) : read frame.write = some frame :=
  readFrame_frame (fun body present => field_fits (held body present)) fun body present =>
    take_field (held body present)

end RequestFrame

namespace ReplyFrame

theorem field_fits {body : ReplyBody} (held : Held body.text) : (field body).Fits := by
  cases body with
  | vote v => exact block_fits (by decide) (by decide) v.compact (by decide)
  | heartbeat v => exact block_fits (by decide) (by decide) v.compact (by decide)
  | error message =>
      refine block_fits (by decide) (by decide) (textField_compact (by decide) (by decide) held) ?_
      exact Nat.lt_of_le_of_lt (Nat.le_add_left ..) held.bounded

theorem take_field {body : ReplyBody} (held : Held body.text) : take none (field body) = some (some body) := by
  cases body with
  | vote v => simp [take,field,readInto_write Verdict.take .blank v.compact.fits,Verdict.take_fields]
  | heartbeat v => simp [take,field,readInto_write Verdict.take .blank v.compact.fits,Verdict.take_fields]
  | error message =>
      have held : Held message := held
      have compact := textField_compact (show 1 ≠ 0 by decide) (by decide) held
      simp [take,field,readInto_write takeMessage "" compact.fits,takeMessage_fields]

theorem read_write {frame : ReplyFrame} (held : ∀ body ∈ frame, Held body.text) : read frame.write = some frame :=
  readFrame_frame (fun body present => field_fits (held body present)) fun body present =>
    take_field (held body present)

end ReplyFrame

-- What comes of reading is made of nothing longer than the bytes.
section

variable {α : Type} {P : α → Prop}

theorem foldlM_keeps {step : α → Field → Option α} {fields : List Field}
    (keeps : ∀ a f a', f ∈ fields → P a → step a f = some a' → P a') (start : P a)
    (done : fields.foldlM step a = some a') : P a' := by
  induction fields generalizing a with
  | nil => cases done; exact start
  | cons f rest ih =>
      rw [List.foldlM_cons] at done
      obtain ⟨next,step,later⟩ := Option.bind_eq_some_iff.mp done
      refine ih ?_ (keeps a f next List.mem_cons_self start step) later
      intro a g a' present
      exact keeps a g a' (List.mem_cons_of_mem f present)

theorem readInto_keeps {take : α → Field → Option α} {p : Payload} {size : Nat}
    (keeps : ∀ a f a', f.Within size → P a → take a f = some a' → P a')
    (within : ∀ block, p = .block block → block.length ≤ size) (start : P a) (read : readInto take a p = some a') :
    P a' := by
  cases p with
  | block bytes =>
      obtain ⟨⟨fields,rest⟩,got,done⟩ := Option.bind_eq_some_iff.mp read
      refine foldlM_keeps ?_ start done
      intro a f a' present
      exact keeps a f a' ((readFields_within got f present).mono (within bytes rfl))
  | number n => cases read
  | other => cases read

theorem readFrame_keeps {take : Option α → Field → Option (Option α)} {P : Option α → Prop}
    (keeps : ∀ a f a', f.Within bytes.length → P a → take a f = some a' → P a') (start : P none)
    (read : readFrame take bytes = some frame) : P frame := by
  obtain ⟨⟨fields,rest⟩,got,done⟩ := Option.bind_eq_some_iff.mp read
  refine foldlM_keeps ?_ start done
  intro a f a' present
  exact keeps a f a' (readFields_within got f present)

end

theorem Payload.text_within {f : Field} (within : f.Within size) (read : f.payload.text? = some s) :
    s.utf8ByteSize ≤ size := by
  cases payload : f.payload with
  | block bytes =>
      rw [payload] at read
      rw [← readText_parts read]
      exact within bytes payload
  | number n => rw [payload] at read; cases read
  | other => rw [payload] at read; cases read

theorem Claim.take_within {c c' : Claim} {f : Field} (within : f.Within size) (before : c.sender.utf8ByteSize ≤ size)
    (taken : c.take f = some c') : c'.sender.utf8ByteSize ≤ size := by
  unfold take at taken
  split at taken
  · obtain ⟨t,_,rfl⟩ := Option.map_eq_some_iff.mp taken
    exact before
  · split at taken
    · obtain ⟨s,read,rfl⟩ := Option.map_eq_some_iff.mp taken
      exact Payload.text_within within read
    · cases taken
      exact before

theorem Claim.readInto_within {c c' : Claim} {f : Field} (within : f.Within size)
    (before : c.sender.utf8ByteSize ≤ size)
    (read : readInto take c f.payload = some c') : c'.sender.utf8ByteSize ≤ size :=
  readInto_keeps (P := fun c => c.sender.utf8ByteSize ≤ size) (fun _ _ _ => take_within) within before read

theorem takeMessage_within {message message' : String} {f : Field} (within : f.Within size)
    (before : message.utf8ByteSize ≤ size) (taken : takeMessage message f = some message') :
    message'.utf8ByteSize ≤ size := by
  unfold takeMessage at taken
  split at taken
  · exact Payload.text_within within taken
  · cases taken
    exact before

theorem RequestFrame.read_within {frame : RequestFrame} (read : read bytes = some frame) :
    ∀ body ∈ frame, body.text.utf8ByteSize ≤ bytes.length := by
  refine readFrame_keeps (P := fun frame => ∀ body ∈ frame, body.text.utf8ByteSize ≤ bytes.length) ?_ nofun read
  intro before f after within short taken
  unfold take at taken
  split at taken
  · obtain ⟨c,into,rfl⟩ := Option.map_eq_some_iff.mp taken
    rintro _ ⟨⟩
    refine Claim.readInto_within within ?_ into
    split
    · exact short _ rfl
    · exact Nat.zero_le _
  · split at taken
    · obtain ⟨c,into,rfl⟩ := Option.map_eq_some_iff.mp taken
      rintro _ ⟨⟩
      refine Claim.readInto_within within ?_ into
      split
      · exact short _ rfl
      · exact Nat.zero_le _
    · cases taken
      exact short

theorem ReplyFrame.read_within {frame : ReplyFrame} (read : read bytes = some frame) :
    ∀ body ∈ frame, body.text.utf8ByteSize ≤ bytes.length := by
  refine readFrame_keeps (P := fun frame => ∀ body ∈ frame, body.text.utf8ByteSize ≤ bytes.length) ?_ nofun read
  intro before f after within short taken
  unfold take at taken
  split at taken
  · obtain ⟨v,_,rfl⟩ := Option.map_eq_some_iff.mp taken
    rintro _ ⟨⟩
    exact Nat.zero_le _
  · split at taken
    · obtain ⟨v,_,rfl⟩ := Option.map_eq_some_iff.mp taken
      rintro _ ⟨⟩
      exact Nat.zero_le _
    · split at taken
      · obtain ⟨message,into,rfl⟩ := Option.map_eq_some_iff.mp taken
        rintro _ ⟨⟩
        refine readInto_keeps (P := fun m => m.utf8ByteSize ≤ bytes.length) (fun _ _ _ => takeMessage_within) within
          ?_ into
        split
        · exact short _ rfl
        · exact Nat.zero_le _
      · cases taken
        exact short

-- A way to write messages that are held in memory, and to read them. What was written otherwise is
-- written the usual way once it has been read.
structure Faithful {α : Type} (write : α → List UInt8) (read : List UInt8 → Option α) (held : α → Prop) : Prop where
  unchanged : ∀ m, held m → read (write m) = some m
  distinct : ∀ a b, held a → held b → write a = write b → a = b
  settled : ∀ bytes m, bytes.length < 2^63 → read bytes = some m →
    read (write m) = some m ∧ (read (write m)).map write = some (write m)

theorem Faithful.of {α : Type} {write : α → List UInt8} {read : List UInt8 → Option α} {held : α → Prop}
    (unchanged : ∀ m, held m → read (write m) = some m)
    (bounded : ∀ bytes m, bytes.length < 2^63 → read bytes = some m → held m) : Faithful write read held := by
  refine ⟨unchanged,?_,?_⟩
  · intro a b heldA heldB same
    have read := unchanged a heldA
    rw [same,unchanged b heldB] at read
    exact (Option.some.inj read).symm
  · intro bytes m short got
    have again := unchanged m (bounded bytes m short got)
    exact ⟨again,by rw [again,Option.map_some]⟩

theorem RequestFrame.faithful : Faithful write read fun frame => ∀ body ∈ frame, Held body.text :=
  .of (fun _ => read_write) fun _ _ short got body present => Nat.lt_of_le_of_lt (read_within got body present) short

theorem ReplyFrame.faithful : Faithful write read fun frame => ∀ body ∈ frame, Held body.text :=
  .of (fun _ => read_write) fun _ _ short got body present => Nat.lt_of_le_of_lt (read_within got body present) short

end Wire

def Reply.message? : Reply → Option String
  | .error message => some message
  | _ => none

theorem Request.frame_held {r : Request} (held : Wire.Held r.sender.text) : ∀ body ∈ r.frame, Wire.Held body.text := by
  cases r with
  | vote r => rintro _ ⟨⟩; exact held
  | heartbeat h => rintro _ ⟨⟩; exact held

theorem Reply.frame_held {r : Reply} (held : ∀ message ∈ r.message?, Wire.Held message) :
    ∀ body ∈ r.frame, Wire.Held body.text := by
  cases r with
  | vote r => rintro _ ⟨⟩; exact Nat.two_pow_pos 63
  | heartbeat r => rintro _ ⟨⟩; exact Nat.two_pow_pos 63
  | error message => rintro _ ⟨⟩; exact held message rfl

theorem Request.decode_encode (r : Request) (held : Wire.Held r.sender.text) :
    Request.decode r.encode = r.frame.request.mapError .incomprehensible := by
  have read : Wire.RequestFrame.read r.frame.write = some r.frame := Wire.RequestFrame.read_write (frame_held held)
  unfold Request.decode Request.encode
  rw [read]

theorem Request.frame_request {r : Request} (named : r.sender.text ≠ "") : r.frame.request = .ok r := by
  cases r with
  | vote r => exact if_neg named
  | heartbeat h => exact if_neg named

theorem Reply.decode_encode (r : Reply) (held : ∀ message ∈ r.message?, Wire.Held message) :
    Reply.decode r.encode = .ok r := by
  have read : Wire.ReplyFrame.read r.frame.write = some r.frame := Wire.ReplyFrame.read_write (frame_held held)
  unfold Reply.decode Reply.encode
  rw [read]
  cases r <;> rfl

-- What is sent arrives as it was sent, unless its sender has no name.
theorem survives_wire :
    (∀ r : Request, Wire.Held r.sender.text → r.sender.text ≠ "" → Request.decode r.encode = .ok r) ∧
    (∀ t, Request.decode (Request.encode (.vote ⟨t,⟨""⟩⟩)) = .error (.incomprehensible (.missing "candidate_id"))) ∧
    (∀ t, Request.decode (Request.encode (.heartbeat ⟨t,⟨""⟩⟩)) = .error (.incomprehensible (.missing "leader_id"))) ∧
    (∀ r : Reply, (∀ message ∈ r.message?, Wire.Held message) → Reply.decode r.encode = .ok r) ∧
    Wire.Faithful Wire.RequestFrame.write Wire.RequestFrame.read (fun frame => ∀ body ∈ frame, Wire.Held body.text) ∧
    Wire.Faithful Wire.ReplyFrame.write Wire.ReplyFrame.read (fun frame => ∀ body ∈ frame, Wire.Held body.text) := by
  have empty : Wire.Held "" := Nat.two_pow_pos 63
  refine ⟨?_,?_,?_,Reply.decode_encode,Wire.RequestFrame.faithful,Wire.ReplyFrame.faithful⟩
  · intro r held named
    rw [r.decode_encode held,Request.frame_request named]
    rfl
  · intro t
    rw [Request.decode_encode (.vote ⟨t,⟨""⟩⟩) empty]
    rfl
  · intro t
    rw [Request.decode_encode (.heartbeat ⟨t,⟨""⟩⟩) empty]
    rfl

-- The last term of all in a request, and a request whose sender and term come in two pieces.
theorem pieces_survive_wire :
    let last : Request := .vote ⟨⟨UInt64.size-1,by decide⟩,⟨"ä"⟩⟩
    let pieces : List UInt8 := [10,3,18,1,97,10,2,8,7]
    Request.decode last.encode = .ok last ∧
    ∃ frame, Wire.RequestFrame.read pieces = some frame ∧ Wire.RequestFrame.read frame.write = some frame := by
  intro last pieces
  have read : Wire.RequestFrame.read pieces = some (some (.vote ⟨⟨7,by decide⟩,"a"⟩)) := by decide +kernel
  have short : "ä".utf8ByteSize < 2^63 := by decide
  have named : "ä" ≠ "" := by decide
  obtain ⟨sent,_,_,_,faithful,_⟩ := survives_wire
  exact ⟨sent last short named,_,read,(faithful.settled pieces _ (by decide) read).1⟩

end LeaderElection
