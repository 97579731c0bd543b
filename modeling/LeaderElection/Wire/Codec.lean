import LeaderElection.Message
import LeaderElection.Wire.Field

namespace LeaderElection

namespace Wire

def writeText (s : String) : List UInt8 := s.toUTF8.data.toList
def readText (bytes : List UInt8) : Option String := String.fromUTF8? ⟨bytes.toArray⟩

-- Both kinds of request carry the same two fields, and so do both kinds of answer.
structure Claim where
  term : Term
  sender : String
  deriving DecidableEq

structure Verdict where
  agreed : Bool
  term : Term
  deriving DecidableEq

inductive RequestBody where
  | vote (claim : Claim)
  | heartbeat (claim : Claim)
  deriving DecidableEq

inductive ReplyBody where
  | vote (verdict : Verdict)
  | heartbeat (verdict : Verdict)
  | error (message : String)
  deriving DecidableEq

-- A frame without a body is well formed, it only means nothing.
abbrev RequestFrame := Option RequestBody
abbrev ReplyFrame := Option ReplyBody

-- Fields at their default are left out.
def termField (tag : Nat) (t : Term) : List Field := if t = .zero then [] else [⟨tag,.number t.number⟩]
def textField (tag : Nat) (s : String) : List Field := if s = "" then [] else [⟨tag,.block (writeText s)⟩]
def flagField (tag : Nat) (b : Bool) : List Field := if b then [⟨tag,.number 1⟩] else []

def Payload.term? : Payload → Option Term
  | .number n => Term.ofNat? n
  | _ => none

def Payload.text? : Payload → Option String
  | .block bytes => readText bytes
  | _ => none

def Payload.flag? : Payload → Option Bool
  | .number n => some (n ≠ 0)
  | _ => none

-- A later field replaces an earlier one of its tag. Fields of other tags are ignored.
namespace Claim
def blank : Claim := ⟨.zero,""⟩
def fields (c : Claim) : List Field := termField 1 c.term ++ textField 2 c.sender
def take (c : Claim) (f : Field) : Option Claim :=
  if f.tag = 1 then f.payload.term?.map fun t => {c with term := t}
  else if f.tag = 2 then f.payload.text?.map fun s => {c with sender := s}
  else some c
end Claim

namespace Verdict
def blank : Verdict := ⟨false,.zero⟩
def fields (v : Verdict) : List Field := flagField 1 v.agreed ++ termField 2 v.term
def take (v : Verdict) (f : Field) : Option Verdict :=
  if f.tag = 1 then f.payload.flag?.map fun b => {v with agreed := b}
  else if f.tag = 2 then f.payload.term?.map fun t => {v with term := t}
  else some v
end Verdict

def takeMessage (message : String) (f : Field) : Option String :=
  if f.tag = 1 then f.payload.text? else some message

def nesting : Nat := 100

-- The fields of an embedded message are laid over `start`.
def readInto {α : Type} (take : α → Field → Option α) (start : α) : Payload → Option α
  | .block bytes => do
    let (fields,_) ← readFields (nesting-1) none bytes
    fields.foldlM take start
  | _ => none

def readFrame {α : Type} (take : Option α → Field → Option (Option α)) (bytes : List UInt8) :
    Option (Option α) := do
  let (fields,_) ← readFields nesting none bytes
  fields.foldlM take none

namespace RequestFrame

def field : RequestBody → Field
  | .vote c => ⟨1,.block (writeFields c.fields)⟩
  | .heartbeat c => ⟨2,.block (writeFields c.fields)⟩

def write (frame : RequestFrame) : List UInt8 := writeFields (frame.toList.map field)

-- A body that occurs again is merged into one of its own kind and replaces one of another.
def take (frame : RequestFrame) (f : Field) : Option RequestFrame :=
  if f.tag = 1 then
    let start := match frame with
      | some (.vote c) => c
      | _ => .blank
    (readInto Claim.take start f.payload).map fun c => some (.vote c)
  else if f.tag = 2 then
    let start := match frame with
      | some (.heartbeat c) => c
      | _ => .blank
    (readInto Claim.take start f.payload).map fun c => some (.heartbeat c)
  else some frame

def read (bytes : List UInt8) : Option RequestFrame := readFrame take bytes

end RequestFrame

namespace ReplyFrame

def field : ReplyBody → Field
  | .vote v => ⟨1,.block (writeFields v.fields)⟩
  | .heartbeat v => ⟨2,.block (writeFields v.fields)⟩
  | .error message => ⟨3,.block (writeFields (textField 1 message))⟩

def write (frame : ReplyFrame) : List UInt8 := writeFields (frame.toList.map field)

def take (frame : ReplyFrame) (f : Field) : Option ReplyFrame :=
  if f.tag = 1 then
    let start := match frame with
      | some (.vote v) => v
      | _ => .blank
    (readInto Verdict.take start f.payload).map fun v => some (.vote v)
  else if f.tag = 2 then
    let start := match frame with
      | some (.heartbeat v) => v
      | _ => .blank
    (readInto Verdict.take start f.payload).map fun v => some (.heartbeat v)
  else if f.tag = 3 then
    let start := match frame with
      | some (.error message) => message
      | _ => ""
    (readInto takeMessage start f.payload).map fun message => some (.error message)
  else some frame

def read (bytes : List UInt8) : Option ReplyFrame := readFrame take bytes

end ReplyFrame

end Wire

inductive Wire.Incomprehensible where
  | unknownType
  | missing (field : String)
  deriving DecidableEq

def Wire.Incomprehensible.message : Wire.Incomprehensible → String
  | .unknownType => "unknown message type"
  | .missing field => "missing " ++ field

inductive Wire.DecodeError where
  | malformed
  | incomprehensible (why : Wire.Incomprehensible)
  deriving DecidableEq

def Request.frame : Request → Wire.RequestFrame
  | .vote r => some (.vote ⟨r.term,r.candidate.text⟩)
  | .heartbeat h => some (.heartbeat ⟨h.term,h.leader.text⟩)

-- A request has to name its sender.
def Wire.RequestFrame.request : Wire.RequestFrame → Except Wire.Incomprehensible Request
  | none => .error .unknownType
  | some (.vote c) =>
    if c.sender = "" then .error (.missing "candidate_id") else .ok (.vote ⟨c.term,⟨c.sender⟩⟩)
  | some (.heartbeat c) =>
    if c.sender = "" then .error (.missing "leader_id") else .ok (.heartbeat ⟨c.term,⟨c.sender⟩⟩)

def Reply.frame : Reply → Wire.ReplyFrame
  | .vote r => some (.vote ⟨r.granted,r.term⟩)
  | .heartbeat r => some (.heartbeat ⟨r.acked,r.term⟩)
  | .error message => some (.error message)

def Wire.ReplyFrame.reply : Wire.ReplyFrame → Except Wire.Incomprehensible Reply
  | none => .error .unknownType
  | some (.vote v) => .ok (.vote ⟨v.agreed,v.term⟩)
  | some (.heartbeat v) => .ok (.heartbeat ⟨v.agreed,v.term⟩)
  | some (.error message) => .ok (.error message)

def Request.encode (r : Request) : List UInt8 := r.frame.write
def Reply.encode (r : Reply) : List UInt8 := r.frame.write

def Request.decode (bytes : List UInt8) : Except Wire.DecodeError Request :=
  match Wire.RequestFrame.read bytes with
  | none => .error .malformed
  | some frame => frame.request.mapError .incomprehensible

def Reply.decode (bytes : List UInt8) : Except Wire.DecodeError Reply :=
  match Wire.ReplyFrame.read bytes with
  | none => .error .malformed
  | some frame => frame.reply.mapError .incomprehensible

-- Every frame gets one reply. One that cannot be understood is never handed on.
def Wire.RequestFrame.serve {m : Type → Type} [Monad m] (handle : Request → m Reply)
    (frame : Wire.RequestFrame) : m Wire.ReplyFrame :=
  match frame.request with
  | .error why => pure (Reply.error why.message).frame
  | .ok r => do return (← handle r).frame

end LeaderElection
