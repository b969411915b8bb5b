import Mathlib.Init

/-! The wire format of web-socket frames, read from the bytes of a stream, and
the grammar of a stream of frames. A frame is read only if it is complete and
not masked, and its reserved bits are clear. -/
namespace Crablib.Wire

inductive Kind where
  | continuation
  | text
  | binary
  | close
  | ping
  | pong
  deriving DecidableEq, Repr

def Kind.ofCode : Nat → Option Kind
  | 0 => some .continuation
  | 1 => some .text
  | 2 => some .binary
  | 8 => some .close
  | 9 => some .ping
  | 10 => some .pong
  | _ => none

structure WireFrame where
  fin : Bool
  kind : Kind
  payload : List UInt8
  deriving DecidableEq, Repr

/-- The number some bytes are, most significant first. -/
def number (bytes : List UInt8) : Nat := bytes.foldl (fun n byte => n * 256 + byte.toNat) 0

/-- How many bytes behind the second one hold the length, if it does not. -/
def lengthBytes (mark : Nat) : Nat := if mark = 126 then 2 else if mark = 127 then 8 else 0

/-- The first frame of a stream, and the bytes behind it. -/
def readFrame : List UInt8 → Option (WireFrame × List UInt8)
  | first :: second :: rest =>
    match Kind.ofCode (first.toNat % 16) with
    | none => none
    | some kind =>
      if first.toNat / 16 % 8 ≠ 0 ∨ 128 ≤ second.toNat then none
      else
        let field := lengthBytes second.toNat
        let length := if field = 0 then second.toNat else number (rest.take field)
        let body := rest.drop field
        if rest.length < field ∨ body.length < length then none
        else some (⟨128 ≤ first.toNat, kind, body.take length⟩, body.drop length)
  | _ => none

/-- All frames of a stream that ends behind a frame, if it has at most `count`. -/
def readFrames : Nat → List UInt8 → Option (List WireFrame)
  | _, [] => some []
  | 0, _ => none
  | count + 1, bytes =>
    match readFrame bytes with
    | none => none
    | some (frame, rest) => (readFrames count rest).map (frame :: ·)

/-- The frames of a stream: no frame is shorter than a byte. -/
def frames (bytes : List UInt8) : Option (List WireFrame) := readFrames bytes.length bytes

/-- Bytes that are one frame, whatever follows. -/
def Encodes (bytes : List UInt8) (frame : WireFrame) : Prop :=
  ∀ rest, readFrame (bytes ++ rest) = some (frame, rest)

/-- A frame byte by byte: `field` is what holds the length if the second byte
does not. -/
theorem encodes_of {first second : UInt8} {kind : Kind} {field body : List UInt8}
    (known : Kind.ofCode (first.toNat % 16) = some kind) (reserved : first.toNat / 16 % 8 = 0)
    (unmasked : second.toNat < 128) (size : field.length = lengthBytes second.toNat)
    (length : (if lengthBytes second.toNat = 0 then second.toNat else number field) = body.length) :
    Encodes (first :: second :: field ++ body) ⟨128 ≤ first.toNat, kind, body⟩ := by
  intro rest
  have clear : ¬128 ≤ second.toNat := by omega
  have taken : (field ++ (body ++ rest)).take (lengthBytes second.toNat) = field := List.take_left' size
  have dropped : (field ++ (body ++ rest)).drop (lengthBytes second.toNat) = body ++ rest :=
    List.drop_left' size
  have enough : ¬field.length + (body.length + rest.length) < lengthBytes second.toNat := by omega
  simp [readFrame, known, reserved, clear, taken, dropped, length, enough]

theorem Encodes.ne_nil {bytes : List UInt8} {frame : WireFrame}
    (encodes : Encodes bytes frame) : bytes ≠ [] := by
  rintro rfl
  have nothing := encodes []
  simp [readFrame] at nothing

/-- A stream and the frames it is made of. -/
inductive Stream : List UInt8 → List WireFrame → Prop where
  | nil : Stream [] []
  | cons {bytes rest : List UInt8} {frame : WireFrame} {more : List WireFrame}
      (first : Encodes bytes frame)
      (later : Stream rest more) : Stream (bytes ++ rest) (frame :: more)

theorem Stream.append {front back : List UInt8} {first second : List WireFrame}
    (before : Stream front first) (behind : Stream back second) :
    Stream (front ++ back) (first ++ second) := by
  induction before with
  | nil => exact behind
  | cons frame _ ih =>
    rw [List.append_assoc, List.cons_append]
    exact .cons frame ih

theorem Stream.single {bytes : List UInt8} {frame : WireFrame} (encodes : Encodes bytes frame) :
    Stream bytes [frame] := by
  have only := Stream.cons encodes .nil
  rwa [List.append_nil] at only

theorem Stream.readFrames {bytes : List UInt8} {more : List WireFrame}
    (stream : Stream bytes more) (count : Nat) (enough : bytes.length ≤ count) :
    readFrames count bytes = some more := by
  induction stream generalizing count with
  | nil => cases count <;> rfl
  | @cons bytes rest frame more first later ih =>
    obtain ⟨byte, tail, rfl⟩ := List.exists_cons_of_ne_nil first.ne_nil
    cases count with
    | zero => simp at enough
    | succ count =>
      have shorter : rest.length ≤ count := by
        simp only [List.cons_append, List.length_cons, List.length_append] at enough
        omega
      have read := first rest
      rw [List.cons_append] at read ⊢
      simp [Wire.readFrames, read, ih count shorter]

/-- What a stream is made of can be read from it. -/
theorem Stream.frames_eq {bytes : List UInt8} {more : List WireFrame} (stream : Stream bytes more) :
    frames bytes = some more := stream.readFrames _ (Nat.le_refl _)

section Grammar

/-- Where a stream of frames stands. -/
structure Speech where
  /-- A message was begun and not finished. -/
  inMessage : Bool := false
  /-- A CLOSE frame was sent. -/
  closed : Bool := false
  deriving DecidableEq, Repr

/-- A frame that may follow, and where the stream stands behind it. A control
frame is whole and short, and messages do not overlap. -/
def Speech.next (speech : Speech) (frame : WireFrame) : Option Speech :=
  if speech.closed then none
  else
    match frame.kind with
    | .text => if speech.inMessage then none else some { speech with inMessage := !frame.fin }
    | .binary => if speech.inMessage then none else some { speech with inMessage := !frame.fin }
    | .continuation => if speech.inMessage then some { speech with inMessage := !frame.fin } else none
    | .close =>
      if frame.fin ∧ frame.payload.length ≤ 125 then some { speech with closed := true } else none
    | .ping => if frame.fin ∧ frame.payload.length ≤ 125 then some speech else none
    | .pong => if frame.fin ∧ frame.payload.length ≤ 125 then some speech else none

def Speech.run (speech : Speech) : List WireFrame → Option Speech
  | [] => some speech
  | frame :: more =>
    match speech.next frame with
    | none => none
    | some next => next.run more

theorem Speech.run_append (speech : Speech) (first second : List WireFrame) :
    speech.run (first ++ second) = (speech.run first).bind fun middle => middle.run second := by
  induction first generalizing speech with
  | nil => rfl
  | cons frame more ih =>
    simp only [List.cons_append, Speech.run]
    cases speech.next frame with
    | none => rfl
    | some next => exact ih next

theorem Speech.run_single {speech next : Speech} {frame : WireFrame}
    (follows : speech.next frame = some next) :
    speech.run [frame] = some next := by
  simp [Speech.run, follows]

/-- Every frame may follow those before it. -/
def WellFramed (frames : List WireFrame) : Prop := ∃ speech, Speech.run {} frames = some speech

end Grammar

end Crablib.Wire
