import VectorStream.Keyword
import VectorStream.Payload
import VectorStream.Scan

/-!
# Forms

The forms that an opcode can take behind its id byte. A form says how the fields are laid out, and
reading it never moves backward.
-/
namespace VectorStream
open Text

inductive Form where
  | line (width : Width)
  | polyline (width : Width)
  | markers (width : Width)
  | triangles (width : Width)
  | text
  | moveTo
  | weight
  | colorIndex
  | color
  | visibility (on : Bool)
  /-- A name and a payload between parentheses. -/
  | extended
  /-- A size, a code and a body between braces. -/
  | framed
  deriving DecidableEq

/-- The byte that closes a frame. -/
def Form.frameEnd : UInt8 := 0x7D

namespace Scan

/-- The payload up to its closing parenthesis, which is read too. -/
def payload : Scan (List UInt8) := fun c =>
  match Payload.split c.rest with
  | some (bytes, rest) => .ok bytes ⟨c.offset + bytes.length + 1, rest⟩
  | none => .error (.truncated c.finish.offset) c.finish

theorem forward_payload : Forward payload := by
  intro c
  unfold payload
  cases h : Payload.split c.rest with
  | none => exact c.reaches_finish
  | some p =>
    refine ⟨p.1 ++ [Payload.closing], ?_, ?_⟩
    · simp [Payload.split_eq_some h]
    · simp [Nat.add_assoc]

def ofResult {α : Type} : Except StreamError α → Scan α
  | .ok a => pure a
  | .error e => throw e

theorem forward_ofResult {α : Type} (result : Except StreamError α) :
    Forward (ofResult result) := by
  cases result with
  | ok a => exact .pure a
  | error e => exact .throw e

end Scan

namespace Form
open Scan

/-- The id that a skipped list of triangles is reported with. -/
def trianglesId : Width → UInt8
  | .short => 0x14
  | .long => 0x74

def readExtended (keywords : Keywords) : Scan Opcode := do
  let name ← takeWhile fun b => !Payload.endsName b
  let payload ← payload
  ofResult (keywords.interpret (Utf8.decodeLossy name) payload)

/-- The name under which a frame with the given code is reported. -/
def frameName (code : UInt16) : String := "\x7b0x" ++ Hex.ofWord code ++ "\x7d"

example : frameName 0x12A = "\x7b0x012a\x7d" := by decide

/-- Reads a frame. Its errors are reported at the id byte, one byte before the fields. -/
def readFramed : Scan Opcode := do
  let start := (← get).offset - 1
  let size ← coord .long
  if size.toInt < 3 then throw (.malformed start (.shortFrame size))
  else
    let code ← word
    skip (size.toInt.toNat - 3)
    let close ← byte
    if close = frameEnd then return .unrecognized (frameName code)
    else throw (.malformed start (.unclosedFrame close))

/-- Reads the fields of a form into the opcode they make. -/
def read (keywords : Keywords) : Form → Scan Opcode
  | line w => do
    let a ← point w
    let b ← point w
    return .shape w (.line a b)
  | polyline w => do return .shape w (.polyline (← points w (← count)))
  | markers w => do return .shape w (.markers (← points w (← count)))
  | triangles w => do
    skip ((← count) * (2 * w.size))
    return .unsupported (trianglesId w)
  | text => do
    let anchor ← point .short
    return .text anchor (← Scan.text (← count))
  | moveTo => do return .moveTo (← point .short)
  | weight => do return .weight (← coord .short)
  | colorIndex => do return .colorIndex (← byte)
  | color => do
    let red ← byte
    let green ← byte
    let blue ← byte
    let alpha ← byte
    return .color ⟨red, green, blue, alpha⟩
  | visibility on => return .visibility on
  | extended => readExtended keywords
  | framed => readFramed

theorem forward_readExtended (keywords : Keywords) : Forward (readExtended keywords) :=
  .bind (forward_takeWhile _) fun _ => .bind forward_payload fun _ => forward_ofResult _

theorem forward_readFramed : Forward readFramed :=
  .bind .get fun _ => .bind (forward_coord .long) fun _ => .ite (.throw _) <|
    .bind forward_word fun _ => .bind (forward_skip _) fun _ => .bind forward_byte fun _ =>
      .ite (.pure _) (.throw _)

theorem forward_read (keywords : Keywords) (form : Form) : Forward (form.read keywords) := by
  cases form with
  | line w => exact .bind (forward_point w) fun _ => .bind (forward_point w) fun _ => .pure _
  | polyline w => exact .bind forward_count fun n => .bind (forward_points w n) fun _ => .pure _
  | markers w => exact .bind forward_count fun n => .bind (forward_points w n) fun _ => .pure _
  | triangles w => exact .bind forward_count fun n => .bind (forward_skip _) fun _ => .pure _
  | text =>
    exact .bind (forward_point .short) fun _ => .bind forward_count fun n =>
      .bind (forward_text n) fun _ => .pure _
  | moveTo => exact .bind (forward_point .short) fun _ => .pure _
  | weight => exact .bind (forward_coord .short) fun _ => .pure _
  | colorIndex => exact .bind forward_byte fun _ => .pure _
  | color =>
    exact .bind forward_byte fun _ => .bind forward_byte fun _ => .bind forward_byte fun _ =>
      .bind forward_byte fun _ => .pure _
  | visibility on => exact .pure _
  | extended => exact forward_readExtended keywords
  | framed => exact forward_readFramed

end Form

end VectorStream
