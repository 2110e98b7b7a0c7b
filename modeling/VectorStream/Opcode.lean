import VectorStream.Color
import VectorStream.Shape
import VectorStream.Text.Character

/-!
# Opcodes

One instruction of a drawing stream. Attributes set the state of the drawing, shapes and texts draw
with that state, and the last two kinds stand for instructions that are skipped.
-/
namespace VectorStream
open Text

inductive Opcode where
  | visibility (on : Bool)
  /-- Moves the current point to the given position. -/
  | moveTo (position : Point .short)
  | weight (value : Int16)
  | shape (width : Width) (shape : Shape width)
  | text (anchor : Point .short) (content : String)
  | colorIndex (index : UInt8)
  | color (value : Color)
  /-- An instruction of known form that draws nothing here. -/
  | unsupported (id : UInt8)
  /-- A self-delimiting instruction without a known meaning. -/
  | unrecognized (name : String)
  deriving DecidableEq

namespace Opcode

/-- The points of every kind are offsets, except for the position that sets the current point. -/
def mode : Opcode → Mode
  | moveTo _ => .absolute
  | _ => .relative

@[simp] theorem mode_moveTo (p : Point .short) : (moveTo p).mode = .absolute := rfl

@[simp] theorem mode_shape (w : Width) (s : Shape w) : (shape w s).mode = .relative := rfl

@[simp] theorem mode_text (p : Point .short) (content : String) :
    (text p content).mode = .relative := rfl

def isDrawing : Opcode → Bool
  | shape .. | text .. => true
  | _ => false

/-- The name that an opcode without a known meaning goes by. -/
def unrecognized? : Opcode → Option String
  | unrecognized name => some name
  | _ => none

/-- The name of a kind. Shapes with long points have names of their own. -/
def name : Opcode → String
  | visibility _ => "SetVisibility"
  | moveTo _ => "SetCurrentPoint"
  | weight _ => "SetLineWeight"
  | shape .short (.line ..) => "DrawLine"
  | shape .long (.line ..) => "DrawLineLong"
  | shape .short (.polyline _) => "DrawPolyline"
  | shape .long (.polyline _) => "DrawPolylineLong"
  | shape .short (.markers _) => "DrawPolymarker"
  | shape .long (.markers _) => "DrawPolymarkerLong"
  | text .. => "DrawText"
  | colorIndex _ => "SetColorIndex"
  | color _ => "SetColorRgba"
  | unsupported _ => "Unsupported"
  | unrecognized _ => "Unrecognized"

/-- What stands behind the name in a listing. -/
def operand : Opcode → String
  | visibility on => if on then "true" else "false"
  | moveTo p => p.text
  | weight w => Decimal.ofInt w.toInt
  | shape _ (.line a b) => a.text ++ " " ++ b.text
  | shape _ (.polyline ps) | shape _ (.markers ps) => "[" ++ Point.listText ps ++ "]"
  | text p content => p.text ++ " " ++ Quoted.quote content
  | colorIndex i => Decimal.ofNat i.toNat
  | color c => c.text
  | unsupported id => "0x" ++ Hex.ofByte id
  | unrecognized n => Quoted.quote n

/-- The line of a listing that shows an opcode. -/
def listing (op : Opcode) : String := op.name ++ " " ++ op.operand

/-- The same opcode with every shape in long points. -/
def widen : Opcode → Opcode
  | shape _ s => .shape .long s.widen
  | op => op

end Opcode

end VectorStream
