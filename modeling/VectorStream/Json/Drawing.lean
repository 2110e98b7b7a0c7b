import VectorStream.Json
import VectorStream.Opcode
import VectorStream.Render.Primitive

/-!
# Drawings as JSON

Opcodes and primitives as documents. A value with several fields is an object whose keys ascend, and
a kind is an object with the name of the kind as its only key.
-/
namespace VectorStream
open Render

def Point.json {w : Width} (p : Point w) : Json :=
  .object [("x", .number (w.toInt p.x)), ("y", .number (w.toInt p.y))]

def Point.listJson {w : Width} (points : List (Point w)) : Json := .array (points.map Point.json)

def Color.json (c : Color) : Json :=
  .object [("a", .number c.alpha.toNat), ("b", .number c.blue.toNat), ("g", .number c.green.toNat),
    ("r", .number c.red.toNat)]

def Shape.json {w : Width} : Shape w → Json
  | .line a b => .object [("end", b.json), ("start", a.json)]
  | .polyline ps | .markers ps => Point.listJson ps

/-- What an opcode carries besides its kind. -/
def Opcode.operandJson : Opcode → Json
  | .visibility on => .bool on
  | .moveTo p => p.json
  | .weight w => .number w.toInt
  | .shape _ s => s.json
  | .text p content => .object [("position", p.json), ("text", .string content)]
  | .colorIndex i => .number i.toNat
  | .color c => c.json
  | .unsupported id => .number id.toNat
  | .unrecognized name => .string name

def Opcode.json (op : Opcode) : Json := .object [(op.name, op.operandJson)]

def Render.Style.json (s : Style) : Json :=
  .object [("color", s.color.json), ("line_weight", .number s.weight.toInt)]

def Render.Primitive.json : Primitive → Json
  | .line a b s =>
    .object [("Line", .object [("from", a.json), ("style", s.json), ("to", b.json)])]
  | .polyline ps s =>
    .object [("Polyline", .object [("points", Point.listJson ps), ("style", s.json)])]
  | .marker p s => .object [("Marker", .object [("at", p.json), ("style", s.json)])]
  | .text p content s =>
    .object [("Text", .object [("at", p.json), ("style", s.json), ("text", .string content)])]

end VectorStream
