import VectorStream.Color
import VectorStream.Opcode
import VectorStream.Render.Primitive

/-!
# Drawing states

The state that opcodes leave to the opcodes after them, and the step of one opcode. A step resolves
points and yields primitives whether or not the drawing is visible.
-/
namespace VectorStream.Render

structure State where
  point : Point .long := .origin
  mode : Mode := .relative
  visible : Bool := true
  color : Color := .black
  palette : Palette := .standard
  weight : Int32 := 0

namespace State

/-- The style of what is drawn in this state. -/
def style (s : State) : Style := ⟨s.color, s.weight⟩

/-- Reads a point in the mode of the state. Its position becomes the current point. -/
def resolve {w : Width} (s : State) (p : Point w) : State × Point .long :=
  let q := s.mode.place s.point p
  ({ s with point := q }, q)

/-- Reads points one after the other. -/
def resolveAll {w : Width} (s : State) (points : List (Point w)) : State × List (Point .long) :=
  let reached := s.mode.walk s.point points
  ({ s with point := reached.getLastD s.point }, reached)

def resolveShape {w : Width} (s : State) (shape : Shape w) : State × Shape .long :=
  let placed := shape.walk s.mode s.point
  ({ s with point := placed.points.getLastD s.point }, placed)

/-- Takes the color at an index of the palette; an index outside of it changes nothing. -/
def selectColor (s : State) (index : UInt8) : State :=
  match s.palette.get? index with
  | some c => { s with color := c }
  | none => s

/-- The state after an opcode, and the primitives that the opcode draws if they are visible. -/
def step (s : State) (op : Opcode) : State × List Primitive :=
  match op with
  | .visibility on => ({ s with visible := on }, [])
  | .moveTo p => ((resolve { s with mode := op.mode } p).1, [])
  | .weight w => ({ s with weight := w.toInt32 }, [])
  | .shape _ shape =>
    let (s, placed) := resolveShape { s with mode := op.mode } shape
    (s, placed.primitives s.style)
  | .text p content =>
    let (s, anchor) := resolve { s with mode := op.mode } p
    (s, [.text anchor content s.style])
  | .colorIndex i => (s.selectColor i, [])
  | .color c => ({ s with color := c }, [])
  | .unsupported _ => (s, [])
  | .unrecognized _ => (s, [])

end State

end VectorStream.Render
