import VectorStream.Color
import VectorStream.Shape
import VectorStream.Text.Character

/-!
# Primitives

What a drawing consists of when all positions are known: lines, chains of lines, markers and texts,
each with the style it is drawn in.
-/
namespace VectorStream.Render
open Text

structure Style where
  color : Color := .black
  weight : Int32 := 0
  deriving DecidableEq

inductive Primitive where
  | line (start finish : Point .long) (style : Style)
  | polyline (points : List (Point .long)) (style : Style)
  | marker (position : Point .long) (style : Style)
  | text (anchor : Point .long) (content : String) (style : Style)
  deriving DecidableEq

namespace Primitive

def style : Primitive → Style
  | line _ _ s | polyline _ s | marker _ s | text _ _ s => s

/-- What is drawn, without the style. -/
def figure : Primitive → String
  | line a b _ => "line " ++ a.text ++ " " ++ b.text
  | polyline ps _ => "polyline " ++ Point.listText ps
  | marker p _ => "marker " ++ p.text
  | text p content _ => "text " ++ p.text ++ " " ++ Quoted.quote content

/-- The line of a listing that shows a primitive. -/
def listing (p : Primitive) : String :=
  p.figure ++ " color=" ++ p.style.color.text ++ " weight=" ++ Decimal.ofInt p.style.weight.toInt

end Primitive

end VectorStream.Render

namespace VectorStream
open Render

/-- What a shape of known positions draws. A chain without points draws nothing, and every marker
is a primitive of its own. -/
def Shape.primitives (style : Style) : Shape .long → List Primitive
  | .line a b => [.line a b style]
  | .polyline [] => []
  | .polyline ps => [.polyline ps style]
  | .markers ps => ps.map fun p => .marker p style

end VectorStream
