import VectorStream.Text.Numeral

/-!
# Points

A coordinate has one of two widths. Every point widens to the long width without loss, and long
points are added componentwise modulo 2 ^ 32.
-/
namespace VectorStream
open Text

/-- The width of the coordinates of a point. -/
inductive Width where
  | short
  | long
  deriving DecidableEq, Repr

namespace Width

/-- The number of bytes that one coordinate takes in a stream. -/
def size : Width → Nat
  | short => 2
  | long => 4

/-- Coordinates are two's complement words of their width. -/
abbrev Coord : Width → Type
  | short => Int16
  | long => Int32

instance : (w : Width) → DecidableEq w.Coord
  | short => inferInstanceAs (DecidableEq Int16)
  | long => inferInstanceAs (DecidableEq Int32)

def toInt : (w : Width) → w.Coord → Int
  | short, c => Int16.toInt c
  | long, c => Int32.toInt c

/-- The coordinate whose word has the value `n`, read without a sign. -/
def ofWord : (w : Width) → Nat → w.Coord
  | short, n => Int16.ofNat n
  | long, n => Int32.ofNat n

/-- Sign extension to the long width. -/
def extend : (w : Width) → w.Coord → Int32
  | short, c => Int16.toInt32 c
  | long, c => c

/-- Sign extension keeps the value of a coordinate. -/
theorem toInt_extend (w : Width) (c : w.Coord) : (w.extend c).toInt = w.toInt c := by
  cases w with
  | short => exact Int16.toInt_toInt32 c
  | long => rfl

end Width

/-- A pair of coordinates of one width. -/
structure Point (w : Width) where
  x : w.Coord
  y : w.Coord
  deriving DecidableEq

namespace Point

def origin : Point .long := ⟨(0 : Int32), (0 : Int32)⟩

instance : Inhabited (Point .long) := ⟨origin⟩

def widen {w : Width} (p : Point w) : Point .long := ⟨w.extend p.x, w.extend p.y⟩

/-- Each component is the sum of the two, wrapped around at 32 bits. -/
def add (p q : Point .long) : Point .long :=
  ⟨(p.x : Int32) + (q.x : Int32), (p.y : Int32) + (q.y : Int32)⟩

instance : Add (Point .long) := ⟨add⟩

/-- A point is written `(x,y)`. -/
def text {w : Width} (p : Point w) : String :=
  "(" ++ Decimal.ofInt (w.toInt p.x) ++ "," ++ Decimal.ofInt (w.toInt p.y) ++ ")"

/-- The points of a list are written in order, with one space between two of them. -/
def listText {w : Width} (points : List (Point w)) : String :=
  " ".intercalate (points.map text)

@[simp] theorem widen_long (p : Point .long) : p.widen = p := rfl

/-- A point has the same coordinates in the long width. -/
theorem toInt_widen {w : Width} (p : Point w) :
    Int32.toInt p.widen.x = w.toInt p.x ∧ Int32.toInt p.widen.y = w.toInt p.y :=
  ⟨w.toInt_extend p.x, w.toInt_extend p.y⟩

end Point

end VectorStream
