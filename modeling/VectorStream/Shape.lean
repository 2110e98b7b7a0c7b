import VectorStream.Point

/-!
# Shapes

What a stream draws with points of one width: a line, a chain of lines, or a set of markers. A point
stands for a position either by itself or as an offset from the position before it.
-/
namespace VectorStream

/-- How points are read as positions. -/
inductive Mode where
  | relative
  | absolute
  deriving DecidableEq, Repr

namespace Mode

def name : Mode → String
  | relative => "Relative"
  | absolute => "Absolute"

/-- The position of a point when `base` is the position before it. -/
def place {w : Width} (mode : Mode) (base : Point .long) (p : Point w) : Point .long :=
  match mode with
  | relative => base + p.widen
  | absolute => p.widen

def walkFrom {w : Width} (mode : Mode) (reached : List (Point .long)) (base : Point .long) :
    List (Point w) → List (Point .long)
  | [] => reached.reverse
  | p :: rest => walkFrom mode (mode.place base p :: reached) (mode.place base p) rest

/-- The positions of a list of points, each counted from the one before it. -/
def walk {w : Width} (mode : Mode) (base : Point .long) (points : List (Point w)) :
    List (Point .long) :=
  walkFrom mode [] base points

theorem walkFrom_eq {w : Width} (mode : Mode) (reached : List (Point .long)) (base : Point .long)
    (points : List (Point w)) :
    walkFrom mode reached base points = reached.reverse ++ walk mode base points := by
  induction points generalizing reached base with
  | nil => simp [walk, walkFrom]
  | cons p rest ih =>
    rw [walk, walkFrom, walkFrom, ih, ih [_]]
    simp

@[simp] theorem walk_nil {w : Width} (mode : Mode) (base : Point .long) :
    walk mode base ([] : List (Point w)) = [] :=
  rfl

@[simp] theorem walk_cons {w : Width} (mode : Mode) (base : Point .long) (p : Point w)
    (rest : List (Point w)) :
    walk mode base (p :: rest) = mode.place base p :: walk mode (mode.place base p) rest := by
  rw [walk, walkFrom, walkFrom_eq]
  rfl

@[simp] theorem length_walk {w : Width} (mode : Mode) (base : Point .long)
    (points : List (Point w)) : (walk mode base points).length = points.length := by
  induction points generalizing base with
  | nil => rfl
  | cons p rest ih => simp [ih]

end Mode

inductive Shape (w : Width) where
  | line (start finish : Point w)
  | polyline (points : List (Point w))
  | markers (points : List (Point w))
  deriving DecidableEq

namespace Shape
variable {w : Width}

/-- The points of a shape in drawing order. -/
def points : Shape w → List (Point w)
  | line a b => [a, b]
  | polyline ps => ps
  | markers ps => ps

def widen : Shape w → Shape .long
  | line a b => .line a.widen b.widen
  | polyline ps => .polyline (ps.map Point.widen)
  | markers ps => .markers (ps.map Point.widen)

/-- The shape whose points are the positions reached along the points of the given shape. -/
def walk (mode : Mode) (base : Point .long) : Shape w → Shape .long
  | line a b => .line (mode.place base a) (mode.place (mode.place base a) b)
  | polyline ps => .polyline (mode.walk base ps)
  | markers ps => .markers (mode.walk base ps)

theorem points_walk (mode : Mode) (base : Point .long) (s : Shape w) :
    (s.walk mode base).points = mode.walk base s.points := by
  cases s <;> simp [walk, points]

end Shape

end VectorStream
