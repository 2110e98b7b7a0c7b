import Mathlib.Algebra.Ring.Int.Defs
import Mathlib.Data.List.DropRight
import VectorStream.Proofs.Execution

/-!
# Coordinates

The current point starts anew at each position that sets it, and every point of an opcode that draws
is an offset from the point before it. So a position is a sum of offsets behind the last position
that was set, and nothing but these points has an influence on it.
-/
namespace VectorStream

namespace Point

/-- The base moved by all offsets: the sums over the integers, wrapped around at 32 bits. -/
def sum (base : Point .long) (offsets : List (Point .long)) : Point .long :=
  ⟨Int32.ofInt (Int32.toInt base.x + (offsets.map fun p => Int32.toInt p.x).sum),
    Int32.ofInt (Int32.toInt base.y + (offsets.map fun p => Int32.toInt p.y).sum)⟩

theorem ofInt_sum_cons (b c : Int32) (n : Int) :
    Int32.ofInt (b.toInt + (c.toInt + n)) = Int32.ofInt ((b + c).toInt + n) := by
  rw [Int32.ofInt_add, Int32.ofInt_add, Int32.ofInt_add, Int32.ofInt_toInt, Int32.ofInt_toInt,
    Int32.ofInt_toInt, Int32.add_assoc]

variable {base : Point .long}

@[simp] theorem sum_nil : sum base [] = base := by
  simp [sum, Int32.ofInt_toInt]

@[simp] theorem sum_cons (p : Point .long) (offsets : List (Point .long)) :
    sum base (p :: offsets) = sum (base + p) offsets :=
  congrArg₂ Point.mk (ofInt_sum_cons _ _ _) (ofInt_sum_cons _ _ _)

theorem sum_append (xs ys : List (Point .long)) : sum base (xs ++ ys) = sum (sum base xs) ys := by
  induction xs generalizing base with
  | nil => rw [List.nil_append, sum_nil]
  | cons p xs ih => rw [List.cons_append, sum_cons, sum_cons, ih]

example : sum ⟨(2147483647 : Int32), (0 : Int32)⟩ [⟨(1 : Int32), (-1 : Int32)⟩] =
    ⟨(-2147483648 : Int32), (-1 : Int32)⟩ := by decide

end Point

namespace Mode
variable {w : Width}

/-- The positions that are reached along offsets are the sums up to each of them. -/
theorem walk_relative (base : Point .long) (points : List (Point w)) :
    relative.walk base points = (List.range points.length).map fun j =>
      Point.sum base ((points.map Point.widen).take (j + 1)) := by
  induction points generalizing base with
  | nil => rfl
  | cons p points ih => simp [ih, List.range_succ_eq_map, place]

theorem getLastD_walk_relative (base : Point .long) (points : List (Point w)) :
    (relative.walk base points).getLastD base = Point.sum base (points.map Point.widen) := by
  induction points generalizing base with
  | nil => simp
  | cons p points ih =>
    rw [walk_cons, List.getLastD_cons, ih, List.map_cons, Point.sum_cons]
    rfl

end Mode

/-- A chain with points is one primitive. -/
theorem Shape.primitives_polyline {ps : List (Point .long)} (h : ps ≠ []) (style : Render.Style) :
    (polyline ps).primitives style = [.polyline ps style] := by
  cases ps with
  | nil => exact absurd rfl h
  | cons p ps => rfl

/-- The points of a primitive in drawing order. -/
def Render.Primitive.points : Render.Primitive → List (Point .long)
  | line a b _ => [a, b]
  | polyline ps _ => ps
  | marker p _ => [p]
  | text p _ _ => [p]

namespace Opcode
open Render

/-- The points of an opcode that draws, widened. -/
def offsets : Opcode → List (Point .long)
  | shape _ s => s.points.map Point.widen
  | text anchor _ => [anchor.widen]
  | _ => []

/-- The position to which an opcode sets the current point, widened. -/
def position? : Opcode → Option (Point .long)
  | moveTo p => some p.widen
  | _ => none

/-- What an opcode draws when its points have the given positions. -/
def drawAt (position : Nat → Point .long) (style : Style) : Opcode → List Primitive
  | shape _ (.line ..) => [.line (position 0) (position 1) style]
  | shape _ (.polyline []) => []
  | shape _ (.polyline ps) => [.polyline ((List.range ps.length).map position) style]
  | shape _ (.markers ps) => (List.range ps.length).map fun j => .marker (position j) style
  | text _ content => [.text (position 0) content style]
  | _ => []

/-- The last position that opcodes set, or the given one. -/
def anchor (start : Point .long) (ops : List Opcode) : Point .long :=
  (ops.filterMap position?).getLastD start

/-- The offsets behind the last position that opcodes set. -/
def trail (ops : List Opcode) : List (Point .long) :=
  (ops.rtakeWhile fun op => op.position?.isNone).flatMap offsets

theorem sum_anchor_trail (start : Point .long) (ops : List Opcode) (op : Opcode) :
    Point.sum (anchor start (ops ++ [op])) (trail (ops ++ [op])) =
      op.position?.getD (Point.sum (anchor start ops) (trail ops ++ op.offsets)) := by
  cases h : op.position? with
  | none => simp [anchor, trail, h]
  | some p => simp [anchor, trail, h]

/-- An opcode that sets the current point, or draws from it on. -/
def moves (op : Opcode) : Bool := op.position?.isSome || op.isDrawing

theorem stays_of_not_moves {op : Opcode} (h : ¬ op.moves) :
    op.position? = none ∧ op.offsets = [] := by
  cases op with
  | moveTo p => exact absurd rfl h
  | shape w s => exact absurd rfl h
  | text p content => exact absurd rfl h
  | _ => exact ⟨rfl, rfl⟩

/-- An opcode draws each of its points once and in order. -/
theorem flatMap_points_drawAt (position : Nat → Point .long) (style : Style) (op : Opcode) :
    (op.drawAt position style).flatMap Primitive.points =
      (List.range op.offsets.length).map position := by
  cases op with
  | shape w shape =>
    cases shape with
    | line a b => rfl
    | polyline ps =>
      cases ps with
      | nil => rfl
      | cons p ps => simp [drawAt, offsets, Shape.points, Primitive.points]
    | markers ps =>
      simp [drawAt, offsets, Shape.points, List.flatMap_map, Primitive.points,
        ← List.map_eq_flatMap]
  | _ => rfl

end Opcode

namespace Render.State

theorem point_step (s : State) (op : Opcode) :
    (s.step op).1.point = op.position?.getD (Point.sum s.point op.offsets) := by
  cases op with
  | shape w shape =>
    simp only [step, resolveShape, Opcode.mode_shape, Shape.points_walk,
      Mode.getLastD_walk_relative]
    rfl
  | colorIndex i =>
    rw [step_colorIndex]
    exact Point.sum_nil.symm
  | _ => simp [step, resolve, Opcode.position?, Opcode.offsets, Mode.place]

theorem drawn_eq_drawAt (s : State) (op : Opcode) :
    s.drawn op = op.drawAt (fun j => Point.sum s.point (op.offsets.take (j + 1))) s.style := by
  cases op with
  | shape w shape =>
    cases shape with
    | line a b =>
      change [Primitive.line (s.point + a.widen) (s.point + a.widen + b.widen) s.style] = _
      simp [Opcode.drawAt, Opcode.offsets, Shape.points]
    | polyline ps =>
      cases ps with
      | nil => rfl
      | cons p ps =>
        have hne : Mode.relative.walk s.point (p :: ps) ≠ [] := by simp
        change (Shape.polyline (Mode.relative.walk s.point (p :: ps))).primitives s.style = _
        rw [Shape.primitives_polyline hne, Mode.walk_relative]
        rfl
    | markers ps =>
      change (Mode.relative.walk s.point ps).map (Primitive.marker · s.style) = _
      rw [Mode.walk_relative, List.map_map]
      rfl
  | text p content =>
    change [Primitive.text (s.point + p.widen) content s.style] = _
    simp [Opcode.drawAt, Opcode.offsets]
  | _ => rfl

theorem point_after (s : State) (ops : List Opcode) :
    (s.after ops).point = Point.sum (Opcode.anchor s.point ops) (Opcode.trail ops) := by
  induction ops using List.reverseRecOn with
  | nil => simp [Opcode.anchor, Opcode.trail]
  | append_singleton ops op ih =>
    rw [after_append, after_cons, after_nil, point_step, ih, Opcode.sum_anchor_trail,
      Point.sum_append]

/-- The points that are drawn at an opcode, visible or not. -/
def drawnPoints (s : State) (op : Opcode) : List (Point .long) :=
  (s.drawn op).flatMap Primitive.points

theorem drawnPoints_eq (s : State) (op : Opcode) : s.drawnPoints op =
    (List.range op.offsets.length).map fun j => Point.sum s.point (op.offsets.take (j + 1)) := by
  rw [drawnPoints, drawn_eq_drawAt, Opcode.flatMap_points_drawAt]

/-- Opcodes that neither set the current point nor draw can be left out. -/
theorem along_filter_moves {s t : State} (h : t.point = s.point) (ops : List Opcode) :
    (t.after (ops.filter Opcode.moves)).point = (s.after ops).point ∧
      (t.along drawnPoints (ops.filter Opcode.moves)).flatten =
        (s.along drawnPoints ops).flatten := by
  induction ops generalizing s t with
  | nil => exact ⟨h, rfl⟩
  | cons op ops ih =>
    by_cases hop : op.moves
    · have hnext : (t.step op).1.point = (s.step op).1.point := by
        rw [point_step, point_step, h]
      have hdrawn : t.drawnPoints op = s.drawnPoints op := by
        rw [drawnPoints_eq, drawnPoints_eq, h]
      obtain ⟨hpoint, hpoints⟩ := ih hnext
      rw [List.filter_cons_of_pos hop]
      exact ⟨hpoint, by rw [along_cons, along_cons, List.flatten_cons, List.flatten_cons, hdrawn,
        hpoints]⟩
    · -- Only the run over all opcodes takes a step here, and it stays at its point.
      obtain ⟨hposition, hoffsets⟩ := Opcode.stays_of_not_moves hop
      have hnext : t.point = (s.step op).1.point := by
        rw [point_step, hposition, hoffsets, Option.getD_none, Point.sum_nil, h]
      have hdrawn : s.drawnPoints op = [] := by
        rw [drawnPoints_eq, hoffsets]
        rfl
      obtain ⟨hpoint, hpoints⟩ := ih hnext
      rw [List.filter_cons_of_neg hop]
      exact ⟨hpoint, by rw [along_cons, List.flatten_cons, hdrawn, hpoints, List.nil_append]⟩

end Render.State

end VectorStream
