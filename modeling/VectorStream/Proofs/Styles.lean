import VectorStream.Proofs.Execution

/-!
# Styles

What is drawn has the color and the weight that were set last. A color is set by its value or by an
index that the palette reaches; no opcode changes the palette, and no other opcode has an influence
on what is drawn later.
-/
namespace VectorStream

namespace Opcode

/-- The color that an opcode sets. An index beyond the palette sets none. -/
def color? (palette : Palette) : Opcode → Option Color
  | color c => some c
  | colorIndex i => if h : i.toNat < palette.colors.size then some palette.colors[i.toNat] else none
  | _ => none

/-- The value of the weight that an opcode sets. -/
def weight? : Opcode → Option Int
  | weight w => some w.toInt
  | _ => none

def setsStyle (palette : Palette) (op : Opcode) : Bool :=
  (op.color? palette).isSome || op.weight?.isSome

/-- The last color that opcodes set, or the given one. -/
def lastColor (palette : Palette) (start : Color) (ops : List Opcode) : Color :=
  (ops.filterMap (color? palette)).getLastD start

/-- The value of the last weight that opcodes set, or the given one. -/
def lastWeight (start : Int) (ops : List Opcode) : Int :=
  (ops.filterMap weight?).getLastD start

theorem none_of_not_setsStyle {palette : Palette} {op : Opcode} (h : ¬ op.setsStyle palette) :
    op.color? palette = none ∧ op.weight? = none := by
  simpa [setsStyle] using h

end Opcode

namespace Render.State
open Opcode

/-- The colors and the values of the weights that the primitives of an opcode are drawn with. -/
def drawnStyles (s : State) (op : Opcode) : List (Color × Int) :=
  (s.drawn op).map fun p => (p.style.color, p.style.weight.toInt)

theorem drawnStyles_eq (s : State) (op : Opcode) :
    s.drawnStyles op = List.replicate op.primitiveCount (s.color, s.weight.toInt) := by
  have h := congrArg (List.map fun style : Style => (style.color, style.weight.toInt))
    (s.map_style_drawn op)
  rwa [List.map_map, List.map_replicate] at h

theorem palette_step (s : State) (op : Opcode) : (s.step op).1.palette = s.palette := by
  cases op with
  | colorIndex i =>
    rw [step_colorIndex]
  | _ => rfl

theorem color_step (s : State) (op : Opcode) :
    (s.step op).1.color = (op.color? s.palette).getD s.color := by
  cases op with
  | colorIndex i =>
    have hreach : s.palette.get? i = color? s.palette (.colorIndex i) := getElem?_def _ _
    rw [step_colorIndex, hreach]
  | _ => rfl

theorem weight_step (s : State) (op : Opcode) :
    (s.step op).1.weight.toInt = op.weight?.getD s.weight.toInt := by
  cases op with
  | weight w => exact Int16.toInt_toInt32 w
  | colorIndex i =>
    rw [step_colorIndex]
    rfl
  | _ => rfl

theorem palette_after (s : State) (ops : List Opcode) : (s.after ops).palette = s.palette := by
  induction ops generalizing s with
  | nil => rfl
  | cons op ops ih => rw [after_cons, ih, palette_step]

theorem color_after (s : State) (ops : List Opcode) :
    (s.after ops).color = lastColor s.palette s.color ops := by
  apply eq_last_set State.color fun s => color? s.palette
  · intro s op
    rw [palette_step]
  · exact color_step

theorem weight_after (s : State) (ops : List Opcode) :
    (s.after ops).weight.toInt = lastWeight s.weight.toInt ops := by
  apply eq_last_set (fun s => s.weight.toInt) fun _ => weight?
  · intro s op
    rfl
  · exact weight_step

/-- The colors and weights in which a run draws, from what was set last in front of each opcode. -/
theorem along_drawnStyles (s : State) (ops : List Opcode) :
    s.along drawnStyles ops = ops.mapIdx fun k op =>
      List.replicate op.primitiveCount
        (lastColor s.palette s.color (ops.take k), lastWeight s.weight.toInt (ops.take k)) := by
  rw [along_eq_mapIdx]
  congr 1
  funext k op
  rw [drawnStyles_eq, color_after, weight_after]

/-- Opcodes that set neither a color nor a weight can be left out in front of others. -/
theorem along_drawnStyles_of_not_setsStyle (s : State) (xs : List Opcode) {es : List Opcode}
    (h : ∀ op ∈ es, ¬ op.setsStyle s.palette) (ys : List Opcode) :
    (s.after (xs ++ es)).along drawnStyles ys = (s.after xs).along drawnStyles ys := by
  have hcolor : es.filterMap (color? s.palette) = [] :=
    List.filterMap_eq_nil_iff.2 fun op hop => (none_of_not_setsStyle (h op hop)).1
  have hweight : es.filterMap weight? = [] :=
    List.filterMap_eq_nil_iff.2 fun op hop => (none_of_not_setsStyle (h op hop)).2
  simp [along_drawnStyles, palette_after, color_after, weight_after, lastColor, lastWeight, hcolor,
    hweight]

/-- All primitives of an opcode have one style: the color that was set last in front of it, and a
weight with the value that was set last. The palette stays the same. Opcodes that set neither, among
them all that draw, have no influence on the styles of what is drawn behind them. -/
theorem styles_of_last_set (s : State) (ops : List Opcode) :
    s.along drawnStyles ops = (ops.mapIdx fun k op =>
      List.replicate op.primitiveCount
        (lastColor s.palette s.color (ops.take k), lastWeight s.weight.toInt (ops.take k))) ∧
    (s.after ops).palette = s.palette ∧
    ∀ es, (∀ op ∈ es, ¬ op.setsStyle s.palette) → ∀ ys,
      (s.after (ops ++ es)).along drawnStyles ys = (s.after ops).along drawnStyles ys :=
  ⟨s.along_drawnStyles ops, s.palette_after ops, fun _ h ys =>
    s.along_drawnStyles_of_not_setsStyle ops h ys⟩

/-- With two colors in the palette, an index of seven changes no more than a shape or a name does. -/
theorem styles_of_last_set_out_of_reach :
    let s : State := { palette := .ofList [.white, ⟨0, 128, 0, 255⟩] }
    let es : List Opcode := [.colorIndex 7, .visibility false, .moveTo ⟨(1 : Int16), (2 : Int16)⟩,
      .shape .long (.markers [.origin]), .unsupported 0x14, .unrecognized "Font"]
    let ys : List Opcode := [.text ⟨(0 : Int16), (0 : Int16)⟩ "a"]
    (∀ op ∈ es, ¬ op.setsStyle s.palette) ∧
      (s.after ([.colorIndex 1, .weight (-3)] ++ es)).along drawnStyles ys =
        [[(⟨0, 128, 0, 255⟩, -3)]] := by
  intro s es ys
  have hes : ∀ op ∈ es, ¬ op.setsStyle s.palette := by decide
  refine ⟨hes, ?_⟩
  rw [(styles_of_last_set s [.colorIndex 1, .weight (-3)]).2.2 es hes ys]
  decide

end Render.State

end VectorStream
