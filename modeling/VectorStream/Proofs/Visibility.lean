import VectorStream.Proofs.Execution

/-!
# Visibility

Opcodes switch the drawing off and on. This decides which primitives reach the device and nothing
else: what is drawn while the drawing is hidden is worked out, counted and reported in the same way,
and leaves the same state behind.
-/
namespace VectorStream

namespace Opcode

/-- The visibility that an opcode sets. -/
def visibility? : Opcode → Option Bool
  | visibility on => some on
  | _ => none

/-- The opcode with another value for the visibility, if it sets one. -/
def withVisibility (on : Bool) : Opcode → Opcode
  | visibility _ => visibility on
  | op => op

/-- Opcodes with other values for the visibilities they set. The opcode at index `k` sets `on k`. -/
def withVisibilities (on : Nat → Bool) (ops : List Opcode) : List Opcode :=
  ops.mapIdx fun k op => op.withVisibility (on k)

/-- The opcode that shows the drawing wherever the given one shows or hides it. -/
def reveal (op : Opcode) : Opcode := op.withVisibility true

/-- The last visibility that opcodes set, or the given one. -/
def visibleBehind (start : Bool) (ops : List Opcode) : Bool :=
  (ops.filterMap visibility?).getLastD start

theorem reveal_withVisibility (on : Bool) (op : Opcode) :
    (op.withVisibility on).reveal = op.reveal := by
  cases op <;> rfl

theorem map_reveal_withVisibilities (on : Nat → Bool) (ops : List Opcode) :
    (withVisibilities on ops).map reveal = ops.map reveal := by
  apply List.ext_getElem
  · simp [withVisibilities]
  · intro k _ _
    simp [withVisibilities, reveal_withVisibility]

theorem withVisibilities_true (ops : List Opcode) :
    withVisibilities (fun _ => true) ops = ops.map reveal := by
  apply List.ext_getElem
  · simp [withVisibilities]
  · intro k _ _
    simp [withVisibilities, reveal]

theorem unrecognized?_reveal (op : Opcode) : op.reveal.unrecognized? = op.unrecognized? := by
  cases op <;> rfl

theorem isDrawing_reveal (op : Opcode) : op.reveal.isDrawing = op.isDrawing := by
  cases op <;> rfl

theorem isUnsupported_reveal (op : Opcode) : op.reveal.isUnsupported = op.isUnsupported := by
  cases op <;> rfl

end Opcode

namespace Render
open Opcode

namespace State
variable (s : State) (op : Opcode) (ops : List Opcode)

def withVisible (visible : Bool) : State := { s with visible }

/-- The state with the drawing shown. -/
def reveal : State := s.withVisible true

theorem step_reveal : s.reveal.step op.reveal = ((s.step op).1.reveal, (s.step op).2) := by
  cases op with
  | colorIndex i =>
    rw [step_colorIndex]
    exact step_colorIndex s.reveal i
  | _ => rfl

theorem visible_step : (s.step op).1.visible = op.visibility?.getD s.visible := by
  cases op with
  | colorIndex i =>
    rw [step_colorIndex]
    rfl
  | _ => rfl

theorem after_reveal : s.reveal.after (ops.map Opcode.reveal) = (s.after ops).reveal := by
  induction ops generalizing s with
  | nil => rfl
  | cons op ops ih => rw [List.map_cons, after_cons, after_cons, step_reveal, ih]

theorem visible_after : (s.after ops).visible = visibleBehind s.visible ops := by
  apply eq_last_set State.visible fun _ => visibility?
  · intro s op
    rfl
  · exact visible_step

theorem along_reveal {α : Type} {f g : State → Opcode → α}
    (h : ∀ s op, f s.reveal op.reveal = g s op) :
    s.reveal.along f (ops.map Opcode.reveal) = s.along g ops := by
  induction ops generalizing s with
  | nil => rfl
  | cons op ops ih => rw [List.map_cons, along_cons, along_cons, h, step_reveal, ih]

theorem drawn_reveal : s.reveal.drawn op.reveal = s.drawn op := by
  rw [drawn, step_reveal, drawn]

/-- The same is worked out whether the drawing is visible or not. -/
theorem along_drawn_reveal :
    s.reveal.along drawn (ops.map Opcode.reveal) = s.along drawn ops :=
  s.along_reveal ops drawn_reveal

/-- An opcode that sets the visibility draws nothing, so the visibility in front of an opcode is
as good as the one behind it. -/
theorem shown_eq : s.shown op = if s.visible then s.drawn op else [] := by
  rw [shown, visible_step]
  cases op with
  | visibility on => cases on <;> cases s.visible <;> rfl
  | _ => rfl

theorem along_shown : s.along shown ops =
    (s.along drawn ops).mapIdx fun k primitives =>
      if visibleBehind s.visible (ops.take k) then primitives else [] := by
  rw [along_eq_mapIdx, along_eq_mapIdx, List.mapIdx_mapIdx]
  congr 1
  funext k op
  rw [shown_eq, visible_after]
  rfl

/-- Where everything is shown, all that is drawn is shown. -/
theorem along_shown_reveal : s.reveal.along shown (ops.map Opcode.reveal) = s.along drawn ops := by
  apply s.along_reveal ops
  intro s op
  have hvisible : s.reveal.visible = true := rfl
  rw [shown_eq, if_pos hvisible, drawn_reveal]

end State

theorem Diagnostic.reports_map_reveal (ignored : List String) (start : Nat) (ops : List Opcode) :
    reports ignored start (ops.map Opcode.reveal) = reports ignored start ops := by
  unfold reports named
  congr 1
  rw [List.zipIdx_map, List.filterMap_map]
  congr 1
  funext ⟨op, index⟩
  simp [unrecognized?_reveal]

namespace Pass
variable {σ : Type}

/-- Passes that can differ in what is visible and in what their devices were given. -/
structure SameHidden (p q : Pass σ) : Prop where
  state : p.state.reveal = q.state.reveal
  diagnostics : p.diagnostics = q.diagnostics
  opcodes : p.stats.opcodes = q.stats.opcodes
  drawing : p.stats.drawing = q.stats.drawing
  unsupported : p.stats.unsupported = q.stats.unsupported
  primitives : p.stats.emitted + p.stats.suppressed = q.stats.emitted + q.stats.suppressed

theorem SameHidden.symm {p q : Pass σ} (h : p.SameHidden q) : q.SameHidden p :=
  ⟨h.state.symm, h.diagnostics.symm, h.opcodes.symm, h.drawing.symm, h.unsupported.symm,
    h.primitives.symm⟩

theorem SameHidden.trans {p q r : Pass σ} (h : p.SameHidden q) (k : q.SameHidden r) :
    p.SameHidden r :=
  ⟨h.state.trans k.state, h.diagnostics.trans k.diagnostics, h.opcodes.trans k.opcodes,
    h.drawing.trans k.drawing, h.unsupported.trans k.unsupported, h.primitives.trans k.primitives⟩

/-- A pass with the drawing shown from its start on. -/
def reveal (p : Pass σ) : Pass σ := { p with state := p.state.reveal }

/-- A pass differs from the one that shows everything in what is visible alone. -/
theorem sameHidden_reveal (p : Pass σ) (ops : List Opcode) :
    (p.execute ops).SameHidden (p.reveal.execute (ops.map Opcode.reveal)) := by
  rw [execute_eq_behind, execute_eq_behind]
  have hdrawing : (ops.map Opcode.reveal).countP isDrawing = ops.countP isDrawing := by
    rw [List.countP_map]
    exact List.countP_congr fun op _ => by rw [Function.comp_apply, isDrawing_reveal]
  have hunsupported : (ops.map Opcode.reveal).countP isUnsupported = ops.countP isUnsupported := by
    rw [List.countP_map]
    exact List.countP_congr fun op _ => by rw [Function.comp_apply, isUnsupported_reveal]
  have hprimitives := p.state.length_along_shown_add_hidden ops
  have hrevealed := p.state.reveal.length_along_shown_add_hidden (ops.map Opcode.reveal)
  rw [State.along_drawn_reveal] at hrevealed
  constructor
  · exact (congrArg State.reveal (p.state.after_reveal ops)).symm
  · exact (congrArg (p.diagnostics ++ List.toArray ·)
      (Diagnostic.reports_map_reveal p.ignored p.stats.opcodes ops)).symm
  · simp [behind, Stats.behind, reveal]
  · simp [behind, Stats.behind, reveal, hdrawing]
  · simp [behind, Stats.behind, reveal, hunsupported]
  · simp only [behind, Stats.behind, reveal]
    omega

/-- A device is given the primitives of the opcodes in front of which the drawing is visible. -/
theorem surface_execute (p : Pass σ) (ops : List Opcode) :
    (p.execute ops).surface = p.device.drawAll
      ((p.state.along State.drawn ops).mapIdx fun k primitives =>
        if visibleBehind p.state.visible (ops.take k) then primitives else []).flatten
      p.surface := by
  rw [execute_eq_behind, ← State.along_shown]
  rfl

theorem surface_execute_reveal (p : Pass σ) (ops : List Opcode) :
    (p.reveal.execute (ops.map Opcode.reveal)).surface =
      p.device.drawAll (p.state.along State.drawn ops).flatten p.surface := by
  rw [execute_eq_behind, ← State.along_shown_reveal]
  rfl

/-- The pass that starts with another visibility and runs over opcodes that set other ones. -/
def executeWith (p : Pass σ) (visible : Bool) (on : Nat → Bool) (ops : List Opcode) : Pass σ :=
  execute { p with state := p.state.withVisible visible } (withVisibilities on ops)

end Pass

end Render

end VectorStream
