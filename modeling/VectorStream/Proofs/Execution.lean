import Mathlib.Algebra.GroupWithZero.Nat
import VectorStream.Render.Frame

/-!
# Execution of passes

What a pass does follows from its opcodes and the state in which it starts: the state behind them,
the primitives they draw, the counters and the reports. A device is given the primitives of those
opcodes behind which the drawing is visible, and has no influence on the rest.
-/
namespace VectorStream

def Opcode.isUnsupported : Opcode → Bool
  | unsupported _ => true
  | _ => false

/-- The number of primitives that an opcode draws: one for a line, for a text and for a chain with
points, and one for each marker. -/
def Opcode.primitiveCount : Opcode → Nat
  | shape _ (.line ..) => 1
  | shape _ (.polyline []) => 0
  | shape _ (.polyline _) => 1
  | shape _ (.markers ps) => ps.length
  | text .. => 1
  | _ => 0

theorem Opcode.unrecognized?_eq_some_iff {op : Opcode} {name : String} :
    op.unrecognized? = some name ↔ op = .unrecognized name := by
  cases op <;> simp [unrecognized?]

namespace Render

namespace State
variable {α : Type}

/-- The state behind some opcodes. -/
def after (s : State) (ops : List Opcode) : State := ops.foldl (fun s op => (s.step op).1) s

/-- What a function finds at each opcode, given the state in front of it. -/
def along (s : State) (f : State → Opcode → α) : List Opcode → List α
  | [] => []
  | op :: ops => f s op :: (s.step op).1.along f ops

/-- The primitives of an opcode, visible or not. -/
def drawn (s : State) (op : Opcode) : List Primitive := (s.step op).2

/-- The primitives of an opcode that are given to a device. -/
def shown (s : State) (op : Opcode) : List Primitive :=
  if (s.step op).1.visible then s.drawn op else []

/-- The primitives of an opcode that are kept from a device. -/
def hidden (s : State) (op : Opcode) : List Primitive :=
  if (s.step op).1.visible then [] else s.drawn op

/-- An index sets the color and nothing else; one that the palette does not reach sets the color
that is already set. -/
theorem step_colorIndex (s : State) (i : UInt8) :
    s.step (.colorIndex i) = ({ s with color := (s.palette.get? i).getD s.color }, []) := by
  rw [step, selectColor]
  cases s.palette.get? i <;> rfl

variable {s : State} {f : State → Opcode → α} {op : Opcode} {ops : List Opcode}

@[simp] theorem after_nil : s.after [] = s := rfl

@[simp] theorem after_cons : s.after (op :: ops) = (s.step op).1.after ops := rfl

@[simp] theorem after_append (xs ys : List Opcode) :
    s.after (xs ++ ys) = (s.after xs).after ys :=
  List.foldl_append

@[simp] theorem along_nil : s.along f [] = [] := rfl

@[simp] theorem along_cons : s.along f (op :: ops) = f s op :: (s.step op).1.along f ops := rfl

@[simp] theorem along_append (xs ys : List Opcode) :
    s.along f (xs ++ ys) = s.along f xs ++ (s.after xs).along f ys := by
  induction xs generalizing s with
  | nil => rfl
  | cons op xs ih => simp [ih]

/-- What is found at an opcode depends on the opcodes in front of it alone. -/
theorem along_eq_mapIdx (s : State) (f : State → Opcode → α) (ops : List Opcode) :
    s.along f ops = ops.mapIdx fun k op => f (s.after (ops.take k)) op := by
  induction ops generalizing s with
  | nil => rfl
  | cons op ops ih => simp [ih, List.mapIdx_cons]

/-- What an opcode either sets or leaves as it is has the value that was set last, if no opcode has
an influence on what another one sets. -/
theorem eq_last_set {β : Type} (value : State → β) (set? : State → Opcode → Option β)
    (hset : ∀ s op, set? (s.step op).1 = set? s)
    (hvalue : ∀ s op, value (s.step op).1 = (set? s op).getD (value s)) (s : State)
    (ops : List Opcode) :
    value (s.after ops) = (ops.filterMap (set? s)).getLastD (value s) := by
  induction ops generalizing s with
  | nil => rfl
  | cons op ops ih =>
    -- What the first opcode leaves is where the others start.
    rw [after_cons, ih, hset, hvalue]
    cases h : set? s op with
    | none => rw [List.filterMap_cons_none h, Option.getD_none]
    | some b => rw [List.filterMap_cons_some h, List.getLastD_cons, Option.getD_some]

/-- All primitives of an opcode are drawn in the style in front of it. -/
theorem map_style_drawn (s : State) (op : Opcode) :
    (s.drawn op).map Primitive.style = List.replicate op.primitiveCount s.style := by
  cases op with
  | shape w shape =>
    cases shape with
    | line a b => rfl
    | polyline ps =>
      cases ps with
      | nil => rfl
      | cons p ps => simp [drawn, step, resolveShape, Shape.walk, Shape.primitives, style,
          Primitive.style, Opcode.primitiveCount]
    | markers ps =>
      simp [drawn, step, resolveShape, Shape.walk, Shape.primitives, style, Primitive.style,
        Opcode.primitiveCount, Function.comp_def, List.map_const']
  | _ => rfl

theorem length_drawn (s : State) (op : Opcode) : (s.drawn op).length = op.primitiveCount := by
  have h := congrArg List.length (s.map_style_drawn op)
  rwa [List.length_map, List.length_replicate] at h

/-- Every primitive is either shown or hidden. -/
theorem length_along_shown_add_hidden (s : State) (ops : List Opcode) :
    (s.along shown ops).flatten.length + (s.along hidden ops).flatten.length =
      (s.along drawn ops).flatten.length := by
  induction ops generalizing s with
  | nil => rfl
  | cons op ops ih =>
    have hop : (s.shown op).length + (s.hidden op).length = (s.drawn op).length := by
      unfold shown hidden
      split <;> simp
    have hops := ih (s.step op).1
    simp only [along_cons, List.flatten_cons, List.length_append]
    omega

/-- The number of primitives does not depend on the state. -/
theorem length_along_drawn (s : State) (ops : List Opcode) :
    (s.along drawn ops).flatten.length = (ops.map Opcode.primitiveCount).sum := by
  induction ops generalizing s with
  | nil => rfl
  | cons op ops ih =>
    rw [along_cons, List.flatten_cons, List.length_append, length_drawn, ih, List.map_cons,
      List.sum_cons]

end State

namespace Diagnostic
variable {ignored : List String} {start : Nat} {op : Opcode} {ops : List Opcode}

/-- The names without a known meaning among opcodes whose first one has the given index. -/
def named (start : Nat) (ops : List Opcode) : List Diagnostic :=
  (ops.zipIdx start).filterMap fun (op, index) => op.unrecognized?.map (⟨index, ·⟩)

/-- A name is expected if it is empty or ignored. -/
def IsUnexpected (ignored : List String) (d : Diagnostic) : Prop :=
  d.name ≠ "" ∧ d.name ∉ ignored

instance : DecidablePred (IsUnexpected ignored) := fun _ => inferInstanceAs (Decidable (_ ∧ _))

/-- The reports on opcodes whose first one has the given index. -/
def reports (ignored : List String) (start : Nat) (ops : List Opcode) : List Diagnostic :=
  (named start ops).filter (IsUnexpected ignored ·)

/-- The same report on an opcode that stands further behind. -/
def shift (count : Nat) (d : Diagnostic) : Diagnostic := { d with index := d.index + count }

theorem reports_append (xs ys : List Opcode) : reports ignored start (xs ++ ys) =
    reports ignored start xs ++ reports ignored (start + xs.length) ys := by
  simp [reports, named, List.zipIdx_append]

theorem toArray_ofOpcode? :
    (ofOpcode? ignored start op).toArray = (reports ignored start [op]).toArray := by
  unfold ofOpcode? reports named
  cases h : op.unrecognized? with
  | none => simp [h]
  | some name =>
    by_cases hempty : name = ""
    · simp [h, hempty, IsUnexpected]
    · by_cases hignored : name ∈ ignored <;> simp [h, hempty, hignored, IsUnexpected]

theorem named_add (start count : Nat) (ops : List Opcode) :
    named (start + count) ops = (named start ops).map (shift count) := by
  rw [named, named, Nat.add_comm, ← List.map_snd_add_zipIdx_eq_zipIdx, List.filterMap_map,
    List.map_filterMap]
  congr 1
  funext ⟨op, index⟩
  simp [Function.comp_def, shift]

/-- Where an opcode stands makes no difference to whether it is reported. -/
theorem reports_add (start count : Nat) (ops : List Opcode) :
    reports ignored (start + count) ops = (reports ignored start ops).map (shift count) := by
  rw [reports, reports, named_add, List.filter_map]
  rfl

theorem mem_named_iff {d : Diagnostic} : d ∈ named start ops ↔
    start ≤ d.index ∧ ops[d.index - start]? = some (.unrecognized d.name) := by
  rw [named, List.mem_filterMap]
  constructor
  · rintro ⟨⟨op, index⟩, hmem, hop⟩
    obtain ⟨name, hname, rfl⟩ := Option.map_eq_some_iff.1 hop
    obtain rfl := Opcode.unrecognized?_eq_some_iff.1 hname
    exact List.mk_mem_zipIdx_iff_le_and_getElem?_sub.1 hmem
  · intro h
    exact ⟨(.unrecognized d.name, d.index), List.mk_mem_zipIdx_iff_le_and_getElem?_sub.2 h, rfl⟩

theorem mem_reports_iff {d : Diagnostic} : d ∈ reports ignored start ops ↔
    (start ≤ d.index ∧ ops[d.index - start]? = some (.unrecognized d.name)) ∧
      d.name ≠ "" ∧ d.name ∉ ignored := by
  rw [reports, List.mem_filter, mem_named_iff, decide_eq_true_iff]
  rfl

theorem index_of_mem_reports {d : Diagnostic} (h : d ∈ reports ignored start ops) :
    start ≤ d.index ∧ d.index < start + ops.length := by
  obtain ⟨⟨hle, hop⟩, -⟩ := mem_reports_iff.1 h
  obtain ⟨hlt, -⟩ := List.getElem?_eq_some_iff.1 hop
  omega

end Diagnostic

/-- The counters when some more opcodes have been met from a state on. -/
def Stats.behind (t : Stats) (s : State) (ops : List Opcode) : Stats where
  opcodes := t.opcodes + ops.length
  drawing := t.drawing + ops.countP Opcode.isDrawing
  emitted := t.emitted + (s.along State.shown ops).flatten.length
  suppressed := t.suppressed + (s.along State.hidden ops).flatten.length
  unsupported := t.unsupported + ops.countP Opcode.isUnsupported

theorem Stats.behind_nil (t : Stats) (s : State) : t.behind s [] = t := rfl

theorem Stats.behind_append (t : Stats) (s : State) (xs ys : List Opcode) :
    t.behind s (xs ++ ys) = (t.behind s xs).behind (s.after xs) ys := by
  simp [behind, Nat.add_assoc]

theorem Stats.count_eq (t : Stats) (op : Opcode) : t.count op =
    { t with
      opcodes := t.opcodes + 1
      drawing := t.drawing + [op].countP Opcode.isDrawing
      unsupported := t.unsupported + [op].countP Opcode.isUnsupported } := by
  cases op <;> rfl

theorem Device.drawAll_append {σ : Type} (device : Device σ) (xs ys : List Primitive) (s : σ) :
    device.drawAll (xs ++ ys) s = device.drawAll ys (device.drawAll xs s) :=
  List.foldl_append

namespace Pass
variable {σ : Type}

/-- The pass behind some more opcodes. -/
def behind (p : Pass σ) (ops : List Opcode) : Pass σ :=
  { p with
    surface := p.device.drawAll (p.state.along State.shown ops).flatten p.surface
    state := p.state.after ops
    diagnostics := p.diagnostics ++ (Diagnostic.reports p.ignored p.stats.opcodes ops).toArray
    stats := p.stats.behind p.state ops }

theorem behind_nil (p : Pass σ) : p.behind [] = p := by
  simp [behind, Device.drawAll, Stats.behind_nil, Diagnostic.reports, Diagnostic.named]

theorem behind_append (p : Pass σ) (xs ys : List Opcode) :
    p.behind (xs ++ ys) = (p.behind xs).behind ys := by
  simp [behind, Device.drawAll_append, Stats.behind_append, Diagnostic.reports_append]
  rfl

/-- The visibility that counts for an opcode is the one behind it. -/
theorem process_eq_behind (p : Pass σ) (op : Opcode) : p.process op = p.behind [op] := by
  by_cases h : (p.state.step op).1.visible
  · simp [process, behind, emit, h, State.shown, State.hidden, State.drawn, Stats.count_eq,
      Stats.behind, Diagnostic.toArray_ofOpcode?]
  · simp [process, behind, emit, h, State.shown, State.hidden, State.drawn, Stats.count_eq,
      Stats.behind, Diagnostic.toArray_ofOpcode?, Device.drawAll]

theorem execute_eq_behind (p : Pass σ) (ops : List Opcode) : p.execute ops = p.behind ops := by
  induction ops generalizing p with
  | nil => exact (behind_nil p).symm
  | cons op ops ih =>
    calc p.execute (op :: ops) = (p.process op).execute ops := rfl
      _ = (p.behind [op]).behind ops := by rw [process_eq_behind, ih]
      _ = p.behind (op :: ops) := (behind_append p [op] ops).symm

/-- A call that makes a pass go on. -/
inductive Call where
  | process (op : Opcode)
  | execute (ops : List Opcode)

def Call.opcodes : Call → List Opcode
  | process op => [op]
  | execute ops => ops

def call (p : Pass σ) : Call → Pass σ
  | .process op => p.process op
  | .execute ops => p.execute ops

/-- Makes calls one after the other. -/
def callAll (p : Pass σ) (calls : List Call) : Pass σ := calls.foldl call p

/-- A pass that has not been called. -/
def fresh (device : Device σ) (surface : σ) (state : State) (ignored : List String) : Pass σ :=
  { device, surface, state, ignored }

theorem call_eq_behind (p : Pass σ) (c : Call) : p.call c = p.behind c.opcodes := by
  cases c with
  | process op => exact p.process_eq_behind op
  | execute ops => exact p.execute_eq_behind ops

/-- It makes no difference how opcodes are split into calls. -/
theorem callAll_eq_behind (p : Pass σ) (calls : List Call) :
    p.callAll calls = p.behind (calls.flatMap Call.opcodes) := by
  induction calls generalizing p with
  | nil => exact (behind_nil p).symm
  | cons c calls ih =>
    rw [callAll, List.foldl_cons, call_eq_behind, List.flatMap_cons, behind_append]
    exact ih (p.behind c.opcodes)

end Pass

/-- The frame of a list of opcodes in closed form. -/
theorem Frame.ofOpcodes_eq (settings : Settings) (ops : List Opcode) :
    Frame.ofOpcodes settings ops =
      { primitives := (settings.initial.along State.shown ops).flatten
        report :=
          { stats := Stats.behind { } settings.initial ops
            diagnostics := Diagnostic.reports settings.ignored 0 ops
            point := (settings.initial.after ops).point } } := by
  simp [ofOpcodes, Pass.execute_eq_behind, Pass.behind, Pass.start, Pass.report, drawAll_recorder]

end Render

end VectorStream
