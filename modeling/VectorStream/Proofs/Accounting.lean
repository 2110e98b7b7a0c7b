import VectorStream.Proofs.Execution
import VectorStream.Proofs.RoundTrip

/-!
# Accounting

The counters of a pass add up. They count the opcodes by kind, every primitive is either emitted or
suppressed, and the emitted ones are the calls that the device sees. No count of points in a stream
is zero, so each opcode that was read from one and draws has a primitive.
-/
namespace VectorStream

/-- Lists of points that are read have points in them, so what is read to draw does draw. -/
theorem Form.Spells.primitiveCount_pos {form : Form} {op : Opcode} {w : List UInt8}
    (h : form.Spells op w) (hop : op.isDrawing) : 0 < op.primitiveCount := by
  cases h with
  | line a b => exact Nat.one_pos
  | polyline ps h =>
    obtain ⟨p, rest, rfl⟩ := List.exists_cons_of_length_pos h.1
    exact Nat.one_pos
  | markers ps h => exact h.1
  | text anchor units h => exact Nat.one_pos
  | extended name payload hname hend hclose =>
    exact absurd hop (Keywords.not_isDrawing_standardMeaning _ _)
  | _ => cases hop

theorem Dialect.primitiveCount_pos_of_decode {data : List UInt8} {ops : List Opcode}
    (h : standard.decode data = .ok ops) {op : Opcode} (hop : op ∈ ops) (hdraw : op.isDrawing) :
    0 < op.primitiveCount := by
  obtain ⟨form, w, -, hw⟩ := exists_spells_of_decode h hop
  exact hw.primitiveCount_pos hdraw

namespace Opcode

theorem countP_isDrawing_le {ops : List Opcode}
    (h : ∀ op ∈ ops, op.isDrawing → 0 < op.primitiveCount) :
    ops.countP isDrawing ≤ (ops.map primitiveCount).sum := by
  induction ops with
  | nil => exact Nat.le_refl 0
  | cons op ops ih =>
    obtain ⟨hop, hops⟩ := List.forall_mem_cons.1 h
    have hrest := ih hops
    rw [List.map_cons, List.sum_cons]
    by_cases hdraw : op.isDrawing
    · have hpos := hop hdraw
      rw [List.countP_cons_of_pos hdraw]
      omega
    · rw [List.countP_cons_of_neg hdraw]
      omega

/-- A chain without points, which no stream holds, is an opcode that draws and has no primitive. -/
example : ¬ [shape .short (.polyline [])].countP isDrawing ≤
    ([shape .short (.polyline [])].map primitiveCount).sum := by
  decide

end Opcode

namespace Render

namespace Device
variable {σ : Type}

/-- A device that counts the calls that draw and passes all calls on. -/
def counting (device : Device σ) : Device (σ × Nat) where
  beginFrame s := (device.beginFrame s.1, s.2)
  endFrame s := (device.endFrame s.1, s.2)
  line a b style s := (device.line a b style s.1, s.2 + 1)
  polyline ps style s := (device.polyline ps style s.1, s.2 + 1)
  marker p style s := (device.marker p style s.1, s.2 + 1)
  text p content style s := (device.text p content style s.1, s.2 + 1)

theorem draw_counting (device : Device σ) (s : σ) (n : Nat) (p : Primitive) :
    p.draw device.counting (s, n) = (p.draw device s, n + 1) := by
  cases p <;> rfl

theorem drawAll_counting (device : Device σ) (primitives : List Primitive) (s : σ) (n : Nat) :
    device.counting.drawAll primitives (s, n) =
      (device.drawAll primitives s, n + primitives.length) := by
  induction primitives generalizing s n with
  | nil => rfl
  | cons p rest ih =>
    calc device.counting.drawAll (p :: rest) (s, n)
      _ = device.counting.drawAll rest (p.draw device.counting (s, n)) := rfl
      _ = (device.drawAll rest (p.draw device s), n + 1 + rest.length) := by
        rw [draw_counting, ih]
      _ = (device.drawAll (p :: rest) s, n + (p :: rest).length) := by
        rw [List.length_cons, Nat.add_right_comm, Nat.add_assoc]
        rfl

end Device

/-- An opcode is reported, draws or is unsupported, and it is never two of these. -/
theorem Diagnostic.length_reports_add_le (ignored : List String) (start : Nat)
    (ops : List Opcode) :
    (reports ignored start ops).length + ops.countP Opcode.isDrawing +
      ops.countP Opcode.isUnsupported ≤ ops.length := by
  induction ops generalizing start with
  | nil => exact Nat.le_refl 0
  | cons op ops ih =>
    -- One opcode counts in one of the three ways at most.
    have hop : (reports ignored start [op]).length + [op].countP Opcode.isDrawing +
        [op].countP Opcode.isUnsupported ≤ 1 := by
      cases op with
      | unrecognized name => exact List.length_filter_le _ _
      | shape | text | unsupported => exact Nat.le_refl 1
      | _ => exact Nat.zero_le 1
    have hops := ih (start + 1)
    rw [← List.singleton_append, reports_append, List.length_append, List.countP_append,
      List.countP_append, List.length_append, List.length_singleton]
    omega

/-- How counters and a number of reports fit the opcodes that were met. -/
structure Stats.Balances (t : Stats) (reports : Nat) (ops : List Opcode) : Prop where
  opcodes : t.opcodes = ops.length
  drawing : t.drawing = ops.countP Opcode.isDrawing
  unsupported : t.unsupported = ops.countP Opcode.isUnsupported
  primitives : t.emitted + t.suppressed = (ops.map Opcode.primitiveCount).sum
  reports : t.drawing + t.unsupported + reports ≤ t.opcodes

theorem Stats.balances_nil : Stats.Balances { } 0 [] := ⟨rfl, rfl, rfl, rfl, Nat.le_refl 0⟩

namespace Pass
variable {σ : Type}

/-- Counters that fit the opcodes so far still fit when a pass has met some more. -/
theorem balances_behind {p : Pass σ} {xs : List Opcode}
    (h : p.stats.Balances p.diagnostics.size xs) (ys : List Opcode) :
    (p.behind ys).stats.Balances (p.behind ys).diagnostics.size (xs ++ ys) := by
  have hprimitives := p.state.length_along_shown_add_hidden ys
  rw [State.length_along_drawn] at hprimitives
  have hreports := Diagnostic.length_reports_add_le p.ignored p.stats.opcodes ys
  constructor
  case opcodes => simp [behind, Stats.behind, h.opcodes]
  case drawing => simp [behind, Stats.behind, h.drawing]
  case unsupported => simp [behind, Stats.behind, h.unsupported]
  case primitives =>
    have hbefore := h.primitives
    simp only [behind, Stats.behind, List.map_append, List.sum_append]
    omega
  case reports =>
    have hbefore := h.reports
    simp only [behind, Stats.behind, Array.size_append, List.size_toArray]
    omega

theorem balances_callAll_fresh (device : Device σ) (surface : σ) (state : State)
    (ignored : List String) (calls : List Call) :
    let p := (fresh device surface state ignored).callAll calls
    p.stats.Balances p.diagnostics.size (calls.flatMap Call.opcodes) := by
  intro p
  have h := balances_behind (p := fresh device surface state ignored) Stats.balances_nil
    (calls.flatMap Call.opcodes)
  rwa [← callAll_eq_behind, List.nil_append] at h

/-- A pass on the device that counts, with as many calls behind it as the counters say. -/
def counting (p : Pass σ) : Pass (σ × Nat) where
  device := p.device.counting
  surface := (p.surface, p.stats.emitted)
  state := p.state
  ignored := p.ignored
  diagnostics := p.diagnostics
  stats := p.stats

theorem callAll_counting (p : Pass σ) (calls : List Call) :
    p.counting.callAll calls = (p.callAll calls).counting := by
  rw [callAll_eq_behind, callAll_eq_behind]
  -- In closed form the two passes differ in their devices and surfaces alone.
  unfold behind counting
  simp only
  rw [Device.drawAll_counting]
  rfl

end Pass

namespace Frame

theorem balances_ofOpcodes (settings : Settings) (ops : List Opcode) :
    let report := (ofOpcodes settings ops).report
    report.stats.Balances report.diagnostics.length ops := by
  have h := Pass.balances_behind (p := Pass.start settings recorder { }) Stats.balances_nil ops
  rw [← Pass.execute_eq_behind] at h
  exact h

theorem emitted_ofOpcodes (settings : Settings) (ops : List Opcode) :
    (ofOpcodes settings ops).report.stats.emitted = (ofOpcodes settings ops).primitives.length := by
  rw [ofOpcodes_eq]
  exact Nat.zero_add _

end Frame

open Pass

/-- The accounting of a pass, whatever the device and the state it starts with, and however the
opcodes are split into calls: the counters fit the opcodes, and what is emitted are the calls that
the device sees. In a frame of a stream what is emitted are the primitives it holds, and there is at
least one, shown or hidden, for each opcode that draws. -/
theorem accounting_balances :
    (∀ (σ : Type) (device : Device σ) (surface : σ) (state : State) (ignored : List String)
        (calls : List Call),
      let p := (fresh device surface state ignored).callAll calls
      let q := (fresh device.counting (surface, 0) state ignored).callAll calls
      p.stats.Balances p.diagnostics.size (calls.flatMap Call.opcodes) ∧
        q.surface = (p.surface, p.stats.emitted)) ∧
    ∀ (data : List UInt8) (settings : Settings) (frame : Frame),
      Frame.ofStream .standard settings data = .ok frame →
      let stats := frame.report.stats
      (∃ ops, Dialect.standard.decode data = .ok ops ∧
        stats.Balances frame.report.diagnostics.length ops) ∧
      stats.emitted = frame.primitives.length ∧
      stats.drawing ≤ stats.emitted + stats.suppressed := by
  constructor
  · intro σ device surface state ignored calls p q
    have hcounting : q = p.counting := callAll_counting (fresh device surface state ignored) calls
    exact ⟨balances_callAll_fresh device surface state ignored calls,
      congrArg Pass.surface hcounting⟩
  · intro data settings frame h stats
    cases hdecode : Dialect.standard.decode data with
    | error e =>
      rw [Frame.ofStream, hdecode] at h
      cases h
    | ok ops =>
      rw [Frame.ofStream, hdecode] at h
      obtain rfl : Frame.ofOpcodes settings ops = frame := Except.ok.inj h
      have hbalances := Frame.balances_ofOpcodes settings ops
      refine ⟨⟨ops, rfl, hbalances⟩, Frame.emitted_ofOpcodes settings ops, ?_⟩
      rw [hbalances.drawing, hbalances.primitives]
      apply Opcode.countP_isDrawing_le
      intro op hop
      exact Dialect.primitiveCount_pos_of_decode hdecode hop

/-- Two markers that are hidden and a chain that is shown make three primitives of two opcodes. -/
theorem accounting_balances_hidden_markers :
    let data : List UInt8 := [0x76, 0x8D, 2, 1, 0, 1, 0, 2, 0, 2, 0, 0x56, 0x70, 1, 3, 0, 3, 0]
    ∃ frame, Frame.ofStream .standard { } data = .ok frame ∧
      frame.report.stats = { opcodes := 4, drawing := 2, emitted := 1, suppressed := 2 } ∧
      frame.primitives.length = 1 := by
  intro data
  let markers : List (Point .short) := [⟨(1 : Int16), (1 : Int16)⟩, ⟨(2 : Int16), (2 : Int16)⟩]
  let ops : List Opcode := [.visibility false, .shape .short (.markers markers), .visibility true,
    .shape .short (.polyline [⟨(3 : Int16), (3 : Int16)⟩])]
  have hrun : Run .standard (.start data) ops none ⟨18, []⟩ :=
    .item_of_head (by decide) rfl <| .item_of_head (by decide) rfl <|
      .item_of_head (by decide) rfl <| .item_of_head (by decide) rfl <| .finish rfl
  have hframe : Frame.ofStream .standard { } data = .ok (Frame.ofOpcodes { } ops) := by
    rw [Frame.ofStream, Dialect.decode_of_run hrun]
    rfl
  have hstats : (Frame.ofOpcodes { } ops).report.stats =
      { opcodes := 4, drawing := 2, emitted := 1, suppressed := 2 } := by decide +kernel
  obtain ⟨-, hemitted, -⟩ := accounting_balances.2 data { } _ hframe
  exact ⟨_, hframe, hstats, by rw [← hemitted, hstats]⟩

end Render

end VectorStream
