import VectorStream.Proofs.Concatenation
import VectorStream.Proofs.Execution

/-!
# Splicing

Opcodes that are skipped can be spliced into a stream between two of its opcodes. The drawing stays
the same: only the reports on the new opcodes come in, and everything behind them is met further
behind.
-/
namespace VectorStream
open Text

/-- An opcode without an effect on the drawing. -/
def Opcode.isSkipped : Opcode → Bool
  | unsupported _ | unrecognized _ => true
  | _ => false

/-- A name that is no keyword is an instruction without an effect. -/
theorem Instruction.bare (name : List UInt8) (hname : name.all fun b => !Payload.endsName b)
    {text : String} (htext : Utf8.decodeLossy name = text) (hkey : text ≠ Operand.lineWeightName) :
    Instruction (.unrecognized text) (0x28 :: (name ++ [Payload.closing])) := by
  have hend : ∀ b v, [Payload.closing] = b :: v → Payload.endsName b := by
    intro b v h
    obtain ⟨rfl, -⟩ := List.cons.inj h
    decide
  have hmeaning : Keywords.standardMeaning (Utf8.decodeLossy name) [] = .unrecognized text := by
    rw [Keywords.standardMeaning, htext, if_neg hkey]
  have hword := Form.Spells.extended name [] (by simpa using hname) hend Payload.closes_nil
  rw [hmeaning] at hword
  exact .intro (by decide) hword

namespace Render

namespace State
variable {α : Type} {es : List Opcode}

theorem step_of_isSkipped {op : Opcode} (h : op.isSkipped) (s : State) : s.step op = (s, []) := by
  cases op with
  | unsupported id => rfl
  | unrecognized name => rfl
  | _ => cases h

theorem after_of_isSkipped (h : ∀ op ∈ es, op.isSkipped) (s : State) : s.after es = s := by
  induction es with
  | nil => rfl
  | cons op es ih =>
    obtain ⟨hop, hes⟩ := List.forall_mem_cons.1 h
    rw [after_cons, step_of_isSkipped hop, ih hes]

theorem flatten_along_of_isSkipped {f : State → Opcode → List α}
    (hf : ∀ s op, op.isSkipped → f s op = []) (h : ∀ op ∈ es, op.isSkipped) (s : State) :
    (s.along f es).flatten = [] := by
  induction es generalizing s with
  | nil => rfl
  | cons op es ih =>
    obtain ⟨hop, hes⟩ := List.forall_mem_cons.1 h
    rw [along_cons, List.flatten_cons, hf s op hop, ih hes, List.nil_append]

theorem drawn_of_isSkipped (s : State) {op : Opcode} (h : op.isSkipped) : s.drawn op = [] := by
  rw [drawn, step_of_isSkipped h]

theorem shown_of_isSkipped (s : State) (op : Opcode) (h : op.isSkipped) : s.shown op = [] := by
  rw [shown, drawn_of_isSkipped s h, ite_self]

theorem hidden_of_isSkipped (s : State) (op : Opcode) (h : op.isSkipped) : s.hidden op = [] := by
  rw [hidden, drawn_of_isSkipped s h, ite_self]

end State

theorem countP_isDrawing_of_isSkipped {es : List Opcode} (h : ∀ op ∈ es, op.isSkipped) :
    es.countP Opcode.isDrawing = 0 := by
  rw [List.countP_eq_zero]
  intro op hop
  have hskip := h op hop
  cases op with
  | unsupported id => exact Bool.false_ne_true
  | unrecognized name => exact Bool.false_ne_true
  | _ => cases hskip

namespace Diagnostic
variable (ignored : List String) (start : Nat) (xs ys : List Opcode)

/-- The reports on the opcodes in front of a place are told by their indices. -/
theorem filter_reports_front :
    (reports ignored start (xs ++ ys)).filter (·.index < start + xs.length) =
      reports ignored start xs := by
  have hfront : ∀ d ∈ reports ignored start xs, d.index < start + xs.length :=
    fun d hd => (index_of_mem_reports hd).2
  have hback : ∀ d ∈ reports ignored (start + xs.length) ys, ¬ d.index < start + xs.length :=
    fun d hd => Nat.not_lt.2 (index_of_mem_reports hd).1
  rw [reports_append, List.filter_append, List.filter_eq_self.2 (by simpa using hfront),
    List.filter_eq_nil_iff.2 (by simpa using hback), List.append_nil]

theorem filter_reports_back :
    (reports ignored start (xs ++ ys)).filter (start + xs.length ≤ ·.index) =
      reports ignored (start + xs.length) ys := by
  have hfront : ∀ d ∈ reports ignored start xs, ¬ start + xs.length ≤ d.index :=
    fun d hd => Nat.not_le.2 (index_of_mem_reports hd).2
  have hback : ∀ d ∈ reports ignored (start + xs.length) ys, start + xs.length ≤ d.index :=
    fun d hd => (index_of_mem_reports hd).1
  rw [reports_append, List.filter_append, List.filter_eq_nil_iff.2 (by simpa using hfront),
    List.filter_eq_self.2 (by simpa using hback), List.nil_append]

end Diagnostic

/-- The second frame differs from the first one by skipped opcodes in front of the opcode at an
index, as far as these are reported. -/
structure Frame.Spliced (ignored : List String) (start : Nat) (es : List Opcode) (f g : Frame) :
    Prop where
  primitives : g.primitives = f.primitives
  point : g.report.point = f.report.point
  drawing : g.report.stats.drawing = f.report.stats.drawing
  emitted : g.report.stats.emitted = f.report.stats.emitted
  suppressed : g.report.stats.suppressed = f.report.stats.suppressed
  diagnostics : g.report.diagnostics =
    f.report.diagnostics.filter (·.index < start) ++ Diagnostic.reports ignored start es
      ++ (f.report.diagnostics.filter (start ≤ ·.index)).map (Diagnostic.shift es.length)

namespace Frame

theorem spliced_ofOpcodes (settings : Settings) {es : List Opcode} (h : ∀ op ∈ es, op.isSkipped)
    (xs ys : List Opcode) :
    Spliced settings.ignored xs.length es (ofOpcodes settings (xs ++ ys))
      (ofOpcodes settings (xs ++ es ++ ys)) := by
  have hshown := State.flatten_along_of_isSkipped State.shown_of_isSkipped h
  have hhidden := State.flatten_along_of_isSkipped State.hidden_of_isSkipped h
  have hafter := State.after_of_isSkipped h
  have hdrawing := countP_isDrawing_of_isSkipped h
  rw [ofOpcodes_eq, ofOpcodes_eq]
  constructor
  case diagnostics =>
    have hfront := Diagnostic.filter_reports_front settings.ignored 0 xs ys
    have hback := Diagnostic.filter_reports_back settings.ignored 0 xs ys
    rw [Nat.zero_add] at hfront hback
    rw [hfront, hback, ← Diagnostic.reports_add, Diagnostic.reports_append,
      Diagnostic.reports_append, List.length_append, Nat.zero_add, Nat.zero_add]
  all_goals simp [Stats.behind, hshown, hhidden, hafter, hdrawing]

theorem ofStream_of_run {data : List UInt8} {ops : List Opcode} {stop : Option StreamError}
    {c : Cursor} (h : Run .standard (.start data) ops stop c) (settings : Settings) :
    ofStream .standard settings data = (Dialect.outcome ops stop).map (ofOpcodes settings) := by
  rw [ofStream, Dialect.decode_of_run h]

/-- Skipped opcodes that are spliced into a stream change neither whether it can be drawn nor what
it draws. The reports on them come in at their places and those behind them move along, and so does
an error. -/
theorem ofStream_splice {a x : List UInt8} {xs es : List Opcode}
    (ha : Dialect.standard.decode a = .ok xs) (hx : Dialect.standard.decode x = .ok es)
    (hes : ∀ op ∈ es, op.isSkipped) (b : List UInt8) (settings : Settings) :
    ((∃ g, ofStream .standard settings (a ++ x ++ b) = .ok g) ↔
      ∃ f, ofStream .standard settings (a ++ b) = .ok f) ∧
    (∀ f g, ofStream .standard settings (a ++ b) = .ok f →
      ofStream .standard settings (a ++ x ++ b) = .ok g →
      Spliced settings.ignored xs.length es f g) ∧
    ∀ e e', ofStream .standard settings (a ++ b) = .error e →
      ofStream .standard settings (a ++ x ++ b) = .error e' → e' = e.shift x.length := by
  -- Both streams end with the same rest, of which there is one run.
  obtain ⟨ys, stop, c, hb⟩ := Run.exists_run .standard (.start b)
  obtain ⟨c₁, hab⟩ := Run.behind_accepted ha hb
  obtain ⟨c₂, hxb⟩ := Run.behind_accepted hx hb
  obtain ⟨c₃, haxb⟩ := Run.behind_accepted ha hxb
  rw [← List.append_assoc, ← List.append_assoc] at haxb
  rw [ofStream_of_run hab, ofStream_of_run haxb]
  cases stop with
  | none =>
    refine ⟨iff_of_true ⟨_, rfl⟩ ⟨_, rfl⟩, ?_, by rintro e e' ⟨⟩⟩
    rintro f g ⟨⟩ ⟨⟩
    exact spliced_ofOpcodes settings hes xs ys
  | some e =>
    refine ⟨iff_of_false (by rintro ⟨g, ⟨⟩⟩) (by rintro ⟨f, ⟨⟩⟩), (by rintro f g ⟨⟩), ?_⟩
    rintro e₁ e₂ ⟨⟩ ⟨⟩
    rw [← StreamError.shift_add, ← StreamError.shift_add, Nat.add_comm]

/-- A name in front of another one is reported at its place, and the other one moves by one. -/
theorem ofStream_splice_name :
    let a : List UInt8 := [0x56]
    let x : List UInt8 := [0x20, 0x28, 0x46, 0x6F, 0x6E, 0x74, 0x29]
    let b : List UInt8 := [0x28, 0x49, 0x6E, 0x6B, 0x29]
    Dialect.standard.decode a = .ok [.visibility true] ∧
      Dialect.standard.decode x = .ok [.unrecognized "Font"] ∧
      ∃ f g, ofStream .standard { } (a ++ b) = .ok f ∧
        ofStream .standard { } (a ++ x ++ b) = .ok g ∧
        f.report.diagnostics = [⟨1, "Ink"⟩] ∧ g.report.diagnostics = [⟨1, "Font"⟩, ⟨2, "Ink"⟩] := by
  intro a x b
  have ha : Run .standard (.start a) [.visibility true] none ⟨1, []⟩ :=
    .item_of_head (by decide) rfl (.finish rfl)
  have hfont : Instruction (.unrecognized "Font") x.tail :=
    .bare [0x46, 0x6F, 0x6E, 0x74] rfl (by decide +kernel) (by decide)
  have hx : Run .standard (.start x) [.unrecognized "Font"] none ⟨7, []⟩ :=
    .separator (by decide)
      (.item_of_head (by decide) (Dialect.reads_item.accepts hfont 1 []) (.finish rfl))
  have hink : Instruction (.unrecognized "Ink") b :=
    .bare [0x49, 0x6E, 0x6B] rfl (by decide +kernel) (by decide)
  have hb : Run .standard (.start b) [.unrecognized "Ink"] none ⟨5, []⟩ :=
    .item_of_head (by decide) (Dialect.reads_item.accepts hink 0 []) (.finish rfl)
  obtain ⟨c, hab⟩ := Run.behind_accepted (Dialect.decode_of_run ha) hb
  have hf : ofStream .standard { } (a ++ b) =
      .ok (ofOpcodes { } [.visibility true, .unrecognized "Ink"]) := ofStream_of_run hab { }
  have hreports : (ofOpcodes { } [.visibility true, .unrecognized "Ink"]).report.diagnostics =
      [⟨1, "Ink"⟩] := by
    rw [ofOpcodes_eq]
    decide
  obtain ⟨hiff, hspliced, -⟩ := ofStream_splice (Dialect.decode_of_run ha)
    (Dialect.decode_of_run hx) (by decide) b { }
  obtain ⟨g, hg⟩ := hiff.2 ⟨_, hf⟩
  refine ⟨Dialect.decode_of_run ha, Dialect.decode_of_run hx, _, g, hf, hg, hreports, ?_⟩
  rw [(hspliced _ g hf hg).diagnostics, hreports]
  decide

end Frame

end Render

end VectorStream
