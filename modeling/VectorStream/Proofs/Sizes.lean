import Mathlib.Algebra.Order.BigOperators.Group.List
import Mathlib.Algebra.Order.Group.Nat
import VectorStream.Proofs.Accounting
import VectorStream.Proofs.Surrogates

/-!
# Sizes of what is decoded

Every point and every unit of a text that is decoded has bytes of its own in the stream, beside the
id byte of its opcode. So nothing that is decoded or drawn outgrows its stream.
-/
namespace VectorStream
open Text

namespace Opcode

/-- The points that an opcode draws with; a text has its anchor. -/
def pointCount : Opcode → Nat
  | shape _ s => s.points.length
  | text .. => 1
  | _ => 0

/-- The UTF-16 units of the text that an opcode draws. -/
def unitCount : Opcode → Nat
  | text _ content => (Utf16.encode content).length
  | _ => 0

/-- Lists of points and texts are as long as a count can say. -/
def ListsLegal : Opcode → Prop
  | shape _ (.polyline ps) | shape _ (.markers ps) => Count.Legal ps.length
  | text _ content => Count.Legal (Utf16.encode content).length
  | _ => True

theorem counts_of_not_isDrawing {op : Opcode} (h : ¬ op.isDrawing) :
    op.pointCount = 0 ∧ op.unitCount = 0 ∧ op.ListsLegal := by
  cases op with
  | shape w s => exact absurd rfl h
  | text anchor content => exact absurd rfl h
  | _ => exact ⟨rfl, rfl, trivial⟩

/-- A primitive takes a point at least. -/
theorem primitiveCount_le_pointCount (op : Opcode) : op.primitiveCount ≤ op.pointCount := by
  cases op with
  | shape w s =>
    cases s with
    | line a b => exact Nat.le_succ 1
    | polyline ps =>
      cases ps with
      | nil => exact Nat.le_refl 0
      | cons p ps => exact Nat.succ_le_succ (Nat.zero_le _)
    | markers ps => exact Nat.le_refl _
  | _ => exact Nat.le_refl _

end Opcode

namespace Form.Spells
variable {form : Form} {op : Opcode} {w : List UInt8}

/-- A point takes four bytes or eight, and a unit two. -/
theorem size_le (h : form.Spells op w) : 4 * op.pointCount + 2 * op.unitCount ≤ w.length := by
  have hlist {v : Width} (ps : List (Point v)) :
      4 * ps.length ≤ (Count.bytes ps.length ++ ps.flatMap Point.bytes).length := by
    rw [List.length_append, length_flatMap_bytes Point.length_bytes]
    cases v <;> simp only [Width.size] <;> omega
  cases h with
  | @line v a b =>
    rw [List.length_append, Point.length_bytes, Point.length_bytes]
    change 4 * 2 + 2 * 0 ≤ _
    cases v <;> decide
  | polyline ps _ => exact hlist ps
  | markers ps _ => exact hlist ps
  | text anchor units _ =>
    simp only [Opcode.pointCount, Opcode.unitCount, Utf16.length_encode_decodeLossy,
      List.length_append, Point.length_bytes, Width.size,
      length_flatMap_bytes length_unitBytes]
    omega
  | extended name payload _ _ _ =>
    obtain ⟨hpoints, hunits, -⟩ :=
      Opcode.counts_of_not_isDrawing (Keywords.not_isDrawing_standardMeaning _ _)
    rw [hpoints, hunits]
    exact Nat.zero_le _
  | _ => exact Nat.zero_le _

theorem listsLegal (h : form.Spells op w) : op.ListsLegal := by
  cases h with
  | polyline ps hcount => exact hcount
  | markers ps hcount => exact hcount
  | text anchor units hcount =>
    rw [Opcode.ListsLegal, Utf16.length_encode_decodeLossy]
    exact hcount
  | extended name payload _ _ _ =>
    exact (Opcode.counts_of_not_isDrawing (Keywords.not_isDrawing_standardMeaning _ _)).2.2
  | _ => exact trivial

end Form.Spells

namespace Token
open Opcode

theorem size_le (tokens : List Token) :
    4 * ((opcodes tokens).map pointCount).sum + 2 * ((opcodes tokens).map unitCount).sum +
      (opcodes tokens).length ≤ (text tokens).length := by
  induction tokens with
  | nil => exact Nat.le_refl 0
  | cons t tokens ih =>
    rw [text_cons, List.length_append]
    cases t with
    | separator b h =>
      rw [opcodes_separator]
      omega
    | instruction id payload op hid h =>
      have hpayload : 4 * op.pointCount + 2 * op.unitCount ≤ payload.length := by
        cases h with
        | intro hmem hw => exact hw.size_le
      simp only [opcodes_instruction, List.map_cons, List.sum_cons, List.length_cons, bytes]
      omega

end Token

namespace Render
open Opcode

/-- What is decoded fits into its stream, with four bytes for a point, two for a unit and one for
an opcode. No list is empty or longer than the greatest count, and the primitives that are drawn or
suppressed are no more than a quarter of the bytes. -/
theorem decoded_sizes_bounded {data : List UInt8} {ops : List Opcode}
    (h : Dialect.standard.decode data = .ok ops) :
    4 * (ops.map pointCount).sum + 2 * (ops.map unitCount).sum + ops.length ≤ data.length ∧
      (∀ op ∈ ops, op.ListsLegal) ∧
      ∀ settings, ∃ frame, Frame.ofStream .standard settings data = .ok frame ∧
        frame.report.stats.emitted + frame.report.stats.suppressed ≤ data.length / 4 := by
  have hsize : 4 * (ops.map pointCount).sum + 2 * (ops.map unitCount).sum + ops.length ≤
      data.length := by
    obtain ⟨tokens, rfl, rfl⟩ := Dialect.exists_text_of_decode h
    exact Token.size_le tokens
  refine ⟨hsize, ?_, ?_⟩
  · intro op hop
    obtain ⟨form, w, -, hw⟩ := Dialect.exists_spells_of_decode h hop
    exact hw.listsLegal
  · intro settings
    refine ⟨Frame.ofOpcodes settings ops, ?_, ?_⟩
    · rw [Frame.ofStream, h]
      rfl
    · have hprimitives : (ops.map primitiveCount).sum ≤ (ops.map pointCount).sum :=
        List.sum_le_sum fun op _ => op.primitiveCount_le_pointCount
      rw [(Frame.balances_ofOpcodes settings ops).primitives]
      omega

/-- A line needs all of its nine bytes. A text needs all but the one of its count, whether or not a
surrogate is replaced in it. -/
theorem decoded_sizes_bounded_line_text :
    let data : List UInt8 := [0x6C, 1, 0, 2, 0, 3, 0, 4, 0,
      0x78, 0, 0, 0, 0, 3, 0x3D, 0xD8, 0x00, 0xDE, 0x00, 0xD8]
    ∃ ops, Dialect.standard.decode data = .ok ops ∧
      (ops.map pointCount).sum = 3 ∧ (ops.map unitCount).sum = 3 ∧
      4 * (ops.map pointCount).sum + 2 * (ops.map unitCount).sum + ops.length ≤ data.length ∧
      (∀ op ∈ ops, op.ListsLegal) ∧
      ∃ frame, Frame.ofStream .standard { } data = .ok frame ∧
        frame.report.stats.emitted + frame.report.stats.suppressed ≤ data.length / 4 := by
  intro data
  let ops : List Opcode := [.shape .short (.line ⟨(1 : Int16), (2 : Int16)⟩
      ⟨(3 : Int16), (4 : Int16)⟩),
    .text ⟨(0 : Int16), (0 : Int16)⟩ (Utf16.decodeLossy [0xD83D, 0xDE00, 0xD800])]
  have hrun : Run .standard (.start data) ops none ⟨21, []⟩ :=
    .item_of_head (by decide) rfl <| .item_of_head (by decide) rfl <| .finish rfl
  have hdecode := Dialect.decode_of_run hrun
  obtain ⟨hsize, hlegal, hframe⟩ := decoded_sizes_bounded hdecode
  exact ⟨ops, hdecode, by decide, by decide, hsize, hlegal, hframe { }⟩

end Render

end VectorStream
