/-!
# Cursors

A cursor is a place in a byte sequence: the bytes that are still to be read, and how many came
before them. Moving forward is the order `Reaches`, and every way of moving a cursor keeps to it.
-/
namespace VectorStream

structure Cursor where
  offset : Nat
  rest : List UInt8
  deriving DecidableEq

namespace Cursor

def start (data : List UInt8) : Cursor := ⟨0, data⟩

def remaining (c : Cursor) : Nat := c.rest.length

def atEnd (c : Cursor) : Bool := c.rest.isEmpty

/-- The next byte, if there is one. -/
def peek (c : Cursor) : Option UInt8 := c.rest.head?

/-- The cursor behind the next byte; the end stays where it is. -/
def advance : Cursor → Cursor
  | ⟨offset, []⟩ => ⟨offset, []⟩
  | ⟨offset, _ :: rest⟩ => ⟨offset + 1, rest⟩

/-- The cursor behind all bytes. -/
def finish (c : Cursor) : Cursor := ⟨c.offset + c.rest.length, []⟩

/-- The cursor behind the longest run of bytes in a class. -/
def skipWhile (p : UInt8 → Bool) (c : Cursor) : Cursor :=
  let run := c.rest.takeWhile p
  ⟨c.offset + run.length, c.rest.drop run.length⟩

/-- The second cursor is the first one moved over some of its bytes. -/
def Reaches (c d : Cursor) : Prop :=
  ∃ read, c.rest = read ++ d.rest ∧ d.offset = c.offset + read.length

namespace Reaches

theorem refl (c : Cursor) : c.Reaches c := ⟨[], by simp⟩

theorem trans {c d e : Cursor} (h : c.Reaches d) (k : d.Reaches e) : c.Reaches e := by
  obtain ⟨xs, hx, hd⟩ := h
  obtain ⟨ys, hy, he⟩ := k
  exact ⟨xs ++ ys, by simp [hx, hy], by simp [hd, he]; omega⟩

theorem length_le {c d : Cursor} (h : c.Reaches d) : d.rest.length ≤ c.rest.length := by
  obtain ⟨read, hr, _⟩ := h
  simp [hr]

/-- Offset and remaining length always add up to the same total. -/
theorem total {c d : Cursor} (h : c.Reaches d) :
    d.offset + d.rest.length = c.offset + c.rest.length := by
  obtain ⟨read, hr, ho⟩ := h
  simp [hr, ho]
  omega

theorem offset_le {c d : Cursor} (h : c.Reaches d) : c.offset ≤ d.offset := by
  obtain ⟨read, -, ho⟩ := h
  omega

/-- Moving does not change where the data end. -/
theorem finish_eq {c d : Cursor} (h : c.Reaches d) : d.finish = c.finish := by
  rw [finish, finish, h.total]

theorem offset_add_length {data : List UInt8} {c : Cursor} (h : (start data).Reaches c) :
    c.offset + c.rest.length = data.length :=
  h.total.trans (Nat.zero_add data.length)

/-- The data behind the offset are still to be read. -/
theorem rest_eq {data : List UInt8} {c : Cursor} (h : (start data).Reaches c) :
    c.rest = data.drop c.offset := by
  obtain ⟨front, hdata, ho⟩ := h
  have hdata' : data = front ++ c.rest := hdata
  rw [ho, hdata', start, Nat.zero_add, List.drop_left]

/-- The bytes that are read between two cursors stand between their offsets in the data. -/
theorem rest_eq_extract_append {data : List UInt8} {c d : Cursor} (h : (start data).Reaches c)
    (k : c.Reaches d) : c.rest = data.extract c.offset d.offset ++ d.rest := by
  obtain ⟨read, hc, ho⟩ := k
  have hread : data.extract c.offset d.offset = read := by
    rw [List.extract_eq_take_drop, ← h.rest_eq, hc, ho, Nat.add_sub_cancel_left, List.take_left]
  rw [hread, hc]

end Reaches

theorem reaches_drop (c : Cursor) {count : Nat} (h : count ≤ c.rest.length) :
    c.Reaches ⟨c.offset + count, c.rest.drop count⟩ :=
  ⟨c.rest.take count, by simp, by simp [Nat.min_eq_left h]⟩

theorem reaches_finish (c : Cursor) : c.Reaches c.finish := ⟨c.rest, by simp [finish]⟩

theorem reaches_advance (c : Cursor) : c.Reaches c.advance := by
  obtain ⟨offset, rest⟩ := c
  cases rest with
  | nil => exact .refl _
  | cons b rest => exact ⟨[b], by simp [advance]⟩

theorem skipWhile_cons_of_pos {p : UInt8 → Bool} {b : UInt8} (h : p b) (offset : Nat)
    (rest : List UInt8) : skipWhile p ⟨offset, b :: rest⟩ = skipWhile p ⟨offset + 1, rest⟩ := by
  simp only [skipWhile, List.takeWhile_cons_of_pos h, List.length_cons, List.drop_succ_cons]
  rw [Nat.add_assoc, Nat.add_comm 1]

theorem skipWhile_cons_of_neg {p : UInt8 → Bool} {b : UInt8} (h : ¬ p b) (offset : Nat)
    (rest : List UInt8) : skipWhile p ⟨offset, b :: rest⟩ = ⟨offset, b :: rest⟩ := by
  simp only [skipWhile, List.takeWhile_cons_of_neg h, List.length_nil, List.drop_zero,
    Nat.add_zero]

/-- A run in the class is skipped whole if what follows it is not in the class. -/
theorem skipWhile_append {p : UInt8 → Bool} {run : List UInt8} (h : ∀ b ∈ run, p b) (offset : Nat)
    (rest : List UInt8) :
    skipWhile p ⟨offset, run ++ rest⟩ = skipWhile p ⟨offset + run.length, rest⟩ := by
  induction run generalizing offset with
  | nil => rfl
  | cons b run ih =>
    rw [List.cons_append, skipWhile_cons_of_pos (h b List.mem_cons_self), ih fun x hx =>
      h x (List.mem_cons_of_mem b hx), List.length_cons, Nat.add_assoc, Nat.add_comm 1]

/-- Every list is a run in a class and a rest that does not start in the class. -/
theorem exists_run (p : UInt8 → Bool) (bytes : List UInt8) :
    ∃ run rest, bytes = run ++ rest ∧ (∀ y ∈ run, p y) ∧ ∀ x v, rest = x :: v → ¬ p x := by
  induction bytes with
  | nil => exact ⟨[], [], by simp⟩
  | cons b bytes ih =>
    by_cases hb : p b
    · obtain ⟨run, rest, rfl, hr, hx⟩ := ih
      exact ⟨b :: run, rest, rfl, List.forall_mem_cons.2 ⟨hb, hr⟩, hx⟩
    · refine ⟨[], b :: bytes, rfl, by simp, ?_⟩
      rintro x v hv
      cases hv
      exact hb

/-- Where a run ends there is nothing to skip. -/
theorem skipWhile_of_head {p : UInt8 → Bool} {rest : List UInt8}
    (h : ∀ x v, rest = x :: v → ¬ p x) (offset : Nat) :
    skipWhile p ⟨offset, rest⟩ = ⟨offset, rest⟩ := by
  cases rest with
  | nil => rfl
  | cons x v => exact skipWhile_cons_of_neg (h x v rfl) offset v

theorem reaches_skipWhile (p : UInt8 → Bool) (c : Cursor) : c.Reaches (c.skipWhile p) := by
  apply reaches_drop
  exact (List.takeWhile_sublist p).length_le

end Cursor

end VectorStream
