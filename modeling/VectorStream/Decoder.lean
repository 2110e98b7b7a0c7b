import VectorStream.Dialect

/-!
# Decoding

A decoder walks over a stream opcode by opcode. Separators may stand before, between and behind
opcodes. The first error halts it; a halted decoder and one at the end of its data yield nothing
more.
-/
namespace VectorStream
open Text

structure Decoder where
  dialect : Dialect
  cursor : Cursor
  halted : Bool := false

namespace Decoder

def start (dialect : Dialect) (data : List UInt8) : Decoder :=
  { dialect, cursor := .start data }

/-- What the decoder yields next, and the decoder behind it. -/
def next (s : Decoder) : Option (Except StreamError Opcode) × Decoder :=
  if s.halted then (none, s)
  else
    let c := s.cursor.skipWhile Blank.isSeparator
    if c.atEnd then (none, { s with cursor := c })
    else
      match s.dialect.item c with
      | .ok op c' => (some (.ok op), { s with cursor := c' })
      | .error e c' => (some (.error e), { s with cursor := c', halted := true })

/-- How many steps a decoder has left at most. -/
def pending (s : Decoder) : Nat := if s.halted then 0 else s.cursor.rest.length + 1

theorem pending_next_lt {s t : Decoder} {result : Except StreamError Opcode}
    (h : s.next = (some result, t)) : t.pending < s.pending := by
  unfold next at h
  split at h
  · cases h
  · rename_i hs
    simp only at h
    split at h
    · cases h
    · split at h
      · rename_i op c' hi
        cases h
        have h₁ := Dialect.length_rest_lt_of_item hi
        have h₂ := (s.cursor.reaches_skipWhile Blank.isSeparator).length_le
        simp only [pending, hs, if_false, Bool.false_eq_true]
        omega
      · cases h
        simp [pending, hs]

/-- One thing a decoder yields, with the offset behind it. -/
structure Item where
  result : Except StreamError Opcode
  tell : Nat

def itemsFrom (found : List Item) (s : Decoder) : List Item × Decoder :=
  match _step : s.next with
  | (none, t) => (found.reverse, t)
  | (some result, t) => itemsFrom (⟨result, t.cursor.offset⟩ :: found) t
termination_by s.pending
decreasing_by exact pending_next_lt _step

/-- All that a decoder yields, and the decoder at the end. -/
def items (s : Decoder) : List Item × Decoder := itemsFrom [] s

end Decoder

/-- The opcodes of a stream, or the error that ends it. -/
def Dialect.decode (d : Dialect) (data : List UInt8) : Except StreamError (List Opcode) :=
  (Decoder.start d data).items.1.mapM (·.result)

end VectorStream
