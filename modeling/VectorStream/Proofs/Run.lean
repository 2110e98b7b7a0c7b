import VectorStream.Decoder

/-!
# Runs of a decoder

A run says what a decoder at a cursor yields up to its end: opcodes, and perhaps an error that halts
it. Every cursor has exactly one run, and decoding a stream returns what its run says.
-/
namespace VectorStream
open Text

/-- From a cursor a decoder yields the opcodes, stops with the error if there is one, and is then at
the last cursor. -/
inductive Run (d : Dialect) : Cursor → List Opcode → Option StreamError → Cursor → Prop
  | finish {c : Cursor} (h : (c.skipWhile Blank.isSeparator).rest = []) :
    Run d c [] none (c.skipWhile Blank.isSeparator)
  | halt {c c' : Cursor} {e : StreamError} (h : (c.skipWhile Blank.isSeparator).rest ≠ [])
    (hi : d.item (c.skipWhile Blank.isSeparator) = .error e c') : Run d c [] (some e) c'
  | item {c c' c'' : Cursor} {op : Opcode} {ops : List Opcode} {stop : Option StreamError}
    (hi : d.item (c.skipWhile Blank.isSeparator) = .ok op c') (hr : Run d c' ops stop c'') :
    Run d c (op :: ops) stop c''

namespace Dialect

theorem rest_ne_nil_of_item {d : Dialect} {c c' : Cursor} {op : Opcode}
    (h : d.item c = .ok op c') : c.rest ≠ [] := by
  have hlt := length_rest_lt_of_item h
  intro hc
  rw [hc] at hlt
  exact absurd hlt (Nat.not_lt_zero _)

end Dialect

namespace Run
variable {d : Dialect} {c c' : Cursor} {ops : List Opcode} {stop : Option StreamError}

theorem exists_run (d : Dialect) (c : Cursor) : ∃ ops stop c', Run d c ops stop c' := by
  induction hn : c.rest.length using Nat.strongRecOn generalizing c with
  | ind n ih =>
    by_cases h : (c.skipWhile Blank.isSeparator).rest = []
    · exact ⟨[], none, _, .finish h⟩
    · cases hi : d.item (c.skipWhile Blank.isSeparator) with
      | error e c' => exact ⟨[], some e, c', .halt h hi⟩
      | ok op c' =>
        have hskip := (c.reaches_skipWhile Blank.isSeparator).length_le
        have hitem := Dialect.length_rest_lt_of_item hi
        obtain ⟨ops, stop, c'', hr⟩ := ih c'.rest.length (by omega) c' rfl
        exact ⟨op :: ops, stop, c'', .item hi hr⟩

theorem unique {ops' : List Opcode} {stop' : Option StreamError} {c'' : Cursor}
    (h : Run d c ops stop c') (k : Run d c ops' stop' c'') :
    ops = ops' ∧ stop = stop' ∧ c' = c'' := by
  induction h generalizing ops' with
  | finish h =>
    cases k with
    | finish => exact ⟨rfl, rfl, rfl⟩
    | halt h' => exact absurd h h'
    | item hi => exact absurd h (Dialect.rest_ne_nil_of_item hi)
  | halt h hi =>
    cases k with
    | finish h' => exact absurd h' h
    | halt h' hi' =>
      rw [hi] at hi'
      cases hi'
      exact ⟨rfl, rfl, rfl⟩
    | item hi' =>
      rw [hi] at hi'
      cases hi'
  | item hi hr ih =>
    cases k with
    | finish h' => exact absurd h' (Dialect.rest_ne_nil_of_item hi)
    | halt h' hi' =>
      rw [hi] at hi'
      cases hi'
    | item hi' hr' =>
      rw [hi] at hi'
      cases hi'
      obtain ⟨rfl, hrest⟩ := ih hr'
      exact ⟨rfl, hrest⟩

/-- A separator in front makes no difference to what a decoder yields. -/
theorem separator {b : UInt8} (hb : Blank.isSeparator b) {offset : Nat} {rest : List UInt8}
    (h : Run d ⟨offset + 1, rest⟩ ops stop c') : Run d ⟨offset, b :: rest⟩ ops stop c' := by
  have hskip := Cursor.skipWhile_cons_of_pos hb offset rest
  cases h with
  | finish h => exact hskip ▸ .finish (hskip ▸ h)
  | halt h hi => exact .halt (hskip ▸ h) (hskip ▸ hi)
  | item hi hr => exact .item (hskip ▸ hi) hr

theorem halt_of_head {id : UInt8} (hid : ¬ Blank.isSeparator id) {offset : Nat}
    {rest : List UInt8} {e : StreamError} (hi : d.item ⟨offset, id :: rest⟩ = .error e c') :
    Run d ⟨offset, id :: rest⟩ [] (some e) c' := by
  have hskip := Cursor.skipWhile_cons_of_neg hid offset rest
  exact .halt (by simp [hskip]) (by rw [hskip, hi])

theorem item_of_head {id : UInt8} (hid : ¬ Blank.isSeparator id) {offset : Nat}
    {rest : List UInt8} {op : Opcode} {c'' : Cursor}
    (hi : d.item ⟨offset, id :: rest⟩ = .ok op c') (hr : Run d c' ops stop c'') :
    Run d ⟨offset, id :: rest⟩ (op :: ops) stop c'' := by
  have hskip := Cursor.skipWhile_cons_of_neg hid offset rest
  exact .item (by rw [hskip, hi]) hr

end Run

namespace Decoder

theorem itemsFrom_of_none {s t : Decoder} (h : s.next = (none, t)) (found : List Item) :
    itemsFrom found s = (found.reverse, t) := by
  rw [itemsFrom]
  split
  · rename_i heq
    rw [h] at heq
    cases heq
    rfl
  · rename_i heq
    rw [h] at heq
    cases heq

theorem itemsFrom_of_some {s t : Decoder} {result : Except StreamError Opcode}
    (h : s.next = (some result, t)) (found : List Item) :
    itemsFrom found s = itemsFrom (⟨result, t.cursor.offset⟩ :: found) t := by
  rw [itemsFrom]
  split
  · rename_i heq
    rw [h] at heq
    cases heq
  · rename_i heq
    rw [h] at heq
    cases heq
    rfl

theorem next_of_halted {s : Decoder} (h : s.halted = true) : s.next = (none, s) := by
  rw [next, if_pos h]

/-- The results of a decoder are those of its run, behind what was found before. -/
theorem itemsFrom_of_run {d : Dialect} {c c' : Cursor} {ops : List Opcode}
    {stop : Option StreamError} (h : Run d c ops stop c') (found : List Item) :
    (itemsFrom found ⟨d, c, false⟩).1.map (·.result) =
      found.reverse.map (·.result) ++ (ops.map .ok ++ (stop.map .error).toList) := by
  induction h generalizing found with
  | @finish c h =>
    have hn : (⟨d, c, false⟩ : Decoder).next =
        (none, ⟨d, c.skipWhile Blank.isSeparator, false⟩) := by
      simp [next, Cursor.atEnd, h]
    rw [itemsFrom_of_none hn]
    simp
  | @halt c c' e h hi =>
    have hn : (⟨d, c, false⟩ : Decoder).next = (some (.error e), ⟨d, c', true⟩) := by
      simp [next, Cursor.atEnd, h, hi]
    rw [itemsFrom_of_some hn, itemsFrom_of_none (next_of_halted rfl)]
    simp
  | @item c c' c'' op ops stop hi hr ih =>
    have hn : (⟨d, c, false⟩ : Decoder).next = (some (.ok op), ⟨d, c', false⟩) := by
      simp [next, Cursor.atEnd, Dialect.rest_ne_nil_of_item hi, hi]
    rw [itemsFrom_of_some hn, ih]
    simp

end Decoder

namespace Dialect

/-- The opcodes that a decoder yields before it ends or fails. -/
def yielded (d : Dialect) (data : List UInt8) : List Opcode :=
  (Decoder.start d data).items.1.filterMap (·.result.toOption)

variable {d : Dialect} {data : List UInt8} {ops : List Opcode} {c : Cursor}

theorem results_of_run {stop : Option StreamError} (h : Run d (.start data) ops stop c) :
    (Decoder.start d data).items.1.map (·.result) = ops.map .ok ++ (stop.map .error).toList :=
  Decoder.itemsFrom_of_run h []

theorem yielded_of_run {stop : Option StreamError} (h : Run d (.start data) ops stop c) :
    d.yielded data = ops := by
  have hcomp : d.yielded data =
      ((Decoder.start d data).items.1.map (·.result)).filterMap Except.toOption := by
    rw [List.filterMap_map]
    rfl
  rw [hcomp, results_of_run h, List.filterMap_append, List.filterMap_map]
  cases stop <;> simp [Except.toOption, Function.comp_def]

/-- What decoding returns when a decoder has yielded some opcodes and stopped. -/
def outcome (ops : List Opcode) : Option StreamError → Except StreamError (List Opcode)
  | none => .ok ops
  | some e => .error e

/-- Results in a row are collected up to the first error. -/
theorem mapM_of_results {α : Type} {f : α → Except StreamError Opcode} {items : List α}
    {stop : Option StreamError} (h : items.map f = ops.map .ok ++ (stop.map .error).toList) :
    items.mapM f = outcome ops stop := by
  induction ops generalizing items with
  | nil =>
    cases stop with
    | none =>
      have hnil : items = [] := by simpa using h
      rw [hnil]
      rfl
    | some e =>
      obtain ⟨i, rest, rfl, hi, -⟩ := List.map_eq_cons_iff.1 h
      rw [List.mapM_cons, hi]
      rfl
  | cons op ops ih =>
    obtain ⟨i, rest, rfl, hi, hrest⟩ := List.map_eq_cons_iff.1 h
    rw [List.mapM_cons, hi, ih hrest]
    cases stop <;> rfl

theorem decode_of_run {stop : Option StreamError} (h : Run d (.start data) ops stop c) :
    d.decode data = outcome ops stop :=
  mapM_of_results (results_of_run h)

theorem decode_eq_ok_iff_run : d.decode data = .ok ops ↔ ∃ c, Run d (.start data) ops none c := by
  constructor
  · intro h
    obtain ⟨ops', stop, c, hr⟩ := Run.exists_run d (.start data)
    rw [decode_of_run hr] at h
    cases stop with
    | none =>
      cases h
      exact ⟨c, hr⟩
    | some e => cases h
  · rintro ⟨c, hr⟩
    exact decode_of_run hr

theorem decode_eq_error_iff_run {e : StreamError} :
    d.decode data = .error e ↔ ∃ ops c, Run d (.start data) ops (some e) c := by
  constructor
  · intro h
    obtain ⟨ops, stop, c, hr⟩ := Run.exists_run d (.start data)
    rw [decode_of_run hr] at h
    cases stop with
    | none => cases h
    | some e' =>
      cases h
      exact ⟨ops, c, hr⟩
  · rintro ⟨ops, c, hr⟩
    exact decode_of_run hr

end Dialect

end VectorStream
