import VectorStream.Proofs.Lockstep

/-!
# Progress of a decoder

Every opcode that a decoder yields takes it further, so that it comes to an end. It ends behind the
first error or at the end of its data, and then it stays there. All of this holds of every dialect,
whatever its ids and its keywords are.
-/
namespace VectorStream
open Text

namespace Dialect

theorem forward_item (d : Dialect) : Scan.Forward d.item := by
  rintro ⟨offset, rest⟩
  cases rest with
  | nil => exact .refl _
  | cons id rest =>
    cases hid : d.layout? id with
    | none =>
      rw [item_of_layout?_none hid]
      exact .refl _
    | some layout =>
      have hadvance : Cursor.Reaches ⟨offset, id :: rest⟩ ⟨offset + 1, rest⟩ := ⟨[id], rfl, rfl⟩
      have hread := layout.forward d.keywords ⟨offset + 1, rest⟩
      simp only [item, hid]
      cases h : layout.read d.keywords ⟨offset + 1, rest⟩ with
      | ok op c =>
        rw [h] at hread
        exact hadvance.trans hread
      | error e c =>
        rw [h] at hread
        exact hadvance.trans hread

end Dialect

/-- A run has no more opcodes than its cursor has bytes. -/
theorem Run.length_le {d : Dialect} {c c' : Cursor} {ops : List Opcode}
    {stop : Option StreamError} (h : Run d c ops stop c') : ops.length ≤ c.rest.length := by
  induction h with
  | finish h => exact Nat.zero_le _
  | halt h hi => exact Nat.zero_le _
  | @item c c' c'' op ops stop hi hr ih =>
    have hskip := (c.reaches_skipWhile Blank.isSeparator).length_le
    have hitem := Dialect.length_rest_lt_of_item hi
    rw [List.length_cons]
    omega

namespace Decoder

/-- All that a step of a decoder can do. -/
inductive Step (s : Decoder) : Option (Except StreamError Opcode) → Decoder → Prop
  | halted (hs : s.halted = true) : Step s none s
  | finish (hs : s.halted = false) (hend : s.place.rest = []) :
    Step s none { s with cursor := s.place }
  | item (hs : s.halted = false) {op : Opcode} {c : Cursor}
    (hi : s.dialect.item s.place = .ok op c) : Step s (some (.ok op)) { s with cursor := c }
  | fail (hs : s.halted = false) (hrest : s.place.rest ≠ []) {e : StreamError} {c : Cursor}
    (hi : s.dialect.item s.place = .error e c) :
    Step s (some (.error e)) { s with cursor := c, halted := true }

variable {s t : Decoder} {result : Option (Except StreamError Opcode)} {op : Opcode}
  {e : StreamError} {m n : Nat}

theorem next_of_finish (hs : s.halted = false) (hend : s.place.rest = []) :
    s.next = (none, { s with cursor := s.place }) := by
  unfold place at hend ⊢
  simp [next, hs, Cursor.atEnd, hend]

theorem next_of_item (hs : s.halted = false) {c : Cursor}
    (hi : s.dialect.item s.place = .ok op c) :
    s.next = (some (.ok op), { s with cursor := c }) := by
  have hrest := Dialect.rest_ne_nil_of_item hi
  unfold place at hi hrest
  simp [next, hs, Cursor.atEnd, hrest, hi]

theorem next_of_fail (hs : s.halted = false) (hrest : s.place.rest ≠ []) {c : Cursor}
    (hi : s.dialect.item s.place = .error e c) :
    s.next = (some (.error e), { s with cursor := c, halted := true }) := by
  unfold place at hi hrest
  simp [next, hs, Cursor.atEnd, hrest, hi]

theorem step_next (s : Decoder) : s.Step s.next.1 s.next.2 := by
  cases hs : s.halted with
  | true =>
    rw [next_of_halted hs]
    exact .halted hs
  | false =>
    by_cases hrest : s.place.rest = []
    · rw [next_of_finish hs hrest]
      exact .finish hs hrest
    · cases hi : s.dialect.item s.place with
      | ok op c =>
        rw [next_of_item hs hi]
        exact .item hs hi
      | error e c =>
        rw [next_of_fail hs hrest hi]
        exact .fail hs hrest hi

theorem step_of_result (h : s.next.1 = result) : s.Step result s.next.2 := h ▸ s.step_next

namespace Step

/-- No step moves backward. -/
theorem reaches (h : s.Step result t) : s.cursor.Reaches t.cursor := by
  have hplace : s.cursor.Reaches s.place := s.cursor.reaches_skipWhile _
  have hitem := s.dialect.forward_item s.place
  cases h with
  | halted hs => exact .refl _
  | finish hs hend => exact hplace
  | item hs hi =>
    rw [hi] at hitem
    exact hplace.trans hitem
  | fail hs hrest hi =>
    rw [hi] at hitem
    exact hplace.trans hitem

theorem offset_lt (h : s.Step (some (.ok op)) t) : s.cursor.offset < t.cursor.offset := by
  have htotal := h.reaches.total
  cases h with
  | item hs hi =>
    have hskip := (s.cursor.reaches_skipWhile Blank.isSeparator).length_le
    have hitem := Dialect.length_rest_lt_of_item hi
    unfold place at hitem
    simp only at htotal ⊢
    omega

/-- Nothing is yielded again and again. -/
theorem next_of_none (h : s.Step none t) : t.next = (none, t) := by
  cases h with
  | halted hs => exact next_of_halted hs
  | finish hs hend =>
    have hempty : ∀ x v, s.place.rest = x :: v → ¬ Blank.isSeparator x := by simp [hend]
    have hplace : place { s with cursor := s.place } = s.place :=
      Cursor.skipWhile_of_head hempty s.place.offset
    have hnext := next_of_finish (s := { s with cursor := s.place }) hs (by rw [hplace, hend])
    rw [hnext, hplace]

theorem rest_eq_nil (h : s.Step none t) (hs : s.halted = false) : t.cursor.rest = [] := by
  cases h with
  | halted hs' => exact absurd (hs.symm.trans hs') Bool.false_ne_true
  | finish hs' hend => exact hend

theorem next_of_error (h : s.Step (some (.error e)) t) : t.next = (none, t) := by
  cases h with
  | fail hs hrest hi => exact next_of_halted rfl

theorem halted_eq_false (h : s.Step result t) (hs : s.halted = false)
    (hresult : ∀ e, result ≠ some (.error e)) : t.halted = false := by
  cases h with
  | fail hs' hrest hi => exact absurd rfl (hresult _)
  | _ => exact hs

end Step

theorem after_add (s : Decoder) (m n : Nat) : s.after (m + n) = (s.after m).after n := by
  induction n with
  | zero => rfl
  | succ n ih => rw [← Nat.add_assoc, after, ih, after]

theorem after_succ (s : Decoder) (n : Nat) : s.after (n + 1) = s.next.2.after n := by
  rw [Nat.add_comm, after_add]
  rfl

theorem reaches_after (s : Decoder) (n : Nat) : s.cursor.Reaches (s.after n).cursor := by
  induction n with
  | zero => exact .refl _
  | succ n ih => exact ih.trans (s.after n).step_next.reaches

theorem after_of_next (h : s.next = (none, s)) (n : Nat) : s.after n = s := by
  induction n with
  | zero => rfl
  | succ n ih => rw [after, ih, h]

/-- A decoder that yields nothing more is at rest. -/
theorem after_of_rest (h : (s.after n).next.2.next = (none, (s.after n).next.2)) (hm : n < m) :
    s.after m = s.after (n + 1) ∧ (s.after m).next.1 = none := by
  obtain ⟨k, rfl⟩ := Nat.exists_eq_add_of_lt hm
  have hafter : s.after (n + k + 1) = s.after (n + 1) := by
    rw [Nat.add_right_comm, after_add]
    exact after_of_next h k
  rw [hafter]
  exact ⟨rfl, congrArg Prod.fst h⟩

theorem halted_after (hs : s.halted = false) (h : ∀ n e, (s.after n).next.1 ≠ some (.error e))
    (n : Nat) : (s.after n).halted = false := by
  induction n with
  | zero => exact hs
  | succ n ih => exact (s.after n).step_next.halted_eq_false ih (h n)

/-- What a decoder yields after a number of steps, with the offset behind it. -/
def item? (s : Decoder) (n : Nat) : Option Item :=
  (s.after n).next.1.map fun result => ⟨result, (s.after (n + 1)).cursor.offset⟩

theorem item?_succ (s : Decoder) (n : Nat) : s.item? (n + 1) = s.next.2.item? n := by
  rw [item?, item?, after_succ s n, after_succ s (n + 1)]

theorem item?_of_none (h : s.next.1 = none) (n : Nat) : s.item? n = none := by
  cases n with
  | zero => rw [item?, after, h, Option.map_none]
  | succ n =>
    have hnext := (step_of_result h).next_of_none
    rw [item?_succ, item?, after_of_next hnext n, hnext, Option.map_none]

/-- The items of a decoder are all that it yields, behind those found before. -/
theorem itemsFrom_eq (s : Decoder) (found : List Item) :
    ∃ items, itemsFrom found s = (found.reverse ++ items, s.after (items.length + 1)) ∧
      ∀ n, items[n]? = s.item? n := by
  induction hp : s.pending using Nat.strongRecOn generalizing s found with
  | ind p ih =>
    cases hnext : s.next with
    | mk result t =>
      have ht : s.next.2 = t := congrArg Prod.snd hnext
      cases result with
      | none =>
        refine ⟨[], ?_, fun n => ?_⟩
        · rw [itemsFrom_of_none hnext, List.append_nil, ← ht]
          rfl
        · rw [item?_of_none (congrArg Prod.fst hnext), List.getElem?_nil]
      | some result =>
        obtain ⟨items, heq, hitems⟩ :=
          ih t.pending (hp ▸ pending_next_lt hnext) t (⟨result, t.cursor.offset⟩ :: found) rfl
        refine ⟨⟨result, t.cursor.offset⟩ :: items, ?_, fun n => ?_⟩
        · rw [itemsFrom_of_some hnext, heq, List.length_cons, after_succ s, ht]
          simp
        · cases n with
          | zero => simp [item?, after, hnext]
          | succ n => rw [List.getElem?_cons_succ, hitems, item?_succ, ht]

theorem getElem?_items (s : Decoder) (n : Nat) : s.items.1[n]? = s.item? n := by
  obtain ⟨items, heq, hitems⟩ := s.itemsFrom_eq []
  rw [Decoder.items, heq]
  exact hitems n

/-- One step more than there are items is made. -/
theorem snd_items (s : Decoder) : s.items.2 = s.after (s.items.1.length + 1) := by
  obtain ⟨items, heq, -⟩ := s.itemsFrom_eq []
  rw [Decoder.items, heq]
  rfl

theorem exists_next_iff {result : Except StreamError Opcode} :
    (∃ n, (s.after n).next.1 = some result) ↔ result ∈ s.items.1.map (·.result) := by
  rw [List.mem_iff_getElem?]
  apply exists_congr
  intro n
  rw [List.getElem?_map, getElem?_items, item?, Option.map_map]
  simp [Function.comp_def]

end Decoder

namespace Dialect
variable {d : Dialect} {data : List UInt8}

/-- Decoding fails exactly with the errors that a decoder yields. -/
theorem decode_eq_error_iff_next {e : StreamError} : d.decode data = .error e ↔
    ∃ n, ((Decoder.start d data).after n).next.1 = some (.error e) := by
  obtain ⟨ops, stop, c, hr⟩ := Run.exists_run d (.start data)
  rw [Decoder.exists_next_iff, results_of_run hr, decode_of_run hr]
  cases stop <;> simp [outcome, eq_comm]

end Dialect

namespace Decoder

/-- How a decoder over a number of bytes gets on and comes to its end. -/
structure RunsOut (s : Decoder) (size : Nat) : Prop where
  /-- Behind an opcode it is further than in front of it, and not behind its data. -/
  advances : ∀ n op, (s.after n).next.1 = some (.ok op) →
    (s.after n).cursor.offset < (s.after (n + 1)).cursor.offset ∧
      (s.after (n + 1)).cursor.offset ≤ size
  /-- Its items are all that it ever yields, and they leave it at its end. -/
  complete : (∀ n, s.items.1[n]? = s.item? n) ∧ s.items.2 = s.after (s.items.1.length + 1)
  few : (s.items.1.filterMap (·.result.toOption)).length ≤ size
  error_last : ∀ n e, (s.after n).next.1 = some (.error e) → ∀ m, n < m →
    (s.after m).next.1 = none
  ends : ∃ n, n ≤ size + 1 ∧ (s.after n).next.1 = none
  /-- Once it yields nothing, it stays where it is and yields nothing more. -/
  rests : ∀ n, (s.after n).next.1 = none → ∀ m, n < m → (s.after m).next.1 = none ∧
    (s.after m).cursor.offset = (s.after (n + 1)).cursor.offset
  /-- If it has met no error, then it is behind all of its data. -/
  reads_all : (∀ n e, (s.after n).next.1 ≠ some (.error e)) → ∀ n, (s.after n).next.1 = none →
    (s.after (n + 1)).cursor.offset = size

theorem total_after (d : Dialect) (data : List UInt8) (n : Nat) :
    ((start d data).after n).cursor.offset + ((start d data).after n).cursor.rest.length =
      data.length :=
  ((start d data).reaches_after n).total.trans (Nat.zero_add _)

/-- There is an item for every opcode, and perhaps one for an error. -/
theorem length_items_le (d : Dialect) (data : List UInt8) :
    (start d data).items.1.length ≤ data.length + 1 := by
  obtain ⟨ops, stop, c, hr⟩ := Run.exists_run d (.start data)
  have hops : ops.length ≤ data.length := hr.length_le
  have hresults := congrArg List.length (Dialect.results_of_run hr)
  rw [List.length_map, List.length_append, List.length_map] at hresults
  have hstop : (stop.map Except.error : Option (Except StreamError Opcode)).toList.length ≤ 1 :=
    Option.length_toList_le
  omega

theorem runsOut_start (d : Dialect) (data : List UInt8) : (start d data).RunsOut data.length where
  advances := by
    intro n op h
    have htotal := total_after d data (n + 1)
    exact ⟨(step_of_result h).offset_lt, by omega⟩
  complete := ⟨getElem?_items _, snd_items _⟩
  few := by
    obtain ⟨ops, stop, c, hr⟩ := Run.exists_run d (.start data)
    change (d.yielded data).length ≤ data.length
    rw [Dialect.yielded_of_run hr]
    exact hr.length_le
  error_last := fun n e h m hm => (after_of_rest (step_of_result h).next_of_error hm).2
  ends := by
    have hnone := getElem?_items (start d data) (start d data).items.1.length
    rw [List.getElem?_eq_none (Nat.le_refl _)] at hnone
    exact ⟨_, length_items_le d data, Option.map_eq_none_iff.1 hnone.symm⟩
  rests := by
    intro n h m hm
    obtain ⟨hafter, hnone⟩ := after_of_rest (step_of_result h).next_of_none hm
    exact ⟨hnone, by rw [hafter]⟩
  reads_all := by
    intro hok n h
    have hrest := (step_of_result h).rest_eq_nil (halted_after rfl hok n)
    have htotal := total_after d data (n + 1)
    rw [after, hrest] at htotal
    exact htotal

/-- A decoder makes its way through every stream and comes to an end, and decoding succeeds exactly
if it has yielded no error. -/
theorem makes_progress (d : Dialect) (data : List UInt8) :
    (start d data).RunsOut data.length ∧
      ((∃ ops, d.decode data = .ok ops) ↔
        ∀ n e, ((start d data).after n).next.1 ≠ some (.error e)) := by
  refine ⟨runsOut_start d data, ?_⟩
  constructor
  · rintro ⟨ops, hok⟩ n e h
    have herror := Dialect.decode_eq_error_iff_next.2 ⟨n, h⟩
    cases hok.symm.trans herror
  · intro hok
    cases hd : d.decode data with
    | ok ops => exact ⟨ops, rfl⟩
    | error e =>
      obtain ⟨n, h⟩ := Dialect.decode_eq_error_iff_next.1 hd
      exact absurd h (hok n e)

end Decoder

end VectorStream
