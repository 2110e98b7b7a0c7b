import VectorStream.Proofs.Grammar

/-!
# Relocation

What a scan finds does not depend on where in a stream its bytes stand. If the bytes are moved, the
value and the number of bytes read stay the same, and the offset of an error moves along.
-/
namespace VectorStream

namespace StreamError

/-- The error was met at the base itself, or for want of data between two places behind it. -/
def Fits (low high : Nat) : StreamError → Prop
  | truncated offset => low ≤ offset ∧ offset ≤ high
  | unknownOpcode _ offset => offset = 0
  | malformed offset _ => offset = 0
  | _ => False

theorem Fits.mono {e : StreamError} {low high low' high' : Nat} (h : e.Fits low high)
    (hlow : low' ≤ low) (hhigh : high ≤ high') : e.Fits low' high' := by
  cases e with
  | truncated offset => exact ⟨Nat.le_trans hlow h.1, Nat.le_trans h.2 hhigh⟩
  | unknownOpcode id offset => exact h
  | malformed offset flaw => exact h
  | invalidOperand keyword fault => exact h
  | io reason => exact h

theorem shift_add (e : StreamError) (m n : Nat) : e.shift (m + n) = (e.shift m).shift n := by
  cases e <;> simp [shift, Nat.add_assoc]

end StreamError

namespace Scan
variable {α β : Type}

/-- For each base a scan is given, which starts some bytes behind the base. It finds the same for
every base, counted from there. -/
def Relocatable (s : Nat → Scan α) : Prop := ∀ n rest,
  (∃ (a : α) (m : Nat), m ≤ rest.length ∧
      ∀ base, s base ⟨n + base, rest⟩ = .ok a ⟨n + m + base, rest.drop m⟩) ∨
    ∃ (e : StreamError) (m : Nat), e.Fits n (n + rest.length) ∧ m ≤ rest.length ∧
      ∀ base, s base ⟨n + base, rest⟩ = .error (e.shift base) ⟨n + m + base, rest.drop m⟩

namespace Relocatable

protected theorem pure (a : α) : Relocatable fun _ => pure a :=
  fun _ _ => .inl ⟨a, 0, Nat.zero_le _, fun _ => rfl⟩

/-- An error that is met at the base. -/
protected theorem malformed (flaw : Flaw) :
    Relocatable fun base => (throw (.malformed base flaw) : Scan α) := by
  refine fun n rest => .inr ⟨.malformed 0 flaw, 0, rfl, Nat.zero_le _, fun base => ?_⟩
  rw [StreamError.shift, Nat.zero_add]
  rfl

protected theorem bind {s : Nat → Scan α} {f : Nat → α → Scan β} (hs : Relocatable s)
    (hf : ∀ a, Relocatable fun base => f base a) : Relocatable fun base => s base >>= f base := by
  intro n rest
  rcases hs n rest with ⟨a, m, hm, hok⟩ | ⟨e, m, he, hm, herror⟩
  · have hbind (base : Nat) : (s base >>= f base) ⟨n + base, rest⟩ =
        f base a ⟨n + m + base, rest.drop m⟩ := bind_of_ok (hok base)
    rcases hf a (n + m) (rest.drop m) with ⟨b, k, hk, hok'⟩ | ⟨e, k, he, hk, herror'⟩
    · rw [List.length_drop] at hk
      refine .inl ⟨b, m + k, by omega, fun base => (hbind base).trans ?_⟩
      rw [← Nat.add_assoc, ← List.drop_drop]
      exact hok' base
    · rw [List.length_drop] at he hk
      refine .inr ⟨e, m + k, he.mono (by omega) (by omega), by omega, fun base =>
        (hbind base).trans ?_⟩
      rw [← Nat.add_assoc, ← List.drop_drop]
      exact herror' base
  · exact .inr ⟨e, m, he, hm, fun base => bind_of_error (herror base)⟩

protected theorem map {s : Nat → Scan α} (hs : Relocatable s) (g : α → β) :
    Relocatable fun base => s base >>= fun a => pure (g a) :=
  hs.bind fun a => .pure (g a)

protected theorem ite {p : Prop} [Decidable p] {s t : Nat → Scan α} (hs : Relocatable s)
    (ht : Relocatable t) : Relocatable fun base => if p then s base else t base := by
  by_cases hp : p
  · simpa only [if_pos hp] using hs
  · simpa only [if_neg hp] using ht

end Relocatable

theorem relocatable_field (size : Nat) : Relocatable fun _ => field size := by
  intro n rest
  rcases Nat.lt_or_ge rest.length size with h | h
  · refine .inr ⟨.truncated n, rest.length, ⟨Nat.le_refl n, by omega⟩, Nat.le_refl _, fun base =>
      (field_of_lt (c := ⟨n + base, rest⟩) h).trans ?_⟩
    rw [Cursor.finish, List.drop_length, StreamError.shift, Nat.add_right_comm]
  · refine .inl ⟨rest.take size, size, h, fun base =>
      (field_of_le (c := ⟨n + base, rest⟩) h).trans ?_⟩
    rw [Nat.add_right_comm]

theorem relocatable_block (count : Nat) : Relocatable fun _ => block count := by
  intro n rest
  rcases Nat.lt_or_ge rest.length count with h | h
  · exact .inr ⟨.truncated n, 0, ⟨Nat.le_refl n, by omega⟩, Nat.zero_le _,
      fun base => block_of_lt h⟩
  · refine .inl ⟨rest.take count, count, h, fun base =>
      (block_of_le (c := ⟨n + base, rest⟩) h).trans ?_⟩
    rw [Nat.add_right_comm]

theorem relocatable_skip (count : Nat) : Relocatable fun _ => skip count :=
  (relocatable_block count).map fun _ => ()

theorem relocatable_unsigned (size : Nat) : Relocatable fun _ => unsigned size :=
  (relocatable_field size).map _

theorem relocatable_byte : Relocatable fun _ => byte := (relocatable_unsigned 1).map _

theorem relocatable_word : Relocatable fun _ => word := (relocatable_unsigned 2).map _

theorem relocatable_coord (w : Width) : Relocatable fun _ => coord w :=
  (relocatable_unsigned w.size).map _

theorem relocatable_point (w : Width) : Relocatable fun _ => point w :=
  (relocatable_coord w).bind fun _ => (relocatable_coord w).map _

theorem relocatable_count : Relocatable fun _ => count :=
  relocatable_byte.bind fun _ => .ite (relocatable_word.map _) (.pure _)

theorem relocatable_timesFrom {scan : Scan α} (h : Relocatable fun _ => scan) (read : List α)
    (n : Nat) : Relocatable fun _ => timesFrom scan read n := by
  induction n generalizing read with
  | zero => exact .pure _
  | succ n ih => exact h.bind fun a => ih (a :: read)

theorem relocatable_points (w : Width) (n : Nat) : Relocatable fun _ => points w n :=
  relocatable_timesFrom (relocatable_point w) [] n

theorem relocatable_text (n : Nat) : Relocatable fun _ => text n :=
  (relocatable_timesFrom relocatable_word [] n).map _

theorem relocatable_takeWhile (p : UInt8 → Bool) : Relocatable fun _ => takeWhile p := by
  intro n rest
  have hle : (rest.takeWhile p).length ≤ rest.length := (List.takeWhile_sublist p).length_le
  refine .inl ⟨rest.takeWhile p, (rest.takeWhile p).length, hle, fun base => ?_⟩
  rw [Nat.add_right_comm]
  rfl

theorem relocatable_payload : Relocatable fun _ => payload := by
  intro n rest
  cases h : Payload.split rest with
  | none =>
    refine .inr ⟨.truncated (n + rest.length), rest.length, ⟨by omega, Nat.le_refl _⟩,
      Nat.le_refl _, fun base => ?_⟩
    simp [payload, h, Cursor.finish, StreamError.shift, Nat.add_right_comm]
  | some parts =>
    obtain ⟨bytes, behind⟩ := parts
    have hrest := Payload.split_eq_some h
    refine .inl ⟨bytes, bytes.length + 1, by simp [hrest], fun base => ?_⟩
    have hdrop : rest.drop (bytes.length + 1) = behind := by
      rw [hrest, ← List.drop_drop, List.drop_left]
      rfl
    simp only [payload, h, hdrop]
    congr 2
    omega

end Scan

namespace Form
open Scan

theorem relocatable_readExtended : Relocatable fun _ => readExtended .standard := by
  apply (relocatable_takeWhile _).bind
  intro name
  apply relocatable_payload.bind
  intro bytes
  rw [Keywords.interpret_standard]
  exact .pure _

/-- The flaws of a frame are met at the base, which is the place of the id byte. -/
theorem relocatable_frameFrom : Relocatable frameFrom := by
  apply (relocatable_coord .long).bind
  intro size
  apply Relocatable.ite (.malformed _)
  apply relocatable_word.bind
  intro code
  apply (relocatable_skip _).bind
  intro _
  apply relocatable_byte.bind
  intro close
  exact .ite (.pure _) (.malformed _)

/-- The scan of a form for an id byte at a given place. -/
def readFrom (start : Nat) : Form → Scan Opcode
  | framed => frameFrom start
  | form => form.read .standard

theorem read_apply (form : Form) (start : Nat) (rest : List UInt8) :
    form.read .standard ⟨start + 1, rest⟩ = form.readFrom start ⟨start + 1, rest⟩ := by
  cases form <;> rfl

theorem relocatable_readFrom (form : Form) : Relocatable fun base => form.readFrom base := by
  cases form with
  | line w => exact (relocatable_point w).bind fun _ => (relocatable_point w).map _
  | polyline w => exact relocatable_count.bind fun n => (relocatable_points w n).map _
  | markers w => exact relocatable_count.bind fun n => (relocatable_points w n).map _
  | triangles w => exact relocatable_count.bind fun n => (relocatable_skip _).map _
  | text =>
    exact (relocatable_point .short).bind fun _ => relocatable_count.bind fun n =>
      (relocatable_text n).map _
  | moveTo => exact (relocatable_point .short).map _
  | weight => exact (relocatable_coord .short).map _
  | colorIndex => exact relocatable_byte.map _
  | color =>
    exact relocatable_byte.bind fun _ => relocatable_byte.bind fun _ => relocatable_byte.bind
      fun _ => relocatable_byte.map _
  | visibility on => exact .pure _
  | extended => exact relocatable_readExtended
  | framed => exact relocatable_frameFrom

end Form

namespace Dialect

/-- An instruction ends the same way wherever its bytes stand, and if it fails, then at its id byte
or for want of data behind it. -/
theorem item_cases (id : UInt8) (rest : List UInt8) :
    (∃ op m, ∀ offset,
      standard.item ⟨offset, id :: rest⟩ = .ok op ⟨1 + m + offset, rest.drop m⟩) ∨
      ∃ (e : StreamError) (m : Nat) (behind : List UInt8), e.Fits 1 (1 + rest.length) ∧
        ∀ offset, standard.item ⟨offset, id :: rest⟩ =
          .error (e.shift offset) ⟨m + offset, behind⟩ := by
  by_cases hid : ∃ form, (id, form) ∈ standardForms
  · obtain ⟨form, hid⟩ := hid
    have hread (offset : Nat) : standard.item ⟨offset, id :: rest⟩ =
        form.readFrom offset ⟨1 + offset, rest⟩ := by
      rw [item_of_mem hid, Form.read_apply, Nat.add_comm 1]
    rcases form.relocatable_readFrom 1 rest with ⟨op, m, -, hok⟩ | ⟨e, m, he, -, herror⟩
    · exact .inl ⟨op, m, fun offset => (hread offset).trans (hok offset)⟩
    · exact .inr ⟨e, 1 + m, _, he, fun offset => (hread offset).trans (herror offset)⟩
  · refine .inr ⟨.unknownOpcode id 0, 0, id :: rest, rfl, fun offset => ?_⟩
    rw [item_of_not_mem (not_exists.1 hid), StreamError.shift, Nat.zero_add]

end Dialect

end VectorStream
