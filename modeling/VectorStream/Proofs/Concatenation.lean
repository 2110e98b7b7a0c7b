import VectorStream.Proofs.Relocation
import VectorStream.Proofs.Tokens

/-!
# Concatenation

Behind an accepted stream a second one is decoded as it is alone. Its opcodes follow those of the
first, and the offset of its error, if there is one, grows by the length of the first.
-/
namespace VectorStream
open Token

theorem Stops.moved {offset : Nat} {rest : List UInt8} {stop : Option StreamError} {c' : Cursor}
    (h : Stops .standard ⟨offset, rest⟩ stop c') (n : Nat) :
    ∃ c'', Stops .standard ⟨offset + n, rest⟩ (stop.map (StreamError.shift n)) c'' := by
  cases stop with
  | none => exact ⟨_, h.1, rfl⟩
  | some e =>
    obtain ⟨id, u, rfl, hid, hi⟩ := h.exists_head
    rcases Dialect.item_cases id u with ⟨op, m, hok⟩ | ⟨e₀, m, behind, -, herror⟩
    · rw [hok] at hi
      cases hi
    · rw [herror] at hi
      cases hi
      refine ⟨⟨m + (offset + n), behind⟩, ⟨id, u, rfl, hid⟩, ?_⟩
      rw [herror, StreamError.shift_add]

/-- A decoder yields the same wherever its bytes stand. -/
theorem Run.moved {offset : Nat} {rest : List UInt8} {ops : List Opcode}
    {stop : Option StreamError} {c' : Cursor} (h : Run .standard ⟨offset, rest⟩ ops stop c')
    (n : Nat) :
    ∃ c'', Run .standard ⟨offset + n, rest⟩ ops (stop.map (StreamError.shift n)) c'' := by
  obtain ⟨tokens, behind, hrest, rfl, hstop⟩ := h.exists_tokens
  obtain ⟨c'', hmoved⟩ := hstop.moved n
  rw [Nat.add_right_comm] at hmoved
  have hrun := of_tokens tokens (of_stops hmoved)
  rw [← hrest, List.append_nil] at hrun
  exact ⟨c'', hrun⟩

/-- Behind an accepted stream a decoder goes on as at the start of the rest. -/
theorem Run.behind_accepted {a b : List UInt8} {xs ys : List Opcode} {stop : Option StreamError}
    {c : Cursor} (h : Dialect.standard.decode a = .ok xs)
    (hr : Run .standard (.start b) ys stop c) :
    ∃ c', Run .standard (.start (a ++ b)) (xs ++ ys) (stop.map (StreamError.shift a.length))
      c' := by
  obtain ⟨tokens, rfl, rfl⟩ := Dialect.exists_text_of_decode h
  obtain ⟨c', hmoved⟩ := hr.moved (text tokens).length
  exact ⟨c', of_tokens tokens hmoved⟩

namespace Dialect

/-- Decoding takes concatenation to concatenation. An error behind an accepted stream is the same
error, met further behind. -/
theorem decode_append (a b : List UInt8) (xs : List Opcode) (h : standard.decode a = .ok xs) :
    (∀ ys, standard.decode b = .ok ys → standard.decode (a ++ b) = .ok (xs ++ ys)) ∧
      ∀ e, standard.decode b = .error e → standard.decode (a ++ b) = .error (e.shift a.length) := by
  obtain ⟨tokens, rfl, rfl⟩ := exists_text_of_decode h
  constructor
  · intro ys hb
    obtain ⟨c, hr⟩ := decode_eq_ok_iff_run.1 hb
    obtain ⟨c', hmoved⟩ := hr.moved (text tokens).length
    exact decode_of_run (Run.of_tokens tokens hmoved)
  · intro e hb
    obtain ⟨ys, c, hr⟩ := decode_eq_error_iff_run.1 hb
    obtain ⟨c', hmoved⟩ := hr.moved (text tokens).length
    exact decode_of_run (Run.of_tokens tokens hmoved)

/-- A frame that does not close fails two bytes further behind after a separator and an opcode. -/
theorem decode_append_unclosed_frame :
    standard.decode [0x20, 0x56] = .ok [.visibility true] ∧
      standard.decode [0x7B, 3, 0, 0, 0, 1, 0, 0x29] = .error (.malformed 0 (.unclosedFrame 0x29)) ∧
      standard.decode ([0x20, 0x56] ++ [0x7B, 3, 0, 0, 0, 1, 0, 0x29]) =
        .error (.malformed 2 (.unclosedFrame 0x29)) := by
  have ha : Run .standard (.start [0x20, 0x56]) [.visibility true] none ⟨2, []⟩ :=
    .separator (by decide) (.item_of_head (by decide) rfl (.finish rfl))
  have hb : Run .standard (.start [0x7B, 3, 0, 0, 0, 1, 0, 0x29]) []
      (some (.malformed 0 (.unclosedFrame 0x29))) ⟨8, []⟩ := .halt_of_head (by decide) rfl
  exact ⟨decode_of_run ha, decode_of_run hb,
    (decode_append _ _ _ (decode_of_run ha)).2 _ (decode_of_run hb)⟩

end Dialect

end VectorStream
