import VectorStream.Proofs.Relocation
import VectorStream.Proofs.Tokens

/-!
# Continuation

Truncated streams are those that more bytes can still make valid, and every other error is final.
What a decoder yields is kept when bytes are added behind its data.
-/
namespace VectorStream
open Text Token

namespace Stops
variable {offset : Nat} {rest : List UInt8} {c' : Cursor}

/-- For want of data a decoder stops inside an instruction, which can be completed. -/
theorem exists_completion {e : StreamError} (h : Stops .standard ⟨offset, rest⟩ (some e) c')
    (he : e.isTruncated) : ∃ (t : Token) (more : List UInt8), t.bytes = rest ++ more := by
  obtain ⟨id, u, rfl, hid, hi⟩ := h.exists_head
  obtain ⟨op, w, hw, more, hmore⟩ := (Dialect.reads_item.stuck hi).1 he
  rw [← hmore] at hw
  exact ⟨.instruction id (u ++ more) op hid hw, more, rfl⟩

/-- After another error there are no tokens, whatever follows. -/
theorem ne_text_of_final {e : StreamError} (h : Stops .standard ⟨offset, rest⟩ (some e) c')
    (he : ¬ e.isTruncated) (more : List UInt8) (tokens : List Token) :
    rest ++ more ≠ text tokens := by
  obtain ⟨id, u, rfl, hid, hi⟩ := h.exists_head
  intro htext
  cases tokens with
  | nil => cases htext
  | cons t tokens =>
    cases t with
    | separator b hb =>
      obtain ⟨rfl, -⟩ := List.cons.inj htext
      exact hid hb
    | instruction id' payload op hid' hw =>
      have hword : id' :: payload <+: (id :: u) ++ more := ⟨text tokens, htext.symm⟩
      rcases List.prefix_or_prefix_of_prefix hword (List.prefix_append _ _) with hle | hge
      · exact Dialect.reads_item.not_word_prefix hi hw hle
      · exact he ((Dialect.reads_item.stuck hi).2 ⟨op, _, hw, hge⟩)

end Stops

namespace Run

/-- What stands behind tokens decides how a run over both ends. -/
theorem behind_tokens {tokens : List Token} {rest : List UInt8} {ops : List Opcode}
    {stop : Option StreamError} {c' : Cursor}
    (h : Run .standard (.start (text tokens ++ rest)) ops stop c') :
    ∃ ops', ops = opcodes tokens ++ ops' ∧
      Run .standard ⟨0 + (text tokens).length, rest⟩ ops' stop c' := by
  obtain ⟨ops', stop', c'', hrest⟩ := exists_run .standard ⟨0 + (text tokens).length, rest⟩
  obtain ⟨rfl, rfl, rfl⟩ := unique h (of_tokens tokens hrest)
  exact ⟨ops', rfl, hrest⟩

end Run

namespace Dialect
variable {data : List UInt8}

/-- The errors of the standard dialect are of three kinds. -/
theorem decode_error_cases {e : StreamError} (h : standard.decode data = .error e) :
    (∃ offset, e = .truncated offset) ∨ (∃ id offset, e = .unknownOpcode id offset) ∨
      ∃ offset flaw, e = .malformed offset flaw := by
  obtain ⟨tokens, rest, stop, c', -, hstop, hdecode, -⟩ := exists_stop data
  rw [hdecode] at h
  cases stop with
  | none => cases h
  | some e' =>
    cases h
    obtain ⟨id, u, -, -, hi⟩ := hstop.exists_head
    rcases item_cases id u with ⟨op, m, hok⟩ | ⟨e₀, m, behind, hfits, herror⟩
    · rw [hok] at hi
      cases hi
    · rw [herror] at hi
      cases hi
      cases e₀ with
      | truncated o => exact .inl ⟨_, rfl⟩
      | unknownOpcode id o => exact .inr (.inl ⟨_, _, rfl⟩)
      | malformed o flaw => exact .inr (.inr ⟨_, _, rfl⟩)
      | invalidOperand keyword fault => exact hfits.elim
      | io reason => exact hfits.elim

theorem exists_continuation_of_truncated {offset : Nat}
    (h : standard.decode data = .error (.truncated offset)) :
    ∃ more ops, standard.decode (data ++ more) = .ok ops := by
  obtain ⟨tokens, rest, stop, c', hdata, hstop, hdecode, -⟩ := exists_stop data
  rw [hdecode] at h
  cases stop with
  | none => cases h
  | some e =>
    cases h
    obtain ⟨t, more, ht⟩ := hstop.exists_completion rfl
    have htext : data ++ more = text (tokens ++ [t]) := by
      simp [hdata, ht]
    refine ⟨more, opcodes (tokens ++ [t]), ?_⟩
    rw [htext]
    exact decode_text _

theorem not_continuation_of_final {e : StreamError} (h : standard.decode data = .error e)
    (he : ¬ e.isTruncated) (more : List UInt8) (ops : List Opcode) :
    standard.decode (data ++ more) ≠ .ok ops := by
  intro hok
  obtain ⟨tokens, rest, stop, c', hdata, hstop, hdecode, -⟩ := exists_stop data
  rw [hdecode] at h
  cases stop with
  | none => cases h
  | some e' =>
    cases h
    obtain ⟨c'', hr⟩ := decode_eq_ok_iff_run.1 hok
    rw [hdata, List.append_assoc] at hr
    obtain ⟨ops', -, hrest⟩ := hr.behind_tokens
    obtain ⟨behind, htext, -⟩ := hrest.exists_text
    exact hstop.ne_text_of_final he more behind htext

theorem yielded_prefix_append (data more : List UInt8) :
    standard.yielded data <+: standard.yielded (data ++ more) := by
  obtain ⟨tokens, rest, stop, c', hdata, -, -, hyielded⟩ := exists_stop data
  obtain ⟨ops, stop', c'', hr⟩ := Run.exists_run .standard (.start (data ++ more))
  rw [yielded_of_run hr, hyielded]
  rw [hdata, List.append_assoc] at hr
  obtain ⟨ops', rfl, -⟩ := hr.behind_tokens
  exact List.prefix_append _ _

theorem exists_continuation_iff (data : List UInt8) :
    ((∃ ops, standard.decode data = .ok ops) ∨
        ∃ offset, standard.decode data = .error (.truncated offset)) ↔
      ∃ more ops, standard.decode (data ++ more) = .ok ops := by
  constructor
  · rintro (⟨ops, h⟩ | ⟨offset, h⟩)
    · exact ⟨[], ops, by rw [List.append_nil, h]⟩
    · exact exists_continuation_of_truncated h
  · rintro ⟨more, ops, hok⟩
    cases h : standard.decode data with
    | ok ops' => exact .inl ⟨ops', rfl⟩
    | error e =>
      rcases decode_error_cases h with ⟨o, rfl⟩ | ⟨id, o, rfl⟩ | ⟨o, flaw, rfl⟩
      · exact .inr ⟨o, rfl⟩
      · exact absurd hok (not_continuation_of_final h Bool.false_ne_true more ops)
      · exact absurd hok (not_continuation_of_final h Bool.false_ne_true more ops)

theorem final_iff_not_continuable (data : List UInt8) :
    ((∃ id offset, standard.decode data = .error (.unknownOpcode id offset)) ∨
        ∃ offset flaw, standard.decode data = .error (.malformed offset flaw)) ↔
      ¬ ((∃ ops, standard.decode data = .ok ops) ∨
        ∃ offset, standard.decode data = .error (.truncated offset)) := by
  cases h : standard.decode data with
  | ok ops => simp
  | error e => rcases decode_error_cases h with ⟨o, rfl⟩ | ⟨id, o, rfl⟩ | ⟨o, flaw, rfl⟩ <;> simp

/-- A stream is accepted or truncated exactly if some continuation is accepted, and it has an
unknown or a malformed opcode exactly if none is. What it yields is yielded in front of anything
more by every continuation. -/
theorem decode_continuation (data : List UInt8) :
    (((∃ ops, standard.decode data = .ok ops) ∨
        ∃ offset, standard.decode data = .error (.truncated offset)) ↔
      ∃ more ops, standard.decode (data ++ more) = .ok ops) ∧
    (((∃ id offset, standard.decode data = .error (.unknownOpcode id offset)) ∨
        ∃ offset flaw, standard.decode data = .error (.malformed offset flaw)) ↔
      ∀ more ops, standard.decode (data ++ more) ≠ .ok ops) ∧
    ∀ more, standard.yielded data <+: standard.yielded (data ++ more) := by
  refine ⟨exists_continuation_iff data, ?_, yielded_prefix_append data⟩
  rw [final_iff_not_continuable, exists_continuation_iff]
  simp only [not_exists, ne_eq]

end Dialect

end VectorStream
