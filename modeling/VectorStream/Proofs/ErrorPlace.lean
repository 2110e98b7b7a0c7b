import VectorStream.Proofs.Continuation
import VectorStream.Proofs.Progress

/-!
# Places of errors

Where decoding fails there is one item to blame. All that stands in front of it is accepted, and the
error is that its id is unknown, that its frame is malformed, or that the data end inside it. The
offset of the error is its first byte or, if the data end, a place behind this byte.
-/
namespace VectorStream
open Text

namespace Scan
variable {α β : Type} {P : StreamError → Prop}

/-- The errors of a scan are of a given kind. -/
def FailsWith (P : StreamError → Prop) (s : Scan α) : Prop := ∀ c e d, s c = .error e d → P e

namespace FailsWith

protected theorem pure (a : α) : FailsWith P (pure a) := by
  rintro c e d ⟨⟩

protected theorem throw {e : StreamError} (h : P e) : FailsWith P (throw e : Scan α) := by
  rintro c e' d ⟨⟩
  exact h

protected theorem bind {s : Scan α} {f : α → Scan β} (hs : FailsWith P s)
    (hf : ∀ a, FailsWith P (f a)) : FailsWith P (s >>= f) := by
  intro c e d h
  cases hc : s c with
  | ok a c' =>
    rw [bind_of_ok hc] at h
    exact hf a c' e d h
  | error e' c' =>
    rw [bind_of_error hc] at h
    cases h
    exact hs c e _ hc

protected theorem ite {p : Prop} [Decidable p] {s t : Scan α} (hs : FailsWith P s)
    (ht : FailsWith P t) : FailsWith P (if p then s else t) := by
  split <;> assumption

theorem mono {Q : StreamError → Prop} {s : Scan α} (h : FailsWith P s) (hPQ : ∀ e, P e → Q e) :
    FailsWith Q s := fun c e d he => hPQ e (h c e d he)

end FailsWith

/-- A scan that is not told where the base is cannot report an error there. So it fails for want of
data alone. -/
theorem Relocatable.failsWith {s : Scan α} (h : Relocatable fun _ => s) :
    FailsWith (fun e => e.isTruncated) s := by
  rintro ⟨offset, rest⟩ e d he
  rcases h offset rest with ⟨a, m, -, hok⟩ | ⟨e₀, m, hfits, -, herror⟩
  · cases he.symm.trans (hok 0)
  cases he.symm.trans (herror 0)
  -- One byte further behind the same error is met, counted from another base.
  rcases h (offset + 1) rest with ⟨a, k, -, hok⟩ | ⟨e₁, k, hfits', -, herror'⟩
  · cases (herror 1).symm.trans (hok 0)
  have hsame : e₀.shift 1 = e₁.shift 0 := by
    have hresult := (herror 1).symm.trans (herror' 0)
    simp only [EStateM.Result.error.injEq] at hresult
    exact hresult.1
  cases e₀ <;> cases e₁ <;> simp_all [StreamError.shift, StreamError.Fits, StreamError.isTruncated]

end Scan

namespace Form
open Scan

/-- A form has too few bytes to read, or it is a frame with a flaw. -/
theorem failsWith_readFrom (form : Form) (start : Nat) :
    FailsWith (fun e => e.isTruncated ∨ form = framed ∧ ∃ flaw, e = .malformed start flaw)
      (form.readFrom start) := by
  by_cases hform : form = framed
  · subst hform
    have hshort {α : Type} {s : Scan α} (h : Relocatable fun _ => s) :
        FailsWith (fun e => e.isTruncated ∨ framed = framed ∧ ∃ flaw, e = .malformed start flaw) s :=
      h.failsWith.mono fun e => .inl
    have hflaw {α : Type} (flaw : Flaw) :
        FailsWith (fun e => e.isTruncated ∨ framed = framed ∧ ∃ flaw, e = .malformed start flaw)
          (throw (.malformed start flaw) : Scan α) := .throw (.inr ⟨rfl, flaw, rfl⟩)
    exact .bind (hshort (relocatable_coord .long)) fun size => .ite (hflaw _) <|
      .bind (hshort relocatable_word) fun code => .bind (hshort (relocatable_skip _)) fun _ =>
        .bind (hshort relocatable_byte) fun close => .ite (.pure _) (hflaw _)
  · have hconst (base : Nat) : form.readFrom base = form.readFrom start := by
      cases form with
      | framed => exact absurd rfl hform
      | _ => rfl
    have hread := form.relocatable_readFrom
    simp only [hconst] at hread
    exact hread.failsWith.mono fun e => .inl

end Form

/-- The error is one of the item that starts at a place with an id byte. -/
def StreamError.PointsAt (id : UInt8) (start size : Nat) : StreamError → Prop
  | truncated offset => start < offset ∧ offset ≤ size
  | unknownOpcode found offset => Dialect.standard.layout? id = none ∧ found = id ∧ offset = start
  | malformed offset _ => id = 0x7B ∧ offset = start
  | _ => False

namespace Dialect
open Token

theorem id_of_framed {id : UInt8} (h : (id, Form.framed) ∈ standardForms) : id = 0x7B := by
  have hall : ∀ e ∈ standardForms, e.2 = .framed → e.1 = 0x7B := by decide
  exact hall _ h rfl

theorem pointsAt_of_item {id : UInt8} {start : Nat} {rest : List UInt8} {e : StreamError}
    {c : Cursor} (h : standard.item ⟨start, id :: rest⟩ = .error e c) :
    e.PointsAt id start (start + (id :: rest).length) := by
  cases hid : standard.layout? id with
  | none =>
    rw [item_of_layout?_none hid] at h
    cases h
    exact ⟨hid, rfl, rfl⟩
  | some layout =>
    obtain ⟨form, hmem, -⟩ := layout?_standard.1 hid
    have hread : form.readFrom start ⟨start + 1, rest⟩ = .error e c := by
      rw [← Form.read_apply, ← item_of_mem hmem, h]
    rcases form.failsWith_readFrom start _ _ _ hread with htruncated | ⟨rfl, flaw, rfl⟩
    · rcases item_cases id rest with ⟨op, m, hok⟩ | ⟨e₀, m, behind, hfits, herror⟩
      · cases h.symm.trans (hok start)
      cases h.symm.trans (herror start)
      cases e₀ with
      | truncated offset =>
        obtain ⟨hlow, hhigh⟩ := hfits
        constructor
        · omega
        · rw [List.length_cons]
          omega
      | _ => cases htruncated
    · exact ⟨id_of_framed hmem, rfl⟩

end Dialect

/-- The last thing that a failing decoder yields is its error, and then it stays where it is. -/
theorem Decoder.itemsFrom_of_failed_run {d : Dialect} {c c' : Cursor} {ops : List Opcode}
    {e : StreamError} (h : Run d c ops (some e) c') (found : List Item) :
    ∃ items, itemsFrom found ⟨d, c, false⟩ = (items ++ [⟨.error e, c'.offset⟩], ⟨d, c', true⟩) := by
  generalize hstop : some e = stop at h
  induction h generalizing found with
  | finish h => cases hstop
  | @halt c c' e' h hi =>
    cases hstop
    refine ⟨found.reverse, ?_⟩
    rw [itemsFrom_of_some (next_of_fail (s := ⟨d, c, false⟩) rfl h hi),
      itemsFrom_of_none (next_of_halted rfl), List.reverse_cons]
  | @item c c' c'' op ops stop hi hr ih =>
    rw [itemsFrom_of_some (next_of_item (s := ⟨d, c, false⟩) rfl hi)]
    exact ih _ hstop

namespace Dialect
open Token

/-- An item starts at the place with the id byte. In front of it all is accepted, as the opcodes
that a decoder yields of the whole data. -/
structure StandsAt (data : List UInt8) (start : Nat) (id : UInt8) : Prop where
  byte : data[start]? = some id
  not_separator : ¬ Blank.isSeparator id
  front : standard.decode (data.take start) = .ok (standard.yielded data)

/-- Between two such places nothing is yielded, so only separators could stand there. But an item
stands at the first one. -/
theorem StandsAt.le {data : List UInt8} {start start' : Nat} {id id' : UInt8}
    (h : StandsAt data start id) (h' : StandsAt data start' id') : start' ≤ start := by
  refine Nat.le_of_not_lt fun hlt => ?_
  obtain ⟨tokens, htext, ho⟩ := exists_text_of_decode h.front
  obtain ⟨hbound, hbyte⟩ := List.getElem?_eq_some_iff.1 h.byte
  obtain ⟨k, rfl⟩ := Nat.exists_eq_add_of_lt hlt
  have hfront : data.take (start + k + 1) =
      text tokens ++ id :: (data.drop (start + 1)).take k := by
    rw [htext, Nat.add_assoc, List.take_add, List.drop_eq_getElem_cons hbound, hbyte,
      List.take_succ_cons]
  obtain ⟨c, hr⟩ := decode_eq_ok_iff_run.1 h'.front
  rw [hfront] at hr
  obtain ⟨ops, hops, hbehind⟩ := hr.behind_tokens
  obtain rfl : ops = [] := by simpa [ho] using hops
  cases hbehind with
  | finish hend =>
    rw [Cursor.skipWhile_cons_of_neg h.not_separator] at hend
    cases hend

/-- Where decoding fails exactly one place has all the opcodes that were yielded in front of it and
an item behind it. The error points at this item, and an unknown id is not passed over. -/
theorem decode_error_place (data : List UInt8) (e : StreamError)
    (h : standard.decode data = .error e) :
    ∃ start id, StandsAt data start id ∧
      (∀ start' id', StandsAt data start' id' → start' = start) ∧
      e.PointsAt id start data.length ∧
      (standard.layout? id = none → e = .unknownOpcode id start ∧
        (Decoder.start standard data).items.1.getLast? = some ⟨.error e, start⟩ ∧
        (Decoder.start standard data).items.2.cursor.offset = start) := by
  obtain ⟨ops, c, hr⟩ := decode_eq_error_iff_run.1 h
  obtain ⟨tokens, rest, hdata, rfl, hstop⟩ := hr.exists_tokens
  obtain ⟨id, u, rfl, hid, hitem⟩ := hstop.exists_head
  have hdata' : data = text tokens ++ id :: u := hdata
  rw [Cursor.start, Nat.zero_add] at hitem
  have hstands : StandsAt data (text tokens).length id := by
    refine ⟨by simp [hdata'], hid, ?_⟩
    rw [yielded_of_run hr, hdata', List.take_left, decode_text]
  have hpoints := pointsAt_of_item hitem
  rw [← List.length_append, ← hdata'] at hpoints
  refine ⟨(text tokens).length, id, hstands,
    fun _ _ h' => Nat.le_antisymm (hstands.le h') (h'.le hstands), hpoints, fun hnone => ?_⟩
  rw [item_of_layout?_none hnone] at hitem
  cases hitem
  obtain ⟨items, hitems⟩ := Decoder.itemsFrom_of_failed_run hr []
  have hall : (Decoder.start standard data).items = _ := hitems
  rw [hall]
  exact ⟨rfl, List.getLast?_concat, rfl⟩

/-- An unknown id behind an opcode and a line feed. -/
theorem decode_error_place_unknown :
    let data : List UInt8 := [0x20, 0x56, 0x0A, 0xFF, 0x56]
    standard.decode data = .error (.unknownOpcode 0xFF 3) ∧ StandsAt data 3 0xFF ∧
      (∀ start id, StandsAt data start id → start = 3) ∧
      (Decoder.start standard data).items.2.cursor.offset = 3 := by
  intro data
  have hfail : Run .standard ⟨2, [0x0A, 0xFF, 0x56]⟩ [] (some (.unknownOpcode 0xFF 3))
      ⟨3, [0xFF, 0x56]⟩ := .separator (by decide) (.halt_of_head (by decide) rfl)
  have hr : Run .standard (.start data) [.visibility true] (some (.unknownOpcode 0xFF 3))
      ⟨3, [0xFF, 0x56]⟩ := .separator (by decide) (.item_of_head (by decide) rfl hfail)
  obtain ⟨start, id, hstands, hunique, ⟨hnone, rfl, rfl⟩, hunknown⟩ :=
    decode_error_place data _ (decode_of_run hr)
  exact ⟨decode_of_run hr, hstands, hunique, (hunknown hnone).2.2⟩

end Dialect

end VectorStream
