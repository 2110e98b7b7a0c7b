import VectorStream.Proofs.Balance
import VectorStream.Proofs.Numerals
import VectorStream.Proofs.Tokens
import VectorStream.Proofs.Utf8

/-!
# The keyword for line weights

The operand of the keyword spells a weight: it is a numeral between white space. A stream can set
the weight with the keyword or with the opcode that holds it as a word, and both say the same. Any
other operand leaves the form unrecognized.
-/
namespace VectorStream
open Text

namespace Text

theorem Blank.toNat_lt_of_isAscii {b : UInt8} (h : isAscii b) : b.toNat < 0x80 := by
  simp only [isAscii, isSeparator, Bool.or_eq_true, decide_eq_true_eq] at h
  rcases h with (((rfl | rfl) | rfl) | rfl) | rfl <;> decide

/-- The blanks of ASCII are white space in a text. -/
theorem Blank.isUnicode_of_isAscii {b : UInt8} (h : isAscii b) :
    isUnicode (Char.ofNat b.toNat) := by
  simp only [isAscii, isSeparator, Bool.or_eq_true, decide_eq_true_eq] at h
  rcases h with (((rfl | rfl) | rfl) | rfl) | rfl <;> decide

theorem Blank.isUnicode_of_mem_ascii {bytes : List UInt8} (h : ∀ b ∈ bytes, isAscii b) :
    ∀ c ∈ Utf8.ascii bytes, isUnicode c := by
  intro c hc
  obtain ⟨b, hb, rfl⟩ := List.mem_map.1 hc
  exact isUnicode_of_isAscii (h b hb)

end Text

namespace Operand
open Utf8

/-- The payload is text in UTF-8, and the text is a numeral for the weight that may stand between
white space. -/
def Spells (n : Int16) (payload : List UInt8) : Prop :=
  ∃ text core, payload = text.flatMap String.utf8EncodeChar ∧
    Blank.Trimmed Blank.isUnicode text core ∧ Numeral.Denotes core n.toInt

variable {n : Int16} {payload front back : List UInt8}

theorem lineWeight_eq_ok_iff : lineWeight payload = .ok (.weight n) ↔ Spells n payload := by
  unfold lineWeight
  cases htext : Utf8.decode payload with
  | error fault =>
    simp only [reduceCtorEq, false_iff]
    rintro ⟨text, core, hpayload, -, -⟩
    rw [decode_eq_ok_iff.2 hpayload] at htext
    cases htext
  | ok text =>
    have hspells : Spells n payload ↔
        Numeral.parse (Blank.trim Blank.isUnicode text) = .ok n := by
      rw [Numeral.parse_eq_ok_iff]
      constructor
      · rintro ⟨other, core, hpayload, hcore, hnumber⟩
        rw [decode_eq_ok_iff.2 hpayload] at htext
        cases htext
        rw [← hcore.eq_trim]
        exact hnumber
      · intro hnumber
        exact ⟨text, _, decode_eq_ok_iff.1 htext, Blank.trimmed_trim, hnumber⟩
    rw [hspells]
    simp only
    cases Numeral.parse (Blank.trim Blank.isUnicode text) with
    | error fault => simp
    | ok value => simp

theorem lineWeight_of_not_spells (h : ∀ n, ¬ Spells n payload) :
    ∃ fault, lineWeight payload = .error (.invalidOperand lineWeightName fault) := by
  apply (lineWeight_cases payload).resolve_left
  rintro ⟨n, hn⟩
  exact h n (lineWeight_eq_ok_iff.1 hn)

/-- Blanks of ASCII can stand around an operand. -/
theorem spells_between_iff (hfront : ∀ b ∈ front, Blank.isAscii b)
    (hback : ∀ b ∈ back, Blank.isAscii b) :
    Spells n (front ++ (payload ++ back)) ↔ Spells n payload := by
  have htext (text : List Char) :
      front ++ (payload ++ back) = text.flatMap String.utf8EncodeChar ↔ ∃ middle,
        text = ascii front ++ (middle ++ ascii back) ∧
          payload = middle.flatMap String.utf8EncodeChar :=
    between_eq_encoded_iff (fun b hb => Blank.toNat_lt_of_isAscii (hfront b hb))
      fun b hb => Blank.toNat_lt_of_isAscii (hback b hb)
  have htrim (middle core : List Char) :
      Blank.Trimmed Blank.isUnicode (ascii front ++ (middle ++ ascii back)) core ↔
        Blank.Trimmed Blank.isUnicode middle core :=
    Blank.trimmed_between_iff (Blank.isUnicode_of_mem_ascii hfront)
      (Blank.isUnicode_of_mem_ascii hback)
  unfold Spells
  simp only [htext]
  constructor
  · rintro ⟨_, core, ⟨middle, rfl, hpayload⟩, hcore, hnumber⟩
    exact ⟨middle, core, hpayload, (htrim middle core).1 hcore, hnumber⟩
  · rintro ⟨middle, core, hpayload, hcore, hnumber⟩
    exact ⟨_, core, ⟨middle, rfl, hpayload⟩, (htrim middle core).2 hcore, hnumber⟩

/-- The characters that numerals and white space consist of. -/
def isPart (c : Char) : Bool := Blank.isUnicode c || c.isDigit || c = '+' || c = '-'

theorem Spells.isPart_of_mem (h : Spells n payload) {b : UInt8} (hb : b ∈ payload)
    (hlt : b.toNat < 0x80) : isPart (Char.ofNat b.toNat) := by
  obtain ⟨text, core, rfl, hcore, hnumber⟩ := h
  obtain ⟨front, back, rfl, hfront, hback⟩ := hcore.parts
  obtain ⟨c, hc, hbc⟩ := List.mem_flatMap.1 hb
  rw [← (eq_ascii_of_mem hbc hlt).1]
  simp only [isPart, Bool.or_eq_true, decide_eq_true_eq, or_assoc]
  rw [List.mem_append, List.mem_append] at hc
  rcases hc with hc | hc | hc
  · exact .inl (hfront c hc)
  · exact .inr (hnumber.mem hc)
  · exact .inl (hback c hc)

/-- No quote and no parenthesis is a part of a numeral or white space. -/
theorem Spells.balanced (h : Spells n payload) : Payload.Balanced payload := by
  apply Payload.Balanced.of_plain
  intro b hb
  have hne (x : UInt8) (hlt : x.toNat < 0x80) (hx : ¬ isPart (Char.ofNat x.toNat)) : b ≠ x := by
    rintro rfl
    exact hx (h.isPart_of_mem hb hlt)
  have hquote : ¬ Payload.isQuote b := by
    simp only [Payload.isQuote, Bool.or_eq_true, decide_eq_true_eq, not_or]
    exact ⟨hne 0x27 (by decide) (by decide), hne 0x22 (by decide) (by decide)⟩
  exact ⟨hquote, hne _ (by decide) (by decide), hne _ (by decide) (by decide)⟩

/-- The bytes of an extended opcode with this keyword. -/
def lineWeightForm (payload : List UInt8) : List UInt8 :=
  Payload.opening :: (lineWeightName.toList.flatMap String.utf8EncodeChar ++
    (payload ++ [Payload.closing]))

example : lineWeightForm [0x20, 0x35] =
    [0x28, 0x4C, 0x69, 0x6E, 0x65, 0x57, 0x65, 0x69, 0x67, 0x68, 0x74, 0x20, 0x35, 0x29] := by
  decide +kernel

theorem standardMeaning_of_spells (h : Spells n payload) :
    Keywords.standardMeaning lineWeightName payload = .weight n := by
  have htrim : Blank.Trimmed Blank.isAscii payload _ := Blank.trimmed_trim
  obtain ⟨front, back, hpayload, hfront, hback⟩ := htrim.parts
  rw [hpayload, spells_between_iff hfront hback] at h
  rw [Keywords.standardMeaning, if_pos rfl, lineWeight_eq_ok_iff.2 h]

theorem standardMeaning_of_not_spells (h : ∀ n, ¬ Spells n payload) :
    Keywords.standardMeaning lineWeightName payload = .unrecognized lineWeightName := by
  have htrim : Blank.Trimmed Blank.isAscii payload _ := Blank.trimmed_trim
  obtain ⟨front, back, hpayload, hfront, hback⟩ := htrim.parts
  rw [hpayload] at h
  simp only [spells_between_iff hfront hback] at h
  obtain ⟨fault, hfault⟩ := lineWeight_of_not_spells h
  rw [Keywords.standardMeaning, if_pos rfl, hfault]

end Operand

namespace Dialect
open Operand

theorem decode_instruction {id : UInt8} {w : List UInt8} {op : Opcode}
    (h : Instruction op (id :: w)) (hid : ¬ Blank.isSeparator id) :
    standard.decode (id :: w) = .ok [op] := by
  have htext : Token.text [.instruction id w op hid h] = id :: w := List.append_nil _
  rw [← htext, decode_text]
  rfl

theorem decode_lineWeightForm {payload : List UInt8} (hbalanced : Payload.Balanced payload)
    (hend : ∀ b v, payload ++ [Payload.closing] = b :: v → Payload.endsName b) :
    standard.decode (lineWeightForm payload) =
      .ok [Keywords.standardMeaning lineWeightName payload] := by
  have hname : ∀ b ∈ lineWeightName.toList.flatMap String.utf8EncodeChar,
      ¬ Payload.endsName b := by
    decide +kernel
  have hword := Form.Spells.extended _ payload hname hend (Payload.closes_iff_balanced.2 hbalanced)
  rw [Utf8.decodeLossy_encoded] at hword
  exact decode_instruction (.intro (by decide) hword) (by decide)

theorem decode_weight (n : Int16) :
    standard.decode (0x17 :: Width.short.bytes n) = .ok [.weight n] :=
  decode_instruction (.intro (by decide) (.weight n)) (by decide)

/-- The operand is accepted exactly if it spells a weight, and otherwise it is refused for what it
is. The keyword says the same as the opcode that holds the weight, whatever blanks stand around the
operand; with any other balanced payload it is an unrecognized opcode. -/
theorem line_weight_keyword :
    (∀ n payload, lineWeight payload = .ok (.weight n) ↔ Spells n payload) ∧
    (∀ payload, (∀ n, ¬ Spells n payload) →
      ∃ fault, lineWeight payload = .error (.invalidOperand lineWeightName fault)) ∧
    (∀ n payload front back, Spells n payload → (∀ b ∈ front, Blank.isAscii b) →
      (∀ b ∈ back, Blank.isAscii b) →
      standard.decode (lineWeightForm (0x20 :: (front ++ (payload ++ back)))) =
          standard.decode (0x17 :: Width.short.bytes n) ∧
        standard.decode (0x17 :: Width.short.bytes n) = .ok [.weight n]) ∧
    ∀ payload, Payload.Balanced payload → (∀ n, ¬ Spells n payload) →
      standard.decode (lineWeightForm (0x20 :: payload)) =
        .ok [.unrecognized lineWeightName] := by
  have hspace : ∀ b ∈ [(0x20 : UInt8)], Blank.isAscii b :=
    List.forall_mem_singleton.2 (by decide)
  have hend (payload : List UInt8) :
      ∀ b v, 0x20 :: payload ++ [Payload.closing] = b :: v → Payload.endsName b := by
    intro b v h
    obtain ⟨rfl, -⟩ := List.cons.inj h
    decide
  refine ⟨fun n payload => lineWeight_eq_ok_iff, fun payload => lineWeight_of_not_spells, ?_, ?_⟩
  · intro n payload front back h hfront hback
    have hwide : Spells n (0x20 :: (front ++ (payload ++ back))) :=
      (spells_between_iff (List.forall_mem_cons.2 ⟨by decide, hfront⟩) hback).2 h
    rw [decode_lineWeightForm hwide.balanced (hend _), standardMeaning_of_spells hwide,
      decode_weight]
    exact ⟨rfl, rfl⟩
  · intro payload hbalanced h
    have hwide (n : Int16) : ¬ Spells n (0x20 :: payload) := by
      have hiff : Spells n ([0x20] ++ (payload ++ [])) ↔ Spells n payload :=
        spells_between_iff hspace (by simp)
      rw [List.append_nil, List.singleton_append] at hiff
      rw [hiff]
      exact h n
    have hbalanced' := hbalanced.plain (b := 0x20) (by decide) (by decide) (by decide)
    rw [decode_lineWeightForm hbalanced' (hend _), standardMeaning_of_not_spells hwide]

/-- The least weight with zeros in front between spaces of two kinds, and a sign alone. -/
theorem line_weight_keyword_least :
    let payload : List UInt8 :=
      [0xC2, 0xA0, 0x2D, 0x30, 0x30, 0x33, 0x32, 0x37, 0x36, 0x38, 0xE3, 0x80, 0x80]
    Spells (-32768) payload ∧
      standard.decode (lineWeightForm (0x20 :: ([0x09] ++ (payload ++ [0x0C])))) =
        standard.decode [0x17, 0x00, 0x80] ∧
      standard.decode (lineWeightForm [0x20, 0x2B]) = .ok [.unrecognized lineWeightName] := by
  intro payload
  obtain ⟨haccepts, -, hagrees, hothers⟩ := line_weight_keyword
  have hspells : Spells (-32768) payload := (haccepts _ _).1 (by decide +kernel)
  have hrefused : lineWeight [0x2B] = .error (.invalidOperand lineWeightName
      (.numeral "+" .invalidDigit)) := by
    decide +kernel
  have hsign (n : Int16) : ¬ Spells n [0x2B] := by
    rw [← haccepts, hrefused]
    simp
  have hbalanced : Payload.Balanced [0x2B] := .plain (by decide) (by decide) (by decide) .nil
  have htab : ∀ b ∈ [(0x09 : UInt8)], Blank.isAscii b := List.forall_mem_singleton.2 (by decide)
  have hfeed : ∀ b ∈ [(0x0C : UInt8)], Blank.isAscii b := List.forall_mem_singleton.2 (by decide)
  exact ⟨hspells, (hagrees _ _ _ _ hspells htab hfeed).1, hothers _ hbalanced hsign⟩

end Dialect

end VectorStream
