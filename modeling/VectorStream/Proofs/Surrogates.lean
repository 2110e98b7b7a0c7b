import Mathlib.Data.List.Induction
import VectorStream.Proofs.Encoding
import VectorStream.Proofs.Utf16

/-!
# Surrogates in texts

Any code units can be read as a text. The units of this text are the given ones, except that the
replacement character stands for every surrogate without a counterpart. No other text has these
units.
-/
namespace VectorStream
open Text

namespace Text.Utf16

/-- A high surrogate that no low one follows, or a low one that no high one precedes. A high one
in front of a low one is never part of an earlier pair, so its neighbours decide on a unit. -/
def unpairedAt (units : List UInt16) (i : Nat) : Bool :=
  units[i]?.any isHigh && !units[i + 1]?.any isLow ||
    units[i]?.any isLow && !(0 < i && units[i - 1]?.any isHigh)

/-- The second list has the units of the first one, with every unpaired surrogate replaced. -/
def Mends (units mended : List UInt16) : Prop :=
  ∀ i, mended[i]? = if unpairedAt units i then some 0xFFFD else units[i]?

variable {u v : UInt16} {units mended rest : List UInt16}

/-- What is left of a unit that is not part of a pair. -/
def mendAlone (u : UInt16) : UInt16 := if isHigh u || isLow u then 0xFFFD else u

theorem encodeChar_ofUnit (u : UInt16) : encodeChar (ofUnit u) = [mendAlone u] := by
  unfold ofUnit mendAlone
  by_cases hs : isHigh u || isLow u
  · rw [if_pos hs, if_pos hs]
    rfl
  · have hlt : u.toNat < 0x10000 := u.toNat_lt
    have hbasic : u.toNat < 0xD800 ∨ 0xE000 ≤ u.toNat := by
      rw [Bool.or_eq_true, isHigh_iff, isLow_iff] at hs
      omega
    have hvalid : u.toNat.isValidChar := by
      rcases hbasic with h | h
      · exact .inl h
      · exact .inr ⟨by omega, by omega⟩
    rw [if_neg hs, if_neg hs, encodeChar, toNat_ofNat hvalid, if_pos hlt, UInt16.ofNat_toNat]

theorem encodeChar_ofPair (hu : isHigh u) (hv : isLow v) : encodeChar (ofPair u v) = [u, v] := by
  rw [isHigh_iff] at hu
  rw [isLow_iff] at hv
  have hvalid : (0x10000 + (u.toNat - 0xD800) * 0x400 + (v.toNat - 0xDC00)).isValidChar :=
    .inr ⟨by omega, by omega⟩
  have hhigh : 0xD800 + (0x10000 + (u.toNat - 0xD800) * 0x400 + (v.toNat - 0xDC00) - 0x10000) /
      0x400 = u.toNat := by omega
  have hlow : 0xDC00 + (0x10000 + (u.toNat - 0xD800) * 0x400 + (v.toNat - 0xDC00) - 0x10000) %
      0x400 = v.toNat := by omega
  rw [ofPair, encodeChar, toNat_ofNat hvalid, if_neg (by omega), hhigh, hlow, UInt16.ofNat_toNat,
    UInt16.ofNat_toNat]

theorem decodeFrom_eq (read : List Char) (units : List UInt16) :
    decodeFrom read units = read.reverse ++ decodeFrom [] units := by
  induction units using List.twoStepInduction generalizing read with
  | nil => simp [decodeFrom]
  | singleton u => simp [decodeFrom]
  | cons_cons u v rest ih ih' =>
    simp only [decodeFrom]
    split
    · rw [ih, ih [_]]
      simp
    · rw [ih', ih' _ [_]]
      simp

theorem encode_decodeLossy_nil : encode (decodeLossy []) = [] := by
  simp [encode, decodeLossy, decodeFrom]

theorem encode_decodeLossy_pair (hu : isHigh u) (hv : isLow v) (rest : List UInt16) :
    encode (decodeLossy (u :: v :: rest)) = u :: v :: encode (decodeLossy rest) := by
  have hdecode : decodeFrom [] (u :: v :: rest) = ofPair u v :: decodeFrom [] rest := by
    rw [decodeFrom, hu, hv, Bool.and_self, if_pos rfl, decodeFrom_eq]
    rfl
  simp only [encode, decodeLossy, hdecode, String.toList_ofList, List.flatMap_cons,
    encodeChar_ofPair hu hv, List.cons_append, List.nil_append]

theorem encode_decodeLossy_alone (h : isHigh u → ¬ rest.head?.any isLow) :
    encode (decodeLossy (u :: rest)) = mendAlone u :: encode (decodeLossy rest) := by
  have hdecode : decodeFrom [] (u :: rest) = ofUnit u :: decodeFrom [] rest := by
    cases rest with
    | nil => rfl
    | cons v rest =>
      have hpair : ¬ (isHigh u && isLow v) := by
        rw [Bool.and_eq_true]
        exact fun k => h k.1 k.2
      rw [decodeFrom, if_neg hpair, decodeFrom_eq]
      rfl
  simp only [encode, decodeLossy, hdecode, String.toList_ofList, List.flatMap_cons,
    encodeChar_ofUnit, List.cons_append, List.nil_append]

theorem unpairedAt_cons_succ (i : Nat) :
    unpairedAt (u :: rest) (i + 2) = unpairedAt rest (i + 1) := by
  simp [unpairedAt]

/-- Behind a unit that is not the first one of a pair the others are what they are by themselves. -/
theorem unpairedAt_cons (h : isHigh u → ¬ rest.head?.any isLow) (i : Nat) :
    unpairedAt (u :: rest) (i + 1) = unpairedAt rest i := by
  cases i with
  | zero =>
    cases rest with
    | nil => rfl
    | cons v rest =>
      cases hu : isHigh u with
      | true =>
        have hv : isLow v = false := by simpa using h hu
        simp [unpairedAt, hu, hv]
      | false => simp [unpairedAt, hu]
  | succ i => exact unpairedAt_cons_succ i

theorem Mends.alone (h : isHigh u → ¬ rest.head?.any isLow) (hm : Mends rest mended) :
    Mends (u :: rest) (mendAlone u :: mended) := by
  intro i
  cases i with
  | zero =>
    have hunpaired : unpairedAt (u :: rest) 0 = (isHigh u || isLow u) := by
      cases hu : isHigh u with
      | true =>
        have hrest : rest[0]?.any isLow = false := by simpa [List.head?_eq_getElem?] using h hu
        simp [unpairedAt, hu, hrest]
      | false => simp [unpairedAt, hu]
    rw [hunpaired, List.getElem?_cons_zero, List.getElem?_cons_zero, mendAlone]
    split <;> rfl
  | succ i => rw [List.getElem?_cons_succ, List.getElem?_cons_succ, unpairedAt_cons h, hm i]

theorem Mends.pair (hu : isHigh u) (hv : isLow v) (hm : Mends rest mended) :
    Mends (u :: v :: rest) (u :: v :: mended) := by
  have hu' : isLow u = false := isLow_eq_false_of_isHigh hu
  have hv' : isHigh v = false := by
    rw [Bool.eq_false_iff]
    intro k
    rw [isLow_eq_false_of_isHigh k] at hv
    cases hv
  intro i
  cases i with
  | zero => simp [unpairedAt, hv, hu']
  | succ i =>
    cases i with
    | zero => simp [unpairedAt, hu, hv']
    | succ i =>
      have halone : isHigh v → ¬ rest.head?.any isLow := by simp [hv']
      rw [unpairedAt_cons_succ, unpairedAt_cons halone]
      simpa only [List.getElem?_cons_succ] using hm i

theorem mends_decodeLossy (units : List UInt16) : Mends units (encode (decodeLossy units)) := by
  have hnil : Mends [] (encode (decodeLossy [])) := by
    intro i
    simp [encode_decodeLossy_nil, unpairedAt]
  induction units using List.twoStepInduction with
  | nil => exact hnil
  | singleton u =>
    have halone : isHigh u → ¬ ([] : List UInt16).head?.any isLow := by simp
    rw [encode_decodeLossy_alone halone]
    exact hnil.alone halone
  | cons_cons u v rest ih ih' =>
    by_cases hpair : isHigh u ∧ isLow v
    · rw [encode_decodeLossy_pair hpair.1 hpair.2]
      exact ih.pair hpair.1 hpair.2
    · have halone : isHigh u → ¬ (v :: rest).head?.any isLow := fun hu hv => hpair ⟨hu, hv⟩
      rw [encode_decodeLossy_alone halone]
      exact (ih' v).alone halone

/-- A high surrogate in front of a pair has no low one, and a low one behind it has no high one. -/
example : encode (decodeLossy [0xD800, 0xD800, 0xDC00, 0xDC00]) =
    [0xFFFD, 0xD800, 0xDC00, 0xFFFD] := by
  decide

theorem Mends.length_eq (h : Mends units mended) : mended.length = units.length := by
  have hnone (i : Nat) : mended.length ≤ i ↔ units.length ≤ i := by
    rw [← List.getElem?_eq_none_iff, ← List.getElem?_eq_none_iff, h i]
    split
    next hunpaired =>
      constructor
      · intro k
        cases k
      · intro k
        simp [unpairedAt, k] at hunpaired
    next => exact Iff.rfl
  have hle := (hnone mended.length).1 (Nat.le_refl _)
  have hge := (hnone units.length).2 (Nat.le_refl _)
  omega

theorem length_encode_decodeLossy (units : List UInt16) :
    (encode (decodeLossy units)).length = units.length :=
  (mends_decodeLossy units).length_eq

theorem encode_injective {text other : String} (h : encode text = encode other) : text = other := by
  rw [← decodeLossy_encode text, h, decodeLossy_encode]

/-- One text has the mended units, since they determine both the units and the text. -/
theorem mends_encode_iff {text : String} :
    Mends units (encode text) ↔ text = decodeLossy units := by
  constructor
  · intro h
    apply encode_injective
    apply List.ext_getElem?
    intro i
    rw [h i, mends_decodeLossy units i]
  · rintro rfl
    exact mends_decodeLossy units

end Text.Utf16

namespace Scan
open Text.Utf16

theorem text_flatMap_unitBytes (units : List UInt16) (offset : Nat) (rest : List UInt8) :
    text units.length ⟨offset, units.flatMap unitBytes ++ rest⟩ =
      .ok (decodeLossy units) ⟨offset + 2 * units.length, rest⟩ := by
  have hword : ∃ read, decodeLossy read = decodeLossy units ∧ read.length = units.length ∧
      units.flatMap unitBytes = read.flatMap unitBytes := ⟨units, rfl, rfl, rfl⟩
  rw [(reads_text units.length).accepts hword, length_flatMap_bytes length_unitBytes, Nat.mul_comm]

/-- A text is read off any code units. It is the one text that has these units up to surrogates
without a counterpart, it has as many of them, and the units of a text are read as this text. -/
theorem text_mends :
    (∀ (units : List UInt16) (offset : Nat) (rest : List UInt8), ∃ content : String,
      text units.length ⟨offset, units.flatMap unitBytes ++ rest⟩ =
        .ok content ⟨offset + 2 * units.length, rest⟩ ∧
      (∀ other : String, Mends units (encode other) ↔ other = content) ∧
      (encode content).length = units.length) ∧
    ∀ (content : String) (offset : Nat) (rest : List UInt8),
      text (encode content).length ⟨offset, (encode content).flatMap unitBytes ++ rest⟩ =
        .ok content ⟨offset + 2 * (encode content).length, rest⟩ := by
  constructor
  · intro units offset rest
    exact ⟨decodeLossy units, text_flatMap_unitBytes units offset rest, fun _ => mends_encode_iff,
      length_encode_decodeLossy units⟩
  · intro content offset rest
    rw [text_flatMap_unitBytes, decodeLossy_encode]

end Scan

end VectorStream
