import VectorStream.Proofs.Utf8
import VectorStream.Text.Utf16

/-!
# UTF-16 of texts

Every text is read back from its code units. A character of the basic plane is no surrogate, and
each other one is written as a high surrogate with the low one that belongs to it.
-/
namespace VectorStream.Text.Utf16

variable {u : UInt16}

theorem isHigh_iff : isHigh u ↔ 0xD800 ≤ u.toNat ∧ u.toNat < 0xDC00 := by
  simp [isHigh, UInt16.le_iff_toNat_le, UInt16.lt_iff_toNat_lt]

theorem isLow_iff : isLow u ↔ 0xDC00 ≤ u.toNat ∧ u.toNat < 0xE000 := by
  simp [isLow, UInt16.le_iff_toNat_le, UInt16.lt_iff_toNat_lt]

theorem isLow_eq_false_of_isHigh (h : isHigh u) : isLow u = false := by
  rw [Bool.eq_false_iff, Ne, isLow_iff]
  rw [isHigh_iff] at h
  omega

theorem isHigh_ofNat {n : Nat} (h : n < 0x10000) :
    isHigh (UInt16.ofNat n) ↔ 0xD800 ≤ n ∧ n < 0xDC00 := by
  rw [isHigh_iff, UInt16.toNat_ofNat', Nat.mod_eq_of_lt h]

theorem isLow_ofNat {n : Nat} (h : n < 0x10000) :
    isLow (UInt16.ofNat n) ↔ 0xDC00 ≤ n ∧ n < 0xE000 := by
  rw [isLow_iff, UInt16.toNat_ofNat', Nat.mod_eq_of_lt h]

theorem ofUnit_of_basic {c : Char} (h : c.toNat < 0x10000) :
    isHigh (UInt16.ofNat c.toNat) = false ∧ ofUnit (UInt16.ofNat c.toNat) = c := by
  have hc := toNat_not_surrogate c
  have hhigh : isHigh (UInt16.ofNat c.toNat) = false := by
    rw [Bool.eq_false_iff, Ne, isHigh_ofNat h]
    omega
  have hlow : isLow (UInt16.ofNat c.toNat) = false := by
    rw [Bool.eq_false_iff, Ne, isLow_ofNat h]
    omega
  refine ⟨hhigh, ?_⟩
  rw [ofUnit, hhigh, hlow, UInt16.toNat_ofNat', Nat.mod_eq_of_lt h]
  exact Char.ofNat_toNat c

/-- The excess of a character over the basic plane is split into ten bits for each surrogate. -/
theorem ofPair_of_excess {c : Char} (h : 0x10000 ≤ c.toNat) :
    isHigh (UInt16.ofNat (0xD800 + (c.toNat - 0x10000) / 0x400)) = true ∧
      isLow (UInt16.ofNat (0xDC00 + (c.toNat - 0x10000) % 0x400)) = true ∧
      ofPair (UInt16.ofNat (0xD800 + (c.toNat - 0x10000) / 0x400))
        (UInt16.ofNat (0xDC00 + (c.toNat - 0x10000) % 0x400)) = c := by
  have hc := toNat_lt c
  have hhigh : 0xD800 + (c.toNat - 0x10000) / 0x400 < 0xDC00 := by omega
  have hlow : 0xDC00 + (c.toNat - 0x10000) % 0x400 < 0xE000 := by omega
  refine ⟨(isHigh_ofNat (by omega)).2 (by omega), (isLow_ofNat (by omega)).2 (by omega), ?_⟩
  have hsum : 0x10000 + (0xD800 + (c.toNat - 0x10000) / 0x400 - 0xD800) * 0x400 +
      (0xDC00 + (c.toNat - 0x10000) % 0x400 - 0xDC00) = c.toNat := by
    omega
  rw [ofPair, UInt16.toNat_ofNat', UInt16.toNat_ofNat', Nat.mod_eq_of_lt (by omega),
    Nat.mod_eq_of_lt (by omega), hsum]
  exact Char.ofNat_toNat c

/-- The units of a character in front of others are read as this character. -/
theorem decodeFrom_encodeChar (read : List Char) (c : Char) (rest : List UInt16) :
    decodeFrom read (encodeChar c ++ rest) = decodeFrom (c :: read) rest := by
  by_cases h : c.toNat < 0x10000
  · obtain ⟨hhigh, hunit⟩ := ofUnit_of_basic h
    simp only [encodeChar, if_pos h, List.singleton_append]
    cases rest with
    | nil => simp [decodeFrom, hunit]
    | cons next rest => simp [decodeFrom, hhigh, hunit]
  · obtain ⟨hhigh, hlow, hpair⟩ := ofPair_of_excess (Nat.le_of_not_lt h)
    simp only [encodeChar, if_neg h, List.cons_append, List.nil_append]
    rw [decodeFrom, hhigh, hlow, Bool.and_self, if_pos rfl, hpair]

theorem decodeFrom_encode (read text : List Char) :
    decodeFrom read (text.flatMap encodeChar) = read.reverse ++ text := by
  induction text generalizing read with
  | nil => simp [decodeFrom]
  | cons c text ih => simp [decodeFrom_encodeChar, ih]

theorem decodeLossy_encode (text : String) : decodeLossy (encode text) = text := by
  rw [decodeLossy, encode, decodeFrom_encode, List.reverse_nil, List.nil_append,
    String.ofList_toList]

end VectorStream.Text.Utf16
