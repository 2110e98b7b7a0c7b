import Mathlib.Data.List.Forall2
import VectorStream.Text.Utf8

/-!
# UTF-8 of texts

The decoder accepts exactly the encodings of texts. The bounds of the bytes that follow a lead byte
leave the one encoding of each character and nothing else.
-/
namespace VectorStream.Text

theorem toNat_not_surrogate (c : Char) : c.toNat < 0xD800 ∨ 0xE000 ≤ c.toNat := by
  have hvalid : c.toNat < 0xD800 ∨ 0xDFFF < c.toNat ∧ c.toNat < 0x110000 := c.valid
  omega

theorem toNat_lt (c : Char) : c.toNat < 0x110000 := by
  have hvalid : c.toNat < 0xD800 ∨ 0xDFFF < c.toNat ∧ c.toNat < 0x110000 := c.valid
  omega

theorem toNat_ofNat {n : Nat} (h : n.isValidChar) : (Char.ofNat n).toNat = n := by
  rw [Char.ofNat, dif_pos h]
  rfl

namespace Utf8

/-- Each byte lies between its bounds. -/
def Fits (bounds : List (UInt8 × UInt8)) (tail : List UInt8) : Prop :=
  List.Forall₂ (fun bound b => bound.1.toNat ≤ b.toNat ∧ b.toNat ≤ bound.2.toNat) bounds tail

/-- The value of a character from the bits of its lead byte and the bytes behind it. -/
def assemble (value : Nat) (tail : List UInt8) : Nat :=
  tail.foldl (fun value b => 64 * value + b.toNat % 64) value

variable {lead : UInt8} {bounds : List (UInt8 × UInt8)} {bytes tail : List UInt8} {c : Char}

theorem follow_eq_ok_iff {value length n : Nat} :
    follow value length bounds bytes = (n, .ok c) ↔ ∃ tail rest, bytes = tail ++ rest ∧
      Fits bounds tail ∧ n = length + tail.length ∧ c = Char.ofNat (assemble value tail) := by
  induction bounds generalizing value length bytes with
  | nil =>
    have hnil : follow value length [] bytes = (length, .ok (Char.ofNat value)) := by
      cases bytes <;> rfl
    rw [hnil]
    constructor
    · intro h
      cases h
      exact ⟨[], bytes, rfl, .nil, rfl, rfl⟩
    · rintro ⟨tail, rest, rfl, hfits, rfl, rfl⟩
      cases hfits
      rfl
  | cons bound bounds ih =>
    obtain ⟨low, high⟩ := bound
    cases bytes with
    | nil =>
      constructor
      · intro h
        cases h
      · rintro ⟨tail, rest, hnil, hfits, -, -⟩
        cases hfits
        cases hnil
    | cons b bytes =>
      rw [follow]
      by_cases hb : low ≤ b ∧ b ≤ high
      · rw [if_pos hb, ih]
        constructor
        · rintro ⟨tail, rest, rfl, hfits, rfl, rfl⟩
          exact ⟨b :: tail, rest, rfl, .cons hb hfits, by simp; omega, rfl⟩
        · rintro ⟨tail, rest, heq, hfits, rfl, rfl⟩
          cases hfits with
          | cons hx hfits =>
            obtain ⟨rfl, rfl⟩ := List.cons.inj heq
            exact ⟨_, rest, rfl, hfits, by simp; omega, rfl⟩
      · rw [if_neg hb]
        constructor
        · intro h
          cases h
        · rintro ⟨tail, rest, heq, hfits, -, -⟩
          cases hfits with
          | cons hx hfits =>
            obtain ⟨rfl, -⟩ := List.cons.inj heq
            exact absurd hx hb

/-! ## The classes of lead bytes -/

theorem followers_one (h : lead.toNat < 0x80) : followers lead = some [] := by
  simp only [followers, UInt8.lt_iff_toNat_lt]
  exact if_pos h

theorem followers_two (h : 0xC2 ≤ lead.toNat) (h' : lead.toNat < 0xE0) :
    followers lead = some [(0x80, 0xBF)] := by
  simp only [followers, UInt8.lt_iff_toNat_lt, UInt8.reduceToNat]
  rw [if_neg (by omega), if_neg (by omega), if_pos h']

/-- The byte behind the lead byte excludes overlong forms and surrogates. -/
theorem followers_three (h : 0xE0 ≤ lead.toNat) (h' : lead.toNat < 0xF0) : ∃ low high : UInt8,
    followers lead = some [(low, high), (0x80, 0xBF)] ∧
      ∀ n, low.toNat ≤ n ∧ n ≤ high.toNat ↔ (0x80 ≤ n ∧ n ≤ 0xBF) ∧
        (lead.toNat = 0xE0 → 0xA0 ≤ n) ∧ (lead.toNat = 0xED → n ≤ 0x9F) := by
  simp only [followers, UInt8.lt_iff_toNat_lt, ← UInt8.toNat_inj, UInt8.reduceToNat]
  rw [if_neg (by omega), if_neg (by omega), if_neg (by omega), if_pos h']
  by_cases hfirst : lead.toNat = 0xE0
  · exact ⟨0xA0, 0xBF, by rw [if_pos hfirst], fun n => by simp; omega⟩
  by_cases hsurrogate : lead.toNat = 0xED
  · exact ⟨0x80, 0x9F, by rw [if_neg hfirst, if_pos hsurrogate], fun n => by simp; omega⟩
  · exact ⟨0x80, 0xBF, by rw [if_neg hfirst, if_neg hsurrogate], fun n => by simp; omega⟩

/-- The byte behind the lead byte excludes overlong forms and values that are too large. -/
theorem followers_four (h : 0xF0 ≤ lead.toNat) (h' : lead.toNat < 0xF5) : ∃ low high : UInt8,
    followers lead = some [(low, high), (0x80, 0xBF), (0x80, 0xBF)] ∧
      ∀ n, low.toNat ≤ n ∧ n ≤ high.toNat ↔ (0x80 ≤ n ∧ n ≤ 0xBF) ∧
        (lead.toNat = 0xF0 → 0x90 ≤ n) ∧ (lead.toNat = 0xF4 → n ≤ 0x8F) := by
  simp only [followers, UInt8.lt_iff_toNat_lt, ← UInt8.toNat_inj, UInt8.reduceToNat]
  rw [if_neg (by omega), if_neg (by omega), if_neg (by omega),
    if_neg (by omega), if_pos h']
  by_cases hfirst : lead.toNat = 0xF0
  · exact ⟨0x90, 0xBF, by rw [if_pos hfirst], fun n => by simp; omega⟩
  by_cases hlast : lead.toNat = 0xF4
  · exact ⟨0x80, 0x8F, by rw [if_neg hfirst, if_pos hlast], fun n => by simp; omega⟩
  · exact ⟨0x80, 0xBF, by rw [if_neg hfirst, if_neg hlast], fun n => by simp; omega⟩

theorem lead_cases (h : followers lead = some bounds) : lead.toNat < 0x80 ∨
    (0xC2 ≤ lead.toNat ∧ lead.toNat < 0xE0) ∨ (0xE0 ≤ lead.toNat ∧ lead.toNat < 0xF0) ∨
      (0xF0 ≤ lead.toNat ∧ lead.toNat < 0xF5) := by
  simp only [followers, UInt8.lt_iff_toNat_lt, UInt8.reduceToNat] at h
  split at h
  · exact .inl ‹_›
  split at h
  · cases h
  split at h
  · exact .inr (.inl ⟨Nat.le_of_not_lt ‹_›, ‹_›⟩)
  split at h
  · exact .inr (.inr (.inl ⟨Nat.le_of_not_lt ‹_›, ‹_›⟩))
  split at h
  · exact .inr (.inr (.inr ⟨Nat.le_of_not_lt ‹_›, ‹_›⟩))
  · cases h

/-! ## Encodings of characters -/

theorem utf8EncodeChar_one (h : lead.toNat < 0x80) :
    String.utf8EncodeChar (Char.ofNat lead.toNat) = [lead] := by
  have hval : (Char.ofNat lead.toNat).val.toNat = lead.toNat := toNat_ofNat (.inl (by omega))
  simp only [String.utf8EncodeChar, hval]
  rw [if_pos (by omega), UInt8.ofNat_toNat]

theorem utf8EncodeChar_two (h : 0xC2 ≤ lead.toNat) (h' : lead.toNat < 0xE0) {b : UInt8}
    (hb : 0x80 ≤ b.toNat ∧ b.toNat ≤ 0xBF) :
    String.utf8EncodeChar (Char.ofNat (64 * (lead.toNat % 32) + b.toNat % 64)) = [lead, b] := by
  generalize hn : 64 * (lead.toNat % 32) + b.toNat % 64 = n
  have hval : (Char.ofNat n).val.toNat = n := toNat_ofNat (.inl (by omega))
  have hlead : n / 64 % 32 + 0xC0 = lead.toNat := by omega
  have hlast : n % 64 + 0x80 = b.toNat := by omega
  simp only [String.utf8EncodeChar, hval]
  rw [if_neg (by omega), if_pos (by omega), hlead, hlast]
  simp only [UInt8.ofNat_toNat]

theorem utf8EncodeChar_three (h : 0xE0 ≤ lead.toNat) (h' : lead.toNat < 0xF0) {b d : UInt8}
    (hb : (0x80 ≤ b.toNat ∧ b.toNat ≤ 0xBF) ∧ (lead.toNat = 0xE0 → 0xA0 ≤ b.toNat) ∧
      (lead.toNat = 0xED → b.toNat ≤ 0x9F)) (hd : 0x80 ≤ d.toNat ∧ d.toNat ≤ 0xBF) :
    String.utf8EncodeChar
      (Char.ofNat (64 * (64 * (lead.toNat % 16) + b.toNat % 64) + d.toNat % 64)) =
        [lead, b, d] := by
  generalize hn : 64 * (64 * (lead.toNat % 16) + b.toNat % 64) + d.toNat % 64 = n
  have hvalid : n.isValidChar := by
    rcases Nat.lt_or_ge n 0xD800 with k | k
    · exact .inl k
    · exact .inr ⟨by omega, by omega⟩
  have hval : (Char.ofNat n).val.toNat = n := toNat_ofNat hvalid
  have hlead : n / 4096 % 16 + 0xE0 = lead.toNat := by omega
  have hmiddle : n / 64 % 64 + 0x80 = b.toNat := by omega
  have hlast : n % 64 + 0x80 = d.toNat := by omega
  simp only [String.utf8EncodeChar, hval]
  rw [if_neg (by omega), if_neg (by omega), if_pos (by omega), hlead, hmiddle, hlast]
  simp only [UInt8.ofNat_toNat]

theorem utf8EncodeChar_four (h : 0xF0 ≤ lead.toNat) (h' : lead.toNat < 0xF5) {b d e : UInt8}
    (hb : (0x80 ≤ b.toNat ∧ b.toNat ≤ 0xBF) ∧ (lead.toNat = 0xF0 → 0x90 ≤ b.toNat) ∧
      (lead.toNat = 0xF4 → b.toNat ≤ 0x8F)) (hd : 0x80 ≤ d.toNat ∧ d.toNat ≤ 0xBF)
    (he : 0x80 ≤ e.toNat ∧ e.toNat ≤ 0xBF) :
    String.utf8EncodeChar (Char.ofNat
      (64 * (64 * (64 * (lead.toNat % 8) + b.toNat % 64) + d.toNat % 64) + e.toNat % 64)) =
        [lead, b, d, e] := by
  generalize hn : 64 * (64 * (64 * (lead.toNat % 8) + b.toNat % 64) + d.toNat % 64) +
    e.toNat % 64 = n
  have hval : (Char.ofNat n).val.toNat = n := toNat_ofNat (.inr ⟨by omega, by omega⟩)
  have hlead : n / 262144 % 8 + 0xF0 = lead.toNat := by omega
  have hsecond : n / 4096 % 64 + 0x80 = b.toNat := by omega
  have hthird : n / 64 % 64 + 0x80 = d.toNat := by omega
  have hlast : n % 64 + 0x80 = e.toNat := by omega
  simp only [String.utf8EncodeChar, hval]
  rw [if_neg (by omega), if_neg (by omega), if_neg (by omega), hlead, hsecond, hthird, hlast]
  simp only [UInt8.ofNat_toNat]

/-- Bytes that fit the bounds encode the character that they are read as. -/
theorem utf8EncodeChar_of_fits (h : followers lead = some bounds) (hfits : Fits bounds tail) :
    String.utf8EncodeChar (Char.ofNat (assemble (leadBits lead bounds.length) tail)) =
      lead :: tail := by
  rcases lead_cases h with hlt | ⟨hge, hlt⟩ | ⟨hge, hlt⟩ | ⟨hge, hlt⟩
  · rw [followers_one hlt] at h
    cases h
    rw [List.forall₂_nil_left_iff.1 hfits]
    exact utf8EncodeChar_one hlt
  · rw [followers_two hge hlt] at h
    cases h
    obtain ⟨b, _, hb, hnil, rfl⟩ := List.forall₂_cons_left_iff.1 hfits
    rw [List.forall₂_nil_left_iff.1 hnil]
    exact utf8EncodeChar_two hge hlt hb
  · obtain ⟨low, high, hbounds, hsecond⟩ := followers_three hge hlt
    rw [hbounds] at h
    cases h
    obtain ⟨b, _, hb, hlater, rfl⟩ := List.forall₂_cons_left_iff.1 hfits
    obtain ⟨d, _, hd, hnil, rfl⟩ := List.forall₂_cons_left_iff.1 hlater
    rw [List.forall₂_nil_left_iff.1 hnil]
    exact utf8EncodeChar_three hge hlt ((hsecond _).1 hb) hd
  · obtain ⟨low, high, hbounds, hsecond⟩ := followers_four hge hlt
    rw [hbounds] at h
    cases h
    obtain ⟨b, _, hb, hlater, rfl⟩ := List.forall₂_cons_left_iff.1 hfits
    obtain ⟨d, _, hd, hlast, rfl⟩ := List.forall₂_cons_left_iff.1 hlater
    obtain ⟨e, _, he, hnil, rfl⟩ := List.forall₂_cons_left_iff.1 hlast
    rw [List.forall₂_nil_left_iff.1 hnil]
    exact utf8EncodeChar_four hge hlt ((hsecond _).1 hb) hd he

theorem toNat_ofNat_byte {n : Nat} (h : n < 256) : (UInt8.ofNat n).toNat = n := by
  rw [UInt8.toNat_ofNat', Nat.mod_eq_of_lt h]

/-- There are bytes that fit for every character. -/
theorem exists_fits (c : Char) : ∃ lead bounds tail, followers lead = some bounds ∧
    Fits bounds tail ∧ assemble (leadBits lead bounds.length) tail = c.toNat := by
  have hc := toNat_lt c
  have hsurrogate := toNat_not_surrogate c
  generalize c.toNat = n at hc hsurrogate
  -- The bytes behind the lead byte hold six bits each.
  have hbyte (k : Nat) : (UInt8.ofNat (k % 64 + 0x80)).toNat = k % 64 + 0x80 :=
    toNat_ofNat_byte (by omega)
  have hany (k : Nat) : 0x80 ≤ (UInt8.ofNat (k % 64 + 0x80)).toNat ∧
      (UInt8.ofNat (k % 64 + 0x80)).toNat ≤ 0xBF := by
    rw [hbyte]
    omega
  by_cases h₁ : n < 0x80
  · have hlead : (UInt8.ofNat n).toNat = n := toNat_ofNat_byte (by omega)
    exact ⟨UInt8.ofNat n, [], [], followers_one (by omega), .nil, hlead⟩
  by_cases h₂ : n < 0x800
  · have hlead : (UInt8.ofNat (n / 64 + 0xC0)).toNat = n / 64 + 0xC0 := toNat_ofNat_byte (by omega)
    refine ⟨UInt8.ofNat (n / 64 + 0xC0), _, [UInt8.ofNat (n % 64 + 0x80)],
      followers_two (by omega) (by omega), .cons (hany n) .nil, ?_⟩
    change 64 * (_ % 32) + _ % 64 = n
    rw [hbyte, hlead]
    omega
  by_cases h₃ : n < 0x10000
  · have hlead : (UInt8.ofNat (n / 4096 + 0xE0)).toNat = n / 4096 + 0xE0 :=
      toNat_ofNat_byte (by omega)
    obtain ⟨low, high, hbounds, hsecond⟩ :=
      @followers_three (UInt8.ofNat (n / 4096 + 0xE0)) (by omega) (by omega)
    refine ⟨UInt8.ofNat (n / 4096 + 0xE0), _,
      [UInt8.ofNat (n / 64 % 64 + 0x80), UInt8.ofNat (n % 64 + 0x80)], hbounds,
      .cons ((hsecond _).2 ?_) (.cons (hany n) .nil), ?_⟩
    · rw [hbyte, hlead]
      omega
    · change 64 * (64 * (_ % 16) + _ % 64) + _ % 64 = n
      rw [hbyte, hbyte, hlead]
      omega
  · have hlead : (UInt8.ofNat (n / 262144 + 0xF0)).toNat = n / 262144 + 0xF0 :=
      toNat_ofNat_byte (by omega)
    obtain ⟨low, high, hbounds, hsecond⟩ :=
      @followers_four (UInt8.ofNat (n / 262144 + 0xF0)) (by omega) (by omega)
    refine ⟨UInt8.ofNat (n / 262144 + 0xF0), _, [UInt8.ofNat (n / 4096 % 64 + 0x80),
      UInt8.ofNat (n / 64 % 64 + 0x80), UInt8.ofNat (n % 64 + 0x80)], hbounds,
      .cons ((hsecond _).2 ?_) (.cons (hany _) (.cons (hany n) .nil)), ?_⟩
    · rw [hbyte, hlead]
      omega
    · change 64 * (64 * (64 * (_ % 8) + _ % 64) + _ % 64) + _ % 64 = n
      rw [hbyte, hbyte, hbyte, hlead]
      omega

/-- The bytes below 0x80 encode characters by themselves and are part of no longer encoding. -/
theorem eq_ascii_of_mem {b : UInt8} (h : b ∈ String.utf8EncodeChar c) (hb : b.toNat < 0x80) :
    c = Char.ofNat b.toNat ∧ String.utf8EncodeChar c = [b] := by
  have hlt : c.val.toNat < 0x110000 := toNat_lt c
  have hout (k : Nat) (h : 0x80 ≤ k % 256) : b ≠ UInt8.ofNat k := by
    rintro rfl
    rw [UInt8.toNat_ofNat'] at hb
    omega
  simp only [String.utf8EncodeChar] at h
  by_cases h₁ : c.val.toNat ≤ 0x7F
  · rw [if_pos h₁, List.mem_singleton] at h
    have hc : c.val.toNat = b.toNat := by rw [h, toNat_ofNat_byte (by omega)]
    have hchar : c = Char.ofNat b.toNat := by
      rw [← hc]
      exact (Char.ofNat_toNat c).symm
    rw [hchar]
    exact ⟨rfl, utf8EncodeChar_one hb⟩
  · exfalso
    rw [if_neg h₁] at h
    split at h
    next =>
      simp only [List.mem_cons, List.not_mem_nil, or_false] at h
      rcases h with h | h <;> exact hout _ (by omega) h
    next =>
      split at h
      next =>
        simp only [List.mem_cons, List.not_mem_nil, or_false] at h
        rcases h with h | h | h <;> exact hout _ (by omega) h
      next =>
        simp only [List.mem_cons, List.not_mem_nil, or_false] at h
        rcases h with h | h | h | h <;> exact hout _ (by omega) h

theorem utf8EncodeChar_eq_iff : String.utf8EncodeChar c = lead :: tail ↔ ∃ bounds,
    followers lead = some bounds ∧ Fits bounds tail ∧
      c = Char.ofNat (assemble (leadBits lead bounds.length) tail) := by
  constructor
  · intro h
    obtain ⟨first, bounds, others, hbounds, hfits, hvalue⟩ := exists_fits c
    have hencode := utf8EncodeChar_of_fits hbounds hfits
    rw [hvalue, Char.ofNat_toNat, h] at hencode
    obtain ⟨rfl, rfl⟩ := List.cons.inj hencode
    exact ⟨bounds, hbounds, hfits, by rw [hvalue, Char.ofNat_toNat]⟩
  · rintro ⟨bounds, hbounds, hfits, rfl⟩
    exact utf8EncodeChar_of_fits hbounds hfits

/-! ## Encodings of texts -/

theorem first_eq_ok_iff {n : Nat} : first lead bytes = (n, .ok c) ↔
    String.utf8EncodeChar c = lead :: bytes.take n ∧ n ≤ bytes.length := by
  unfold first
  cases hbounds : followers lead with
  | none => simp [utf8EncodeChar_eq_iff, hbounds]
  | some bounds =>
    simp only [follow_eq_ok_iff, Nat.zero_add, utf8EncodeChar_eq_iff, hbounds]
    constructor
    · rintro ⟨tail, rest, rfl, hfits, rfl, rfl⟩
      rw [List.take_left]
      exact ⟨⟨bounds, rfl, hfits, rfl⟩, by simp⟩
    · rintro ⟨⟨_, heq, hfits, rfl⟩, hlen⟩
      cases heq
      exact ⟨bytes.take n, bytes.drop n, (List.take_append_drop n bytes).symm, hfits,
        (List.length_take_of_le hlen).symm, rfl⟩

theorem utf8EncodeChar_eq_cons (c : Char) :
    ∃ lead tail, String.utf8EncodeChar c = lead :: tail := by
  obtain ⟨lead, bounds, tail, hbounds, hfits, hvalue⟩ := exists_fits c
  have hencode := utf8EncodeChar_of_fits hbounds hfits
  rw [hvalue, Char.ofNat_toNat] at hencode
  exact ⟨lead, tail, hencode⟩

theorem utf8EncodeChar_ne_nil (c : Char) : String.utf8EncodeChar c ≠ [] := by
  obtain ⟨lead, tail, hencode⟩ := utf8EncodeChar_eq_cons c
  simp [hencode]

/-- The first character of an encoded text is read from the front of the bytes. -/
theorem first_of_encoded {text : List Char}
    (h : lead :: bytes = text.flatMap String.utf8EncodeChar) : ∃ n c later, text = c :: later ∧
      first lead bytes = (n, .ok c) ∧ bytes.drop n = later.flatMap String.utf8EncodeChar := by
  cases text with
  | nil => cases h
  | cons c later =>
    obtain ⟨first, tail, hencode⟩ := utf8EncodeChar_eq_cons c
    rw [List.flatMap_cons, hencode, List.cons_append] at h
    obtain ⟨rfl, rfl⟩ := List.cons.inj h
    refine ⟨tail.length, c, later, rfl, first_eq_ok_iff.2 ⟨?_, by simp⟩, List.drop_left⟩
    rw [List.take_left, hencode]

theorem decodeFrom_eq_ok_iff {index : Nat} {read result : List Char} :
    decodeFrom index read bytes = .ok result ↔
      ∃ text, result = read.reverse ++ text ∧ bytes = text.flatMap String.utf8EncodeChar := by
  -- What is read in front of a text is its first character, so a flaw means that there is none.
  have hflaw {lead : UInt8} {rest : List UInt8} {n : Nat} {flaw : Flaw}
      (h : first lead rest = (n, .error flaw)) (text : List Char) :
      lead :: rest ≠ text.flatMap String.utf8EncodeChar := by
    intro hbytes
    obtain ⟨n, c, later, -, hfirst, -⟩ := first_of_encoded hbytes
    rw [h] at hfirst
    cases hfirst
  fun_induction decodeFrom index read bytes with
  | case1 index read =>
    constructor
    · intro h
      cases h
      exact ⟨[], by simp, rfl⟩
    · rintro ⟨text, rfl, hbytes⟩
      cases text with
      | nil => simp
      | cons c later =>
        exact absurd (List.append_eq_nil_iff.1 hbytes.symm).1 (utf8EncodeChar_ne_nil c)
  | case2 index read lead rest extra c h ih =>
    refine ih.trans ?_
    constructor
    · rintro ⟨later, rfl, hrest⟩
      obtain ⟨hencode, -⟩ := first_eq_ok_iff.1 h
      refine ⟨c :: later, by simp, ?_⟩
      rw [List.flatMap_cons, hencode, ← hrest, List.cons_append, List.take_append_drop]
    · rintro ⟨text, rfl, hbytes⟩
      obtain ⟨n, c', later, rfl, hfirst, hrest⟩ := first_of_encoded hbytes
      rw [h] at hfirst
      cases hfirst
      exact ⟨later, by simp, hrest⟩
  | case3 index read lead rest extra h =>
    simp only [reduceCtorEq, false_iff]
    rintro ⟨text, -, hbytes⟩
    exact hflaw h text hbytes
  | case4 index read lead rest extra h =>
    simp only [reduceCtorEq, false_iff]
    rintro ⟨text, -, hbytes⟩
    exact hflaw h text hbytes

/-- The decoder accepts the encodings of texts and no other bytes. -/
theorem decode_eq_ok_iff {text : List Char} :
    decode bytes = .ok text ↔ bytes = text.flatMap String.utf8EncodeChar := by
  rw [decode, decodeFrom_eq_ok_iff]
  simp

theorem decodeLossyFrom_encoded (read text : List Char) :
    decodeLossyFrom read (text.flatMap String.utf8EncodeChar) = read.reverse ++ text := by
  induction text generalizing read with
  | nil => simp [decodeLossyFrom]
  | cons c text ih =>
    obtain ⟨lead, tail, hencode⟩ := utf8EncodeChar_eq_cons c
    have hfirst : first lead (tail ++ text.flatMap String.utf8EncodeChar) =
        (tail.length, .ok c) := by
      apply first_eq_ok_iff.2
      rw [List.take_left, hencode]
      exact ⟨rfl, by simp⟩
    rw [List.flatMap_cons, hencode, List.cons_append, decodeLossyFrom, hfirst]
    simp only [List.drop_left, ih, List.reverse_cons, List.append_assoc, List.singleton_append]

theorem decodeLossy_encoded (text : String) :
    decodeLossy (text.toList.flatMap String.utf8EncodeChar) = text := by
  rw [decodeLossy, decodeLossyFrom_encoded, List.reverse_nil, List.nil_append,
    String.ofList_toList]

/-! ## Bytes that are characters -/

/-- The characters that bytes below 0x80 encode. -/
def ascii (bytes : List UInt8) : List Char := bytes.map fun b => Char.ofNat b.toNat

variable {b : UInt8} {front back : List UInt8} {text : List Char}

theorem cons_eq_encoded_iff (hb : b.toNat < 0x80) :
    b :: bytes = text.flatMap String.utf8EncodeChar ↔ ∃ later,
      text = Char.ofNat b.toNat :: later ∧ bytes = later.flatMap String.utf8EncodeChar := by
  constructor
  · intro h
    cases text with
    | nil => cases h
    | cons c later =>
      obtain ⟨lead, tail, hencode⟩ := utf8EncodeChar_eq_cons c
      have hlead : b = lead := by
        rw [List.flatMap_cons, hencode] at h
        exact (List.cons.inj h).1
      have hmem : b ∈ String.utf8EncodeChar c := by simp [hencode, hlead]
      obtain ⟨hc, hone⟩ := eq_ascii_of_mem hmem hb
      rw [List.flatMap_cons, hone] at h
      exact ⟨later, by rw [hc], (List.cons.inj h).2⟩
  · rintro ⟨later, rfl, rfl⟩
    rw [List.flatMap_cons, utf8EncodeChar_one hb]
    rfl

theorem concat_eq_encoded_iff (hb : b.toNat < 0x80) :
    bytes ++ [b] = text.flatMap String.utf8EncodeChar ↔ ∃ earlier,
      text = earlier ++ [Char.ofNat b.toNat] ∧ bytes = earlier.flatMap String.utf8EncodeChar := by
  constructor
  · intro h
    rcases List.eq_nil_or_concat' text with rfl | ⟨earlier, c, rfl⟩
    · simp at h
    · obtain ⟨others, last, hencode⟩ :=
        (List.eq_nil_or_concat' (String.utf8EncodeChar c)).resolve_left (utf8EncodeChar_ne_nil c)
      rw [List.flatMap_append, List.flatMap_singleton] at h
      have hlast : b = last := by
        rw [hencode, ← List.append_assoc] at h
        exact (List.append_singleton_inj.1 h).2
      have hmem : b ∈ String.utf8EncodeChar c := by simp [hencode, hlast]
      obtain ⟨hc, hone⟩ := eq_ascii_of_mem hmem hb
      rw [hone] at h
      exact ⟨earlier, by rw [hc], List.append_cancel_right h⟩
  · rintro ⟨earlier, rfl, rfl⟩
    rw [List.flatMap_append, List.flatMap_singleton, utf8EncodeChar_one hb]

/-- Bytes below 0x80 in front of others are characters in front of a text. -/
theorem append_eq_encoded_iff (h : ∀ b ∈ front, b.toNat < 0x80) :
    front ++ bytes = text.flatMap String.utf8EncodeChar ↔ ∃ later,
      text = ascii front ++ later ∧ bytes = later.flatMap String.utf8EncodeChar := by
  induction front generalizing text with
  | nil => simp [ascii]
  | cons b front ih =>
    rw [List.forall_mem_cons] at h
    rw [List.cons_append, cons_eq_encoded_iff h.1]
    simp only [ih h.2]
    constructor
    · rintro ⟨_, rfl, later, rfl, hbytes⟩
      exact ⟨later, rfl, hbytes⟩
    · rintro ⟨later, rfl, hbytes⟩
      exact ⟨_, rfl, later, rfl, hbytes⟩

/-- Bytes below 0x80 behind others are characters behind a text. -/
theorem append_eq_encoded_iff' (h : ∀ b ∈ back, b.toNat < 0x80) :
    bytes ++ back = text.flatMap String.utf8EncodeChar ↔ ∃ earlier,
      text = earlier ++ ascii back ∧ bytes = earlier.flatMap String.utf8EncodeChar := by
  induction back generalizing bytes with
  | nil => simp [ascii]
  | cons b back ih =>
    rw [List.forall_mem_cons] at h
    rw [List.append_cons, ih h.2]
    simp only [concat_eq_encoded_iff h.1]
    constructor
    · rintro ⟨_, rfl, earlier, rfl, hbytes⟩
      exact ⟨earlier, by simp [ascii], hbytes⟩
    · rintro ⟨earlier, rfl, hbytes⟩
      exact ⟨earlier ++ [Char.ofNat b.toNat], by simp [ascii], earlier, rfl, hbytes⟩

theorem between_eq_encoded_iff (hfront : ∀ b ∈ front, b.toNat < 0x80)
    (hback : ∀ b ∈ back, b.toNat < 0x80) :
    front ++ (bytes ++ back) = text.flatMap String.utf8EncodeChar ↔ ∃ middle,
      text = ascii front ++ (middle ++ ascii back) ∧
        bytes = middle.flatMap String.utf8EncodeChar := by
  rw [append_eq_encoded_iff hfront]
  simp only [append_eq_encoded_iff' hback]
  constructor
  · rintro ⟨_, rfl, middle, rfl, hbytes⟩
    exact ⟨middle, rfl, hbytes⟩
  · rintro ⟨middle, rfl, hbytes⟩
    exact ⟨_, rfl, middle, rfl, hbytes⟩

end Utf8

end VectorStream.Text
