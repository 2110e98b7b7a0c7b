import VectorStream.Text.Numeral

/-!
# What numerals denote

A numeral denotes the value of its digits under its sign. It is read exactly if this value fits,
and then as this value.
-/
namespace VectorStream.Text.Numeral

/-- One or more decimal digits with their value. -/
structure Magnitude (digits : List Char) (m : Nat) : Prop where
  ne_nil : digits ≠ []
  isDigit : ∀ c ∈ digits, c.isDigit
  eq_value : m = Nat.ofDigitChars 10 digits 0

/-- The number that a numeral stands for, whatever its size. -/
inductive Denotes : List Char → Int → Prop
  | unsigned {digits : List Char} {m : Nat} (h : Magnitude digits m) : Denotes digits m
  | plus {digits : List Char} {m : Nat} (h : Magnitude digits m) : Denotes ('+' :: digits) m
  | minus {digits : List Char} {m : Nat} (h : Magnitude digits m) : Denotes ('-' :: digits) (-m)

variable {limit value m n : Nat} {excess : Fault} {digits text : List Char} {c : Char}

theorem Denotes.mem {k : Int} (h : Denotes text k) (hc : c ∈ text) :
    c.isDigit ∨ c = '+' ∨ c = '-' := by
  cases h with
  | unsigned h => exact .inl (h.isDigit c hc)
  | plus h =>
    rcases List.mem_cons.1 hc with hc | hc
    · exact .inr (.inl hc)
    · exact .inl (h.isDigit c hc)
  | minus h =>
    rcases List.mem_cons.1 hc with hc | hc
    · exact .inr (.inr hc)
    · exact .inl (h.isDigit c hc)

theorem isDigit_iff : c.isDigit ↔ '0' ≤ c ∧ c ≤ '9' := by
  rw [Char.isDigit, Bool.and_eq_true, decide_eq_true_eq, decide_eq_true_eq]
  rfl

theorem digit?_of_isDigit (h : c.isDigit) : digit? c = some (c.toNat - '0'.toNat) :=
  if_pos (isDigit_iff.1 h)

theorem digit?_of_not_isDigit (h : ¬ c.isDigit) : digit? c = none :=
  if_neg fun k => h (isDigit_iff.2 k)

theorem le_ofDigitChars (value : Nat) (digits : List Char) :
    value ≤ Nat.ofDigitChars 10 digits value := by
  induction digits generalizing value with
  | nil => exact Nat.le_refl value
  | cons c digits ih =>
    rw [Nat.ofDigitChars_cons]
    apply Nat.le_trans _ (ih _)
    omega

/-- The values on the way never decrease, so one beyond the limit decides on the whole. -/
theorem readDigits_eq_ok_iff (hvalue : value ≤ limit) :
    readDigits limit excess value digits = .ok n ↔
      (∀ c ∈ digits, c.isDigit) ∧ n = Nat.ofDigitChars 10 digits value ∧ n ≤ limit := by
  induction digits generalizing value with
  | nil =>
    rw [readDigits, Nat.ofDigitChars_nil]
    constructor
    · intro h
      cases h
      exact ⟨by simp, rfl, hvalue⟩
    · intro h
      rw [h.2.1]
  | cons c digits ih =>
    rw [readDigits, Nat.ofDigitChars_cons, List.forall_mem_cons]
    by_cases hc : c.isDigit
    · rw [digit?_of_isDigit hc]
      simp only [hc, true_and]
      split
      next hle => exact ih hle
      next hgt =>
        have hle := le_ofDigitChars (10 * value + (c.toNat - '0'.toNat)) digits
        simp only [reduceCtorEq, false_iff]
        omega
    · rw [digit?_of_not_isDigit hc]
      simp [hc]

theorem magnitude_eq_ok_iff :
    magnitude limit excess digits = .ok n ↔ Magnitude digits n ∧ n ≤ limit := by
  cases digits with
  | nil =>
    simp only [magnitude, reduceCtorEq, false_iff]
    exact fun h => h.1.ne_nil rfl
  | cons c digits =>
    rw [magnitude, readDigits_eq_ok_iff (Nat.zero_le limit)]
    · constructor
      · intro h
        exact ⟨⟨List.cons_ne_nil c digits, h.1, h.2.1⟩, h.2.2⟩
      · intro h
        exact ⟨h.1.isDigit, h.1.eq_value, h.2⟩
    · simp

theorem map_magnitude_eq_ok_iff {f : Nat → Int16} {value : Int16} :
    (magnitude limit excess digits).map f = .ok value ↔
      ∃ m, Magnitude digits m ∧ m ≤ limit ∧ f m = value := by
  cases h : magnitude limit excess digits with
  | error fault =>
    simp only [Except.map, reduceCtorEq, false_iff]
    rintro ⟨m, hm, hle, -⟩
    rw [magnitude_eq_ok_iff.2 ⟨hm, hle⟩] at h
    cases h
  | ok m =>
    obtain ⟨hm, hle⟩ := magnitude_eq_ok_iff.1 h
    simp only [Except.map, Except.ok.injEq]
    constructor
    · intro hf
      exact ⟨m, hm, hle, hf⟩
    · rintro ⟨k, hk, -, hf⟩
      rw [hm.eq_value, ← hk.eq_value, hf]

/-! ## Numbers of 16 bits -/

theorem ofNat_eq_iff {value : Int16} :
    m ≤ 32767 ∧ Int16.ofNat m = value ↔ value.toInt = m := by
  have hlt := value.toInt_lt
  constructor
  · rintro ⟨hm, rfl⟩
    exact Int16.toInt_ofNat_of_lt (by omega)
  · intro h
    refine ⟨by omega, ?_⟩
    apply Int16.toInt_inj.1
    rw [h, Int16.toInt_ofNat_of_lt (by omega)]

theorem ofInt_neg_eq_iff {value : Int16} :
    m ≤ 32768 ∧ Int16.ofInt (-m) = value ↔ value.toInt = -m := by
  have hle := value.le_toInt
  constructor
  · rintro ⟨hm, rfl⟩
    exact Int16.toInt_ofInt_of_le (by omega) (by omega)
  · intro h
    refine ⟨by omega, ?_⟩
    rw [← h, Int16.ofInt_toInt]

theorem map_ofNat_eq_ok_iff {value : Int16} :
    (magnitude 32767 excess digits).map Int16.ofNat = .ok value ↔
      ∃ m : Nat, Magnitude digits m ∧ value.toInt = m := by
  rw [map_magnitude_eq_ok_iff]
  simp only [ofNat_eq_iff]

theorem map_ofInt_neg_eq_ok_iff {value : Int16} :
    ((magnitude 32768 excess digits).map fun m => Int16.ofInt (-m)) = .ok value ↔
      ∃ m : Nat, Magnitude digits m ∧ value.toInt = -m := by
  -- The sign is put to an integer, into which the magnitude is turned first.
  have hmap : ((magnitude 32768 excess digits).map fun m => Int16.ofInt (-m)) =
      (magnitude 32768 excess digits).map fun m : Nat => Int16.ofInt (-m) := by
    cases magnitude 32768 excess digits <;> rfl
  rw [hmap, map_magnitude_eq_ok_iff]
  simp only [ofInt_neg_eq_iff]

theorem not_magnitude_cons (h : ¬ c.isDigit) : ¬ Magnitude (c :: digits) m :=
  fun k => h (k.isDigit c List.mem_cons_self)

/-- A numeral is read as the number that it denotes, if this number fits, and nothing else is
read. -/
theorem parse_eq_ok_iff {value : Int16} : parse text = .ok value ↔ Denotes text value.toInt := by
  unfold parse
  split
  next =>
    simp only [reduceCtorEq, false_iff]
    generalize value.toInt = k
    rintro (hm | hm | hm)
    exact hm.ne_nil rfl
  next digits =>
    rw [map_ofInt_neg_eq_ok_iff]
    constructor
    · rintro ⟨m, hm, hvalue⟩
      rw [hvalue]
      exact .minus hm
    · generalize value.toInt = k
      rintro (hm | hm | hm)
      · exact absurd hm (not_magnitude_cons (by decide))
      · exact ⟨_, hm, rfl⟩
  next digits =>
    rw [map_ofNat_eq_ok_iff]
    constructor
    · rintro ⟨m, hm, hvalue⟩
      rw [hvalue]
      exact .plus hm
    · generalize value.toInt = k
      rintro (hm | hm | hm)
      · exact absurd hm (not_magnitude_cons (by decide))
      · exact ⟨_, hm, rfl⟩
  next digits hnil hminus hplus =>
    rw [map_ofNat_eq_ok_iff]
    constructor
    · rintro ⟨m, hm, hvalue⟩
      rw [hvalue]
      exact .unsigned hm
    · generalize value.toInt = k
      rintro (hm | hm | hm)
      · exact ⟨_, hm, rfl⟩
      · exact absurd rfl (hplus _)
      · exact absurd rfl (hminus _)

/-- Zeros in front of the digits make no difference, and the least number has no positive one. -/
example : parse "-0032768".toList = .ok (-32768) ∧ parse "32768".toList = .error .tooLarge :=
  ⟨rfl, rfl⟩

end VectorStream.Text.Numeral
