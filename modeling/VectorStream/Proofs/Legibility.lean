import VectorStream.Text.Character

/-!
# Legibility

A written number, byte or text can be told from whatever is written behind it: the digits of a
number end at the first other character, a byte has two digits, and a quoted text ends at its first
quote that is not escaped. None of them breaks a line.
-/
namespace VectorStream.Text

/-- Two lists of a class are told from what stands behind them by the first element outside of the
class. -/
theorem span_inj {α : Type} {p : α → Bool} {xs ys r t : List α} (hx : ∀ a ∈ xs, p a)
    (hy : ∀ a ∈ ys, p a) (hr : ∀ a ∈ r.head?, ¬ p a) (ht : ∀ a ∈ t.head?, ¬ p a)
    (h : xs ++ r = ys ++ t) : xs = ys ∧ r = t := by
  have hspan : ∀ zs s : List α, (∀ a ∈ zs, p a) → (∀ a ∈ s.head?, ¬ p a) →
      (zs ++ s).takeWhile p = zs := by
    intro zs s hz hs
    rw [List.takeWhile_append_of_pos hz]
    cases s with
    | nil => simp
    | cons a s => simp [hs a rfl]
  have hxy : xs = ys := by rw [← hspan xs r hx hr, h, hspan ys t hy ht]
  subst hxy
  exact ⟨rfl, List.append_cancel_left h⟩

/-- The first `c` ends what has no `c` in it. -/
theorem append_cons_inj {α : Type} [DecidableEq α] {c : α} {xs ys r t : List α} (hx : c ∉ xs)
    (hy : c ∉ ys) (h : xs ++ c :: r = ys ++ c :: t) : xs = ys ∧ r = t := by
  have hne : ∀ zs : List α, c ∉ zs → ∀ a ∈ zs, decide (a ≠ c) = true := fun zs hz a ha =>
    decide_eq_true fun he => hz (he ▸ ha)
  obtain ⟨hxy, hrt⟩ := span_inj (hne xs hx) (hne ys hy) (by simp) (by simp) h
  exact ⟨hxy, (List.cons.inj hrt).2⟩

/-! ## Digits -/

theorem digitChar_inj {m n : Nat} (hm : m < 16) (hn : n < 16)
    (h : Nat.digitChar m = Nat.digitChar n) : m = n := by
  have hall : ∀ m < 16, ∀ n < 16, Nat.digitChar m = Nat.digitChar n → m = n := by decide
  exact hall m hm n hn h

/-- The last digit stands behind the digits of the number without it. -/
theorem toDigits_eq_append {b : Nat} (hb : 1 < b) (n : Nat) : Nat.toDigits b n =
    (if n < b then [] else Nat.toDigits b (n / b)) ++ [Nat.digitChar (n % b)] := by
  rw [Nat.toDigits_eq_if hb]
  split
  · rw [Nat.mod_eq_of_lt ‹_›, List.nil_append]
  · rfl

theorem toDigits_inj {b m n : Nat} (hb : 1 < b) (hb' : b ≤ 16)
    (h : Nat.toDigits b m = Nat.toDigits b n) : m = n := by
  induction m using Nat.strongRecOn generalizing n with
  | ind m ih =>
    rw [toDigits_eq_append hb m, toDigits_eq_append hb n] at h
    obtain ⟨hfront, hlast⟩ := List.append_inj' h rfl
    have hmlt : m % b < b := Nat.mod_lt m (by omega)
    have hnlt : n % b < b := Nat.mod_lt n (by omega)
    have hmod : m % b = n % b := digitChar_inj (by omega) (by omega) (List.singleton_inj.1 hlast)
    have hdiv : m / b = n / b := by
      split at hfront
      next hm =>
        split at hfront
        next hn => rw [Nat.div_eq_of_lt hm, Nat.div_eq_of_lt hn]
        next => exact absurd hfront.symm Nat.toDigits_ne_nil
      next hm =>
        split at hfront
        next => exact absurd hfront Nat.toDigits_ne_nil
        next => exact ih _ (Nat.div_lt_self (by omega) hb) hfront
    rw [← Nat.div_add_mod m b, ← Nat.div_add_mod n b, hdiv, hmod]

theorem mem_toDigits {b n : Nat} {c : Char} (hb : 1 < b) (h : c ∈ Nat.toDigits b n) :
    ∃ d, d < b ∧ c = Nat.digitChar d := by
  induction n using Nat.strongRecOn with
  | ind n ih =>
    rw [toDigits_eq_append hb] at h
    rcases List.mem_append.1 h with h | h
    · split at h
      · cases h
      · exact ih _ (Nat.div_lt_self (by omega) hb) h
    · exact ⟨n % b, Nat.mod_lt n (by omega), List.mem_singleton.1 h⟩

namespace Decimal
variable {r t : List Char}

theorem toList_ofNat (n : Nat) : (ofNat n).toList = Nat.toDigits 10 n := by
  simp [ofNat]

theorem isDigit_of_mem_ofNat {n : Nat} {c : Char} (h : c ∈ (ofNat n).toList) : c.isDigit :=
  Nat.isDigit_of_mem_toDigits (by decide) (by decide) (toList_ofNat n ▸ h)

theorem ofNat_append_inj {m n : Nat} (hr : ∀ c ∈ r.head?, ¬ c.isDigit)
    (ht : ∀ c ∈ t.head?, ¬ c.isDigit) (h : (ofNat m).toList ++ r = (ofNat n).toList ++ t) :
    m = n ∧ r = t := by
  obtain ⟨hmn, hrt⟩ := span_inj (fun _ => isDigit_of_mem_ofNat) (fun _ => isDigit_of_mem_ofNat)
    hr ht h
  rw [toList_ofNat, toList_ofNat] at hmn
  exact ⟨toDigits_inj (by decide) (by decide) hmn, hrt⟩

/-- A natural number has no sign in front. -/
theorem ofNat_append_ne {n : Nat} : (ofNat n).toList ++ r ≠ '-' :: t := by
  intro h
  have hsign : '-' ∈ (ofNat n).toList := by
    rw [toList_ofNat] at h ⊢
    cases hd : Nat.toDigits 10 n with
    | nil => exact absurd hd Nat.toDigits_ne_nil
    | cons c digits =>
      rw [hd] at h
      simp [(List.cons.inj h).1]
  have hdigit : '-'.isDigit := isDigit_of_mem_ofNat hsign
  exact absurd hdigit (by decide)

theorem ofInt_append_inj {m n : Int} (hr : ∀ c ∈ r.head?, ¬ c.isDigit)
    (ht : ∀ c ∈ t.head?, ¬ c.isDigit) (h : (ofInt m).toList ++ r = (ofInt n).toList ++ t) :
    m = n ∧ r = t := by
  cases m with
  | ofNat m =>
    cases n with
    | ofNat n =>
      obtain ⟨hmn, hrt⟩ := ofNat_append_inj hr ht h
      exact ⟨congrArg Int.ofNat hmn, hrt⟩
    | negSucc n =>
      rw [ofInt, ofInt, String.toList_append] at h
      exact absurd h ofNat_append_ne
  | negSucc m =>
    cases n with
    | ofNat n =>
      rw [ofInt, ofInt, String.toList_append] at h
      exact absurd h.symm ofNat_append_ne
    | negSucc n =>
      rw [ofInt, ofInt, String.toList_append, String.toList_append] at h
      obtain ⟨hmn, hrt⟩ := ofNat_append_inj hr ht (List.cons.inj h).2
      exact ⟨congrArg Int.negSucc (Nat.succ_inj.1 hmn), hrt⟩

@[simp] theorem break_notMem_ofNat (n : Nat) : '\n' ∉ (ofNat n).toList :=
  fun h => absurd (isDigit_of_mem_ofNat h) (by decide)

@[simp] theorem break_notMem_ofInt (n : Int) : '\n' ∉ (ofInt n).toList := by
  cases n <;> simp [ofInt]

end Decimal

namespace Hex
variable {r t : List Char}

theorem ofByte_append_inj {a b : UInt8} (h : (ofByte a).toList ++ r = (ofByte b).toList ++ t) :
    a = b ∧ r = t := by
  have ha : a.toNat < 256 := a.toNat_lt
  have hb : b.toNat < 256 := b.toNat_lt
  simp only [ofByte, String.toList_ofList, List.cons_append, List.nil_append, List.cons.injEq] at h
  obtain ⟨hhigh, hlow, hrt⟩ := h
  have hdiv : a.toNat / 16 = b.toNat / 16 := digitChar_inj (by omega) (by omega) hhigh
  have hmod : a.toNat % 16 = b.toNat % 16 := digitChar_inj (by omega) (by omega) hlow
  exact ⟨UInt8.toNat_inj.1 (by omega), hrt⟩

theorem ofChar_inj {c d : Char} (h : ofChar c = ofChar d) : c = d :=
  Char.toNat_inj.1 (toDigits_inj (by decide) (by decide) h)

theorem notMem_ofChar {c d : Char} (h : ∀ n < 16, c ≠ Nat.digitChar n) : c ∉ ofChar d := by
  intro hc
  obtain ⟨n, hn, he⟩ := mem_toDigits (by decide) hc
  exact h n hn he

@[simp] theorem break_notMem_ofByte (b : UInt8) : '\n' ∉ (ofByte b).toList := by
  simp [ofByte, eq_comm (a := '\n')]

end Hex

/-! ## Quoted text -/

namespace Quoted
variable {r t : List Char}

/-- The character that a letter behind a backslash stands for. -/
def meaning (letter : Char) : Char :=
  if letter = '0' then '\x00'
  else if letter = 't' then '\t'
  else if letter = 'r' then '\r'
  else if letter = 'n' then '\n'
  else letter

/-- The ways to write a character inside quotes: as it is, by a letter, or by its digits. -/
inductive Spelling (c : Char) : List Char → Prop
  | plain (hquote : c ≠ '"') (hslash : c ≠ '\\') (hbreak : c ≠ '\n') : Spelling c [c]
  | letter (l : Char) (hl : l ≠ 'u') (hbreak : l ≠ '\n') (h : meaning l = c) :
    Spelling c ['\\', l]
  | digits : Spelling c ('\\' :: 'u' :: '\x7b' :: (Hex.ofChar c ++ ['\x7d']))

theorem spelling_escape (c : Char) : Spelling c (escape c) := by
  unfold escape
  split
  · exact .letter '0' (by decide) (by decide) (by simp [meaning, *])
  split
  · exact .letter 't' (by decide) (by decide) (by simp [meaning, *])
  split
  · exact .letter 'r' (by decide) (by decide) (by simp [meaning, *])
  split
  · exact .letter 'n' (by decide) (by decide) (by simp [meaning, *])
  split
  next h =>
    rcases Bool.or_eq_true _ _ ▸ h with h | h
    · obtain rfl := of_decide_eq_true h
      exact .letter '"' (by decide) (by decide) rfl
    · obtain rfl := of_decide_eq_true h
      exact .letter '\\' (by decide) (by decide) rfl
  next h =>
    split
    · exact .digits
    · simp only [Bool.or_eq_true, decide_eq_true_eq, not_or] at h
      exact .plain h.1 h.2 ‹_›

/-- No way to write a character begins another one. -/
theorem Spelling.append_inj {c d : Char} {u v : List Char} (hu : Spelling c u) (hv : Spelling d v)
    (h : u ++ r = v ++ t) : c = d ∧ r = t := by
  cases hu with
  | plain hquote hslash hbreak =>
    cases hv with
    | plain => exact List.cons.inj h
    | letter l => exact absurd (List.cons.inj h).1 hslash
    | digits => exact absurd (List.cons.inj h).1 hslash
  | letter l hl hbreak hc =>
    cases hv with
    | plain hquote hslash => exact absurd (List.cons.inj h).1.symm hslash
    | letter l' hl' hbreak' hd =>
      obtain ⟨hll, hrt⟩ := List.cons.inj (List.cons.inj h).2
      exact ⟨by rw [← hc, ← hd, hll], hrt⟩
    | digits => exact absurd (List.cons.inj (List.cons.inj h).2).1 hl
  | digits =>
    cases hv with
    | plain hquote hslash => exact absurd (List.cons.inj h).1.symm hslash
    | letter l hl => exact absurd (List.cons.inj (List.cons.inj h).2).1.symm hl
    | digits =>
      have hne : ∀ n < 16, '\x7d' ≠ Nat.digitChar n := by decide
      simp only [List.cons_append, List.append_assoc, List.nil_append, List.cons.injEq,
        true_and] at h
      obtain ⟨hcd, hrt⟩ := append_cons_inj (Hex.notMem_ofChar hne) (Hex.notMem_ofChar hne) h
      exact ⟨Hex.ofChar_inj hcd, hrt⟩

theorem Spelling.append_ne_quote {c : Char} {u : List Char} (hu : Spelling c u) :
    u ++ r ≠ '"' :: t := by
  intro h
  cases hu with
  | plain hquote => exact hquote (List.cons.inj h).1
  | letter l => exact absurd (List.cons.inj h).1 (by decide)
  | digits => exact absurd (List.cons.inj h).1 (by decide)

theorem Spelling.break_notMem {c : Char} {u : List Char} (hu : Spelling c u) : '\n' ∉ u := by
  cases hu with
  | plain hquote hslash hbreak => simp [hbreak.symm]
  | letter l hl hbreak => simp [hbreak.symm]
  | digits =>
    have hne : ∀ n < 16, '\n' ≠ Nat.digitChar n := by decide
    simp [Hex.notMem_ofChar hne]

/-- The first quote that is not part of a spelling ends the text. -/
theorem flatMap_escape_append_inj {cs ds : List Char}
    (h : cs.flatMap escape ++ '"' :: r = ds.flatMap escape ++ '"' :: t) : cs = ds ∧ r = t := by
  induction cs generalizing ds with
  | nil =>
    cases ds with
    | nil => exact ⟨rfl, (List.cons.inj h).2⟩
    | cons d ds =>
      rw [List.flatMap_cons, List.append_assoc] at h
      exact absurd h.symm (spelling_escape d).append_ne_quote
  | cons c cs ih =>
    cases ds with
    | nil =>
      rw [List.flatMap_cons, List.append_assoc] at h
      exact absurd h (spelling_escape c).append_ne_quote
    | cons d ds =>
      rw [List.flatMap_cons, List.flatMap_cons, List.append_assoc, List.append_assoc] at h
      obtain ⟨rfl, hrest⟩ := (spelling_escape c).append_inj (spelling_escape d) h
      obtain ⟨rfl, hrt⟩ := ih hrest
      exact ⟨rfl, hrt⟩

theorem quote_append_inj {a b : String} (h : (quote a).toList ++ r = (quote b).toList ++ t) :
    a = b ∧ r = t := by
  simp only [quote, String.toList_ofList, List.cons_append, List.append_assoc, List.nil_append,
    List.cons.injEq, true_and] at h
  obtain ⟨hab, hrt⟩ := flatMap_escape_append_inj h
  exact ⟨String.toList_inj.1 hab, hrt⟩

@[simp] theorem break_notMem_quote (text : String) : '\n' ∉ (quote text).toList := by
  have hinside : '\n' ∉ text.toList.flatMap escape := by
    rw [List.mem_flatMap]
    rintro ⟨c, -, hc⟩
    exact (spelling_escape c).break_notMem hc
  simp [quote, hinside]

end Quoted

end VectorStream.Text
