import VectorStream.Payload

/-!
# Nesting of payloads

Behind every byte of a payload some parentheses are open, and perhaps a quote. The payload of an
extended opcode ends at the first closing parenthesis that finds nothing open. A split finds this
parenthesis if there is one, and if there is none, some bytes can be added that bring it about.
-/
namespace VectorStream.Payload

@[simp] theorem isQuote_opening : isQuote opening = false := rfl

@[simp] theorem isQuote_closing : isQuote closing = false := rfl

@[simp] theorem closing_ne_opening : closing ≠ opening := by decide

/-- What is open at a place: a number of parentheses, and perhaps a quote. -/
structure Nesting where
  depth : Nat
  quote : Option UInt8
  deriving DecidableEq

namespace Nesting

/-- Nothing is open. -/
def outermost : Nesting := ⟨0, none⟩

/-- What is open behind one more byte. A quote hides everything up to the same quote. -/
def step : Nesting → UInt8 → Nesting
  | ⟨depth, some q⟩, b => ⟨depth, if b = q then none else some q⟩
  | ⟨depth, none⟩, b =>
    if isQuote b then ⟨depth, some b⟩
    else if b = opening then ⟨depth + 1, none⟩
    else if b = closing then ⟨depth - 1, none⟩
    else ⟨depth, none⟩

def after (n : Nesting) (bytes : List UInt8) : Nesting := bytes.foldl step n

/-- No closing parenthesis among the bytes finds nothing open. -/
def StaysOpen (n : Nesting) (bytes : List UInt8) : Prop :=
  ∀ u v, bytes = u ++ closing :: v → n.after u ≠ outermost

variable {n : Nesting} {b : UInt8} {bytes rest u v : List UInt8}

@[simp] theorem after_nil : n.after [] = n := rfl

@[simp] theorem after_cons : n.after (b :: bytes) = (n.step b).after bytes := rfl

theorem after_append : n.after (u ++ v) = (n.after u).after v := List.foldl_append

theorem staysOpen_nil : n.StaysOpen [] := by
  intro u v h
  simp at h

theorem staysOpen_cons :
    n.StaysOpen (b :: bytes) ↔ (n = outermost → b ≠ closing) ∧ (n.step b).StaysOpen bytes := by
  constructor
  · intro h
    refine ⟨?_, fun u v hu => h (b :: u) v (by simp [hu])⟩
    rintro rfl rfl
    exact h [] bytes rfl rfl
  · rintro ⟨hb, hs⟩ u v hu
    cases u with
    | nil =>
      obtain ⟨rfl, rfl⟩ := List.cons.inj hu
      exact fun hn => hb hn rfl
    | cons x u =>
      obtain ⟨rfl, hu'⟩ := List.cons.inj hu
      exact hs u v hu'

theorem staysOpen_append : n.StaysOpen (u ++ v) ↔ n.StaysOpen u ∧ (n.after u).StaysOpen v := by
  induction u generalizing n with
  | nil => simp [staysOpen_nil]
  | cons b u ih => simp [staysOpen_cons, ih, and_assoc]

/-- The first closing parenthesis that finds nothing open. -/
theorem exists_first_closing (h : ¬ n.StaysOpen bytes) :
    ∃ p rest, bytes = p ++ closing :: rest ∧ n.StaysOpen p ∧ n.after p = outermost := by
  induction bytes generalizing n with
  | nil => exact absurd staysOpen_nil h
  | cons b bytes ih =>
    rw [staysOpen_cons] at h
    by_cases hb : n = outermost → b ≠ closing
    · obtain ⟨p, rest, rfl, hp, ha⟩ := ih fun k => h ⟨hb, k⟩
      exact ⟨b :: p, rest, rfl, staysOpen_cons.2 ⟨hb, hp⟩, ha⟩
    · obtain ⟨hn, rfl⟩ : n = outermost ∧ b = closing := by simpa using hb
      exact ⟨[], bytes, rfl, staysOpen_nil, hn⟩

/-- The bytes that close everything that is open. -/
def closers (n : Nesting) : List UInt8 := n.quote.toList ++ List.replicate n.depth closing

theorem step_closing (depth : Nat) : step ⟨depth, none⟩ closing = ⟨depth - 1, none⟩ := by
  simp [step]

theorem after_parentheses (depth : Nat) :
    after ⟨depth, none⟩ (List.replicate depth closing) = outermost := by
  induction depth with
  | zero => rfl
  | succ depth ih => rw [List.replicate_succ, after_cons, step_closing, Nat.add_sub_cancel, ih]

theorem staysOpen_parentheses (depth : Nat) :
    StaysOpen ⟨depth, none⟩ (List.replicate depth closing) := by
  induction depth with
  | zero => exact staysOpen_nil
  | succ depth ih =>
    rw [List.replicate_succ, staysOpen_cons, step_closing, Nat.add_sub_cancel]
    exact ⟨by simp [outermost], ih⟩

theorem after_closers (n : Nesting) : n.after n.closers = outermost := by
  obtain ⟨depth, quote⟩ := n
  cases quote with
  | none => exact after_parentheses depth
  | some q => simpa [closers, step] using after_parentheses depth

theorem staysOpen_closers (n : Nesting) : n.StaysOpen n.closers := by
  obtain ⟨depth, quote⟩ := n
  cases quote with
  | none => exact staysOpen_parentheses depth
  | some q =>
    have h : StaysOpen ⟨depth, some q⟩ (q :: List.replicate depth closing) := by
      rw [staysOpen_cons]
      exact ⟨by simp [outermost], by simpa [step] using staysOpen_parentheses depth⟩
    exact h

end Nesting

open Nesting

/-- A payload ends with nothing open, and before its end no closing parenthesis would end it. -/
def Closes (payload : List UInt8) : Prop :=
  outermost.StaysOpen payload ∧ outermost.after payload = outermost

theorem closes_nil : Closes [] := ⟨staysOpen_nil, rfl⟩

variable {n : Nesting} {read bytes payload rest : List UInt8}

theorem splitFrom_closing :
    splitFrom 0 none read (closing :: rest) = some (read.reverse, rest) := by
  simp [splitFrom]

theorem splitFrom_step {b : UInt8} (h : n = outermost → b ≠ closing) :
    splitFrom n.depth n.quote read (b :: bytes) =
      splitFrom (n.step b).depth (n.step b).quote (b :: read) bytes := by
  obtain ⟨depth, quote⟩ := n
  cases quote with
  | some q => rfl
  | none =>
    simp only [splitFrom, step]
    by_cases hq : isQuote b
    · simp [hq]
    by_cases ho : b = opening
    · simp [ho]
    by_cases hc : b = closing
    · cases depth with
      | zero => exact absurd hc (h rfl)
      | succ depth => simp [hc]
    · simp [hq, ho, hc]

theorem splitFrom_eq_none_iff :
    splitFrom n.depth n.quote read bytes = none ↔ n.StaysOpen bytes := by
  induction bytes generalizing n read with
  | nil => simp [splitFrom, staysOpen_nil]
  | cons b bytes ih =>
    rw [staysOpen_cons]
    by_cases h : n = outermost → b ≠ closing
    · rw [splitFrom_step h, ih]
      exact (and_iff_right h).symm
    · obtain ⟨rfl, rfl⟩ : n = outermost ∧ b = closing := by simpa using h
      have hs : splitFrom outermost.depth outermost.quote read (closing :: bytes) ≠ none := by
        rw [show outermost = ⟨0, none⟩ from rfl, splitFrom_closing]
        simp
      simp [hs]

theorem splitFrom_append (h : n.StaysOpen payload) (ho : n.after payload = outermost) :
    splitFrom n.depth n.quote read (payload ++ closing :: rest) =
      some (read.reverse ++ payload, rest) := by
  induction payload generalizing n read with
  | nil =>
    obtain rfl : n = outermost := ho
    rw [List.nil_append, List.append_nil]
    exact splitFrom_closing
  | cons b payload ih =>
    rw [staysOpen_cons] at h
    rw [List.cons_append, splitFrom_step h.1, ih h.2 ho]
    simp

theorem split_eq_none_iff : split bytes = none ↔ outermost.StaysOpen bytes :=
  splitFrom_eq_none_iff (n := outermost)

theorem split_append (h : Closes payload) :
    split (payload ++ closing :: rest) = some (payload, rest) :=
  splitFrom_append (n := outermost) h.1 h.2

/-- The payload that a split finds is the one that closes, and the rest is what follows it. -/
theorem split_eq_some_iff :
    split bytes = some (payload, rest) ↔ bytes = payload ++ closing :: rest ∧ Closes payload := by
  constructor
  · intro h
    have hn : ¬ outermost.StaysOpen bytes := by
      rw [← split_eq_none_iff, h]
      simp
    obtain ⟨p, rest', rfl, hp, ha⟩ := exists_first_closing hn
    rw [split_append ⟨hp, ha⟩] at h
    cases h
    exact ⟨rfl, hp, ha⟩
  · rintro ⟨rfl, h⟩
    exact split_append h

theorem exists_closes (h : split bytes = none) : ∃ t, Closes (bytes ++ t) := by
  have ho : outermost.StaysOpen bytes := split_eq_none_iff.1 h
  refine ⟨(outermost.after bytes).closers, ?_, ?_⟩
  · exact staysOpen_append.2 ⟨ho, staysOpen_closers _⟩
  · rw [after_append, after_closers]

end VectorStream.Payload
