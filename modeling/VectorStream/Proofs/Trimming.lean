import Mathlib.Data.List.DropRight
import VectorStream.Text.Character

/-!
# Trimming

What trimming leaves of a text starts and ends with no blank, and only blanks are taken away. There
is one such part of every text.
-/
namespace VectorStream.Text.Blank
variable {α : Type} {blank : α → Bool} {text core : List α}

/-- The part of a text between the blanks at its ends. -/
structure Trimmed (blank : α → Bool) (text core : List α) : Prop where
  parts : ∃ front back, text = front ++ (core ++ back) ∧ (∀ x ∈ front, blank x) ∧
    ∀ x ∈ back, blank x
  first : ∀ h : core ≠ [], ¬ blank (core.head h)
  last : ∀ h : core ≠ [], ¬ blank (core.getLast h)

theorem trim_eq_rdropWhile : trim blank text = (text.dropWhile blank).rdropWhile blank := rfl

theorem trimmed_trim : Trimmed blank text (trim blank text) where
  parts := by
    refine ⟨text.takeWhile blank, (text.dropWhile blank).rtakeWhile blank, ?_,
      fun x => List.mem_takeWhile_imp, fun x => List.mem_rtakeWhile_imp⟩
    rw [trim_eq_rdropWhile, List.rdropWhile_append_rtakeWhile, List.takeWhile_append_dropWhile]
  first := by
    intro h
    have hle : trim blank text <+: text.dropWhile blank := List.rdropWhile_prefix _ _
    have hne : text.dropWhile blank ≠ [] := fun k => h (List.prefix_nil.1 (k ▸ hle))
    rw [hle.head h, List.head_dropWhile_not blank hne]
    exact Bool.false_ne_true
  last := fun h => List.rdropWhile_last_not blank _ h

/-- Blanks at the end make no difference to what is left when blanks are dropped from there. -/
theorem rdropWhile_append {back : List α} (h : ∀ x ∈ back, blank x) :
    (core ++ back).rdropWhile blank = core.rdropWhile blank := by
  have hback : ∀ x ∈ back.reverse, blank x := fun x hx => h x (List.mem_reverse.1 hx)
  rw [List.rdropWhile, List.reverse_append, List.dropWhile_append_of_pos hback, List.rdropWhile]

theorem Trimmed.eq_trim (h : Trimmed blank text core) : core = trim blank text := by
  obtain ⟨front, back, rfl, hfront, hback⟩ := h.parts
  rw [trim_eq_rdropWhile, List.dropWhile_append_of_pos hfront]
  cases core with
  | nil => rw [List.nil_append, List.dropWhile_eq_nil_iff.2 hback, List.rdropWhile_nil]
  | cons x core =>
    have hx : ¬ blank x := h.first (List.cons_ne_nil x core)
    rw [List.cons_append, List.dropWhile_cons_of_neg hx, ← List.cons_append,
      rdropWhile_append hback, List.rdropWhile_eq_self_iff.2 h.last]

theorem trimmed_iff : Trimmed blank text core ↔ core = trim blank text :=
  ⟨Trimmed.eq_trim, fun h => h ▸ trimmed_trim⟩

/-- More blanks at the ends make no difference. -/
theorem trimmed_between_iff {front back : List α} (hfront : ∀ x ∈ front, blank x)
    (hback : ∀ x ∈ back, blank x) :
    Trimmed blank (front ++ (text ++ back)) core ↔ Trimmed blank text core := by
  have hwide {core : List α} (h : Trimmed blank text core) :
      Trimmed blank (front ++ (text ++ back)) core := by
    obtain ⟨left, right, rfl, hleft, hright⟩ := h.parts
    refine ⟨⟨front ++ left, right ++ back, by simp, ?_, ?_⟩, h.first, h.last⟩
    · exact List.forall_mem_append.2 ⟨hfront, hleft⟩
    · exact List.forall_mem_append.2 ⟨hright, hback⟩
  constructor
  · intro h
    rw [h.eq_trim, ← (hwide trimmed_trim).eq_trim]
    exact trimmed_trim
  · exact hwide

end VectorStream.Text.Blank
