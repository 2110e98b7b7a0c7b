import VectorStream.Listing
import VectorStream.Proofs.Legibility

/-!
# Listings

A listing is faithful: the line of an opcode or of a primitive shows everything that it holds, no
text in it can imitate another line, and so the lines of a listing tell the whole list.
-/
namespace VectorStream
open Text

theorem Width.toInt_injective (w : Width) : Function.Injective w.toInt := by
  cases w with
  | short => exact fun _ _ => Int16.toInt_inj.1
  | long => exact fun _ _ => Int32.toInt_inj.1

namespace Color
variable {r t : List Char}

theorem text_append_inj {c d : Color} (h : c.text.toList ++ r = d.text.toList ++ t) :
    c = d ∧ r = t := by
  obtain ⟨red, green, blue, alpha⟩ := c
  obtain ⟨red', green', blue', alpha'⟩ := d
  simp only [text, String.toList_append, List.append_assoc] at h
  obtain ⟨hred, h₁⟩ := Hex.ofByte_append_inj (List.append_cancel_left h)
  obtain ⟨hgreen, h₂⟩ := Hex.ofByte_append_inj h₁
  obtain ⟨hblue, h₃⟩ := Hex.ofByte_append_inj h₂
  obtain ⟨halpha, hrt⟩ := Hex.ofByte_append_inj h₃
  exact ⟨by rw [hred, hgreen, hblue, halpha], hrt⟩

@[simp] theorem break_notMem_text (c : Color) : '\n' ∉ c.text.toList := by
  simp [text]

end Color

namespace Point
variable {w : Width} {p q : Point w} {ps qs : List (Point w)} {r t : List Char}

theorem text_append_inj (h : p.text.toList ++ r = q.text.toList ++ t) : p = q ∧ r = t := by
  obtain ⟨x, y⟩ := p
  obtain ⟨x', y'⟩ := q
  simp only [text, String.toList_append, List.append_assoc] at h
  obtain ⟨hx, h₁⟩ := Decimal.ofInt_append_inj (by simp) (by simp) (List.append_cancel_left h)
  obtain ⟨hy, h₂⟩ := Decimal.ofInt_append_inj (by simp) (by simp) (List.append_cancel_left h₁)
  have hx' : x = x' := w.toInt_injective hx
  have hy' : y = y' := w.toInt_injective hy
  exact ⟨by rw [hx', hy'], List.append_cancel_left h₂⟩

@[simp] theorem break_notMem_text (p : Point w) : '\n' ∉ p.text.toList := by
  simp [text]

theorem exists_text (p : Point w) : ∃ s, p.text.toList = '(' :: s := by
  simp [text]

/-- The points behind the first one, each with a space in front. -/
def spaced (ps : List (Point w)) : List Char := ps.flatMap fun p => ' ' :: p.text.toList

theorem toList_listText_cons (p : Point w) (ps : List (Point w)) :
    (listText (p :: ps)).toList = p.text.toList ++ spaced ps := by
  induction ps generalizing p with
  | nil => simp [listText, spaced]
  | cons q ps ih =>
    have hq := ih q
    simp only [listText, List.map_cons] at hq
    simp [listText, hq, spaced]

/-- The text cannot be the next part of a list of points. -/
def EndsList (r : List Char) : Prop := ∀ s, r ≠ '(' :: s ∧ r ≠ ' ' :: '(' :: s

theorem spaced_append_inj (hr : EndsList r) (ht : EndsList t)
    (h : spaced ps ++ r = spaced qs ++ t) : ps = qs ∧ r = t := by
  -- A list that goes on would begin what ends the other one.
  have hmore : ∀ (q : Point w) (s : List Char), ∃ s', ' ' :: q.text.toList ++ s = ' ' :: '(' :: s' := by
    intro q s
    obtain ⟨s', hs⟩ := q.exists_text
    exact ⟨s' ++ s, by rw [hs]; rfl⟩
  induction ps generalizing qs with
  | nil =>
    cases qs with
    | nil => exact ⟨rfl, h⟩
    | cons q qs =>
      rw [spaced, spaced, List.flatMap_cons, List.append_assoc] at h
      obtain ⟨s, hs⟩ := hmore q (qs.flatMap (fun p => ' ' :: p.text.toList) ++ t)
      exact absurd (h.trans hs) (hr s).2
  | cons p ps ih =>
    cases qs with
    | nil =>
      rw [spaced, spaced, List.flatMap_cons, List.append_assoc] at h
      obtain ⟨s, hs⟩ := hmore p (ps.flatMap (fun p => ' ' :: p.text.toList) ++ r)
      exact absurd (h.symm.trans hs) (ht s).2
    | cons q qs =>
      rw [spaced, spaced, List.flatMap_cons, List.flatMap_cons, List.append_assoc,
        List.append_assoc] at h
      obtain ⟨rfl, hrest⟩ := text_append_inj (List.cons.inj h).2
      obtain ⟨rfl, hrt⟩ := ih hrest
      exact ⟨rfl, hrt⟩

theorem listText_append_inj (hr : EndsList r) (ht : EndsList t)
    (h : (listText ps).toList ++ r = (listText qs).toList ++ t) : ps = qs ∧ r = t := by
  cases ps with
  | nil =>
    cases qs with
    | nil => exact ⟨rfl, h⟩
    | cons q qs =>
      obtain ⟨s, hs⟩ := q.exists_text
      rw [toList_listText_cons, hs] at h
      exact absurd h (hr _).1
  | cons p ps =>
    cases qs with
    | nil =>
      obtain ⟨s, hs⟩ := p.exists_text
      rw [toList_listText_cons, hs] at h
      exact absurd h.symm (ht _).1
    | cons q qs =>
      rw [toList_listText_cons, toList_listText_cons, List.append_assoc, List.append_assoc] at h
      obtain ⟨rfl, hrest⟩ := text_append_inj h
      obtain ⟨rfl, hrt⟩ := spaced_append_inj hr ht hrest
      exact ⟨rfl, hrt⟩

@[simp] theorem break_notMem_listText (ps : List (Point w)) : '\n' ∉ (listText ps).toList := by
  cases ps with
  | nil => simp [listText]
  | cons p ps => simp [toList_listText_cons, spaced]

end Point

namespace Opcode

/-- The opcodes are of one kind, that is, they can differ in what they hold only. -/
inductive SameKind : Opcode → Opcode → Prop
  | visibility (a b : Bool) : SameKind (visibility a) (visibility b)
  | moveTo (p q : Point .short) : SameKind (moveTo p) (moveTo q)
  | weight (m n : Int16) : SameKind (weight m) (weight n)
  | line {w : Width} (p p' q q' : Point w) :
    SameKind (shape w (.line p p')) (shape w (.line q q'))
  | polyline {w : Width} (ps qs : List (Point w)) :
    SameKind (shape w (.polyline ps)) (shape w (.polyline qs))
  | markers {w : Width} (ps qs : List (Point w)) :
    SameKind (shape w (.markers ps)) (shape w (.markers qs))
  | text (p q : Point .short) (s t : String) : SameKind (text p s) (text q t)
  | colorIndex (i j : UInt8) : SameKind (colorIndex i) (colorIndex j)
  | color (c d : Color) : SameKind (color c) (color d)
  | unsupported (i j : UInt8) : SameKind (unsupported i) (unsupported j)
  | unrecognized (s t : String) : SameKind (unrecognized s) (unrecognized t)

variable {a b : Opcode}

theorem sameKind_of_name_eq : a.name = b.name → SameKind a b := by
  fun_cases name a <;> fun_cases name b <;> intro h
  -- Two kinds have two names.
  all_goals try exact absurd h (by decide)
  all_goals constructor

theorem SameKind.eq (h : SameKind a b) (ho : a.operand = b.operand) : a = b := by
  have hend : Point.EndsList ("]".toList ++ []) := by simp [Point.EndsList]
  have ho' : a.operand.toList ++ [] = b.operand.toList ++ [] := by rw [ho]
  cases h with
  | visibility x y =>
    cases x <;> cases y <;> simp [operand] at ho ⊢
  | moveTo p q =>
    obtain ⟨rfl, -⟩ := Point.text_append_inj ho'
    rfl
  | weight m n =>
    obtain ⟨hmn, -⟩ := Decimal.ofInt_append_inj (by simp) (by simp) ho'
    rw [Int16.toInt_inj.1 hmn]
  | line p p' q q' =>
    simp only [operand, String.toList_append, List.append_assoc] at ho'
    obtain ⟨hp, hrest⟩ := Point.text_append_inj ho'
    obtain ⟨hp', -⟩ := Point.text_append_inj (List.append_cancel_left hrest)
    rw [hp, hp']
  | polyline ps qs =>
    simp only [operand, String.toList_append, List.append_assoc] at ho'
    obtain ⟨rfl, -⟩ := Point.listText_append_inj hend hend (List.append_cancel_left ho')
    rfl
  | markers ps qs =>
    simp only [operand, String.toList_append, List.append_assoc] at ho'
    obtain ⟨rfl, -⟩ := Point.listText_append_inj hend hend (List.append_cancel_left ho')
    rfl
  | text p q s t =>
    simp only [operand, String.toList_append, List.append_assoc] at ho'
    obtain ⟨hp, hrest⟩ := Point.text_append_inj ho'
    obtain ⟨hs, -⟩ := Quoted.quote_append_inj (List.append_cancel_left hrest)
    rw [hp, hs]
  | colorIndex i j =>
    obtain ⟨hij, -⟩ := Decimal.ofNat_append_inj (by simp) (by simp) ho'
    rw [UInt8.toNat_inj.1 hij]
  | color c d =>
    obtain ⟨rfl, -⟩ := Color.text_append_inj ho'
    rfl
  | unsupported i j =>
    simp only [operand, String.toList_append, List.append_assoc] at ho'
    obtain ⟨rfl, -⟩ := Hex.ofByte_append_inj (List.append_cancel_left ho')
    rfl
  | unrecognized s t =>
    obtain ⟨rfl, -⟩ := Quoted.quote_append_inj ho'
    rfl

theorem space_notMem_name (op : Opcode) : ' ' ∉ op.name.toList := by
  fun_cases name op <;> decide

theorem listing_injective : Function.Injective listing := by
  intro a b h
  have htext := congrArg String.toList h
  simp only [listing, String.toList_append, List.append_assoc] at htext
  obtain ⟨hn, ho⟩ := append_cons_inj a.space_notMem_name b.space_notMem_name htext
  exact (sameKind_of_name_eq (String.toList_inj.1 hn)).eq (String.toList_inj.1 ho)

theorem break_notMem_listing (op : Opcode) : '\n' ∉ op.listing.toList := by
  have hname : '\n' ∉ op.name.toList := by fun_cases name op <;> decide
  have hoperand : '\n' ∉ op.operand.toList := by
    fun_cases operand op <;> simp
  simp [listing, hname, hoperand]

end Opcode

namespace Render

/-- A style can be told from the end of a line. -/
theorem Style.eq_of_text {s t : Style}
    (h : s.color.text.toList ++ (" weight=".toList ++ (Decimal.ofInt s.weight.toInt).toList) =
      t.color.text.toList ++ (" weight=".toList ++ (Decimal.ofInt t.weight.toInt).toList)) :
    s = t := by
  obtain ⟨color, weight⟩ := s
  obtain ⟨color', weight'⟩ := t
  obtain ⟨hcolor, h₁⟩ := Color.text_append_inj h
  have h₂ := congrArg (· ++ []) (List.append_cancel_left h₁)
  obtain ⟨hweight, -⟩ := Decimal.ofInt_append_inj (by simp) (by simp) h₂
  have hcolor' : color = color' := hcolor
  have hweight' : weight = weight' := Int32.toInt_inj.1 hweight
  rw [hcolor', hweight']

namespace Primitive

theorem listing_injective : Function.Injective listing := by
  intro p q h
  have hend : ∀ s : List Char, Point.EndsList (" color=".toList ++ s) := by simp [Point.EndsList]
  have htext := congrArg String.toList h
  cases p with
  | line a b s =>
    cases q with
    | line a' b' s' =>
      simp only [listing, figure, String.toList_append, List.append_assoc] at htext
      obtain ⟨ha, h₁⟩ := Point.text_append_inj (List.append_cancel_left htext)
      obtain ⟨hb, h₂⟩ := Point.text_append_inj (List.append_cancel_left h₁)
      have hs : s = s' := Style.eq_of_text (List.append_cancel_left h₂)
      rw [ha, hb, hs]
    | _ => simp [listing, figure] at htext
  | polyline ps s =>
    cases q with
    | polyline ps' s' =>
      simp only [listing, figure, String.toList_append, List.append_assoc] at htext
      obtain ⟨hps, h₁⟩ :=
        Point.listText_append_inj (hend _) (hend _) (List.append_cancel_left htext)
      have hs : s = s' := Style.eq_of_text (List.append_cancel_left h₁)
      rw [hps, hs]
    | _ => simp [listing, figure] at htext
  | marker a s =>
    cases q with
    | marker a' s' =>
      simp only [listing, figure, String.toList_append, List.append_assoc] at htext
      obtain ⟨ha, h₁⟩ := Point.text_append_inj (List.append_cancel_left htext)
      have hs : s = s' := Style.eq_of_text (List.append_cancel_left h₁)
      rw [ha, hs]
    | _ => simp [listing, figure] at htext
  | text a content s =>
    cases q with
    | text a' content' s' =>
      simp only [listing, figure, String.toList_append, List.append_assoc] at htext
      obtain ⟨ha, h₁⟩ := Point.text_append_inj (List.append_cancel_left htext)
      obtain ⟨hcontent, h₂⟩ := Quoted.quote_append_inj (List.append_cancel_left h₁)
      have hs : s = s' := Style.eq_of_text (List.append_cancel_left h₂)
      rw [ha, hcontent, hs]
    | _ => simp [listing, figure] at htext

theorem break_notMem_listing (p : Primitive) : '\n' ∉ p.listing.toList := by
  cases p <;> simp [listing, figure]

end Primitive

end Render

namespace Listing
open Render
variable {xs ys : List String}

theorem toList_lines (xs : List String) :
    (lines xs).toList = xs.flatMap fun text => text.toList ++ ['\n'] := by
  have hfrom : ∀ out : String, (xs.foldl (fun out text => out ++ text ++ "\n") out).toList =
      out.toList ++ xs.flatMap fun text => text.toList ++ ['\n'] := by
    induction xs with
    | nil => simp
    | cons text xs ih =>
      intro out
      simp [ih]
  exact hfrom ""

/-- Each line break ends a line, so that the lines can be told. -/
theorem lines_inj (hx : ∀ text ∈ xs, '\n' ∉ text.toList) (hy : ∀ text ∈ ys, '\n' ∉ text.toList)
    (h : lines xs = lines ys) : xs = ys := by
  have htext := congrArg String.toList h
  rw [toList_lines, toList_lines] at htext
  clear h
  induction xs generalizing ys with
  | nil =>
    cases ys with
    | nil => rfl
    | cons y ys => simp at htext
  | cons x xs ih =>
    cases ys with
    | nil => simp at htext
    | cons y ys =>
      obtain ⟨hx₁, hx₂⟩ := List.forall_mem_cons.1 hx
      obtain ⟨hy₁, hy₂⟩ := List.forall_mem_cons.1 hy
      rw [List.flatMap_cons, List.flatMap_cons, List.append_assoc, List.append_assoc] at htext
      obtain ⟨hxy, hrest⟩ := append_cons_inj hx₁ hy₁ htext
      rw [String.toList_inj.1 hxy, ih hx₂ hy₂ hrest]

theorem break_notMem_padded (width n : Nat) : '\n' ∉ (Decimal.padded width n).toList := by
  have hdigits := Decimal.break_notMem_ofNat n
  rw [Decimal.toList_ofNat] at hdigits
  simp [Decimal.padded, hdigits]

/-- The lines of a listing tell its opcodes. -/
theorem opcodeLines_injective : Function.Injective opcodeLines := by
  intro xs ys h
  let line := fun (op, index) => Decimal.padded 6 index ++ " " ++ Opcode.listing op
  have hbreak : ∀ ops : List Opcode, ∀ text ∈ ops.zipIdx.map line, '\n' ∉ text.toList := by
    intro ops text ht
    obtain ⟨⟨op, index⟩, -, rfl⟩ := List.mem_map.1 ht
    simp [line, break_notMem_padded, op.break_notMem_listing]
  have hlines : xs.zipIdx.map line = ys.zipIdx.map line := lines_inj (hbreak xs) (hbreak ys) h
  have hlength : xs.length = ys.length := by simpa using congrArg List.length hlines
  apply List.ext_getElem hlength
  intro k hx hy
  have hk : (xs.zipIdx.map line)[k]? = (ys.zipIdx.map line)[k]? := by rw [hlines]
  simp only [List.getElem?_map, List.getElem?_zipIdx, List.getElem?_eq_getElem hx,
    List.getElem?_eq_getElem hy, Option.map_some, Option.some.injEq, line] at hk
  exact Opcode.listing_injective ((String.append_right_inj _).1 hk)

end Listing

end VectorStream
