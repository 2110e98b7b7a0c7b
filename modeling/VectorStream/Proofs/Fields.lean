import VectorStream.Proofs.Encoding

/-!
# Fields in a row

A scan may consist of fields of one width. Whether it succeeds is a question of how many bytes are
left, and so is the place of the field at which it fails. A skip of the same bytes succeeds in the
same cases, with the same cursor behind it.
-/
namespace VectorStream
open Text

namespace Scan

/-- The scan takes a number of fields of one width. It fails at the first field that is not there
as a whole. -/
structure Fields {α : Type} (s : Scan α) (width number : Nat) : Prop where
  fits : ∀ c : Cursor, number * width ≤ c.rest.length →
    ∃ a, s c = .ok a ⟨c.offset + number * width, c.rest.drop (number * width)⟩
  short : ∀ c : Cursor, c.rest.length < number * width →
    s c = .error (.truncated (c.offset + width * (c.rest.length / width))) c.finish

namespace Fields
variable {α β : Type} {s : Scan α} {f : α → Scan β} {width m n : Nat}

theorem pure (a : α) (width : Nat) : Fields (Pure.pure a : Scan α) width 0 where
  fits := by
    intro c _
    simp only [Nat.zero_mul, Nat.add_zero, List.drop_zero]
    exact ⟨a, rfl⟩
  short := by
    intro c h
    rw [Nat.zero_mul] at h
    exact absurd h (Nat.not_lt_zero _)

/-- The fields of two scans in a row are counted from the start of the first one. -/
theorem bind (hs : Fields s width m) (hf : ∀ a, Fields (f a) width n) :
    Fields (s >>= f) width (m + n) where
  fits := by
    intro c h
    rw [Nat.add_mul] at h ⊢
    obtain ⟨a, ha⟩ := hs.fits c (by omega)
    have hbehind : n * width ≤ (c.rest.drop (m * width)).length := by
      rw [List.length_drop]
      omega
    obtain ⟨b, hb⟩ := (hf a).fits ⟨c.offset + m * width, c.rest.drop (m * width)⟩ hbehind
    refine ⟨b, ?_⟩
    rw [bind_of_ok ha, hb, List.drop_drop, Nat.add_assoc]
  short := by
    intro c h
    rw [Nat.add_mul] at h
    rcases Nat.lt_or_ge c.rest.length (m * width) with hm | hm
    · exact bind_of_error (hs.short c hm)
    · obtain ⟨a, ha⟩ := hs.fits c hm
      have hbehind : (c.rest.drop (m * width)).length < n * width := by
        rw [List.length_drop]
        omega
      have hpos : 0 < width := by
        rcases Nat.eq_zero_or_pos width with rfl | hpos
        · simp at hbehind
        · exact hpos
      have hquotient : width * (c.rest.length / width) =
          m * width + width * ((c.rest.length - m * width) / width) := by
        rw [Nat.mul_comm m, Nat.sub_mul_div, Nat.mul_sub]
        have hle : m ≤ c.rest.length / width := (Nat.le_div_iff_mul_le hpos).2 hm
        have hmul := Nat.mul_le_mul_left width hle
        omega
      have hfinish : Cursor.finish ⟨c.offset + m * width, c.rest.drop (m * width)⟩ =
          c.finish := by
        simp only [Cursor.finish, List.length_drop, Cursor.mk.injEq, and_true]
        omega
      rw [bind_of_ok ha, (hf a).short _ hbehind, hfinish, List.length_drop, hquotient,
        Nat.add_assoc]

theorem map (hs : Fields s width m) (g : α → β) :
    Fields (s >>= fun a => Pure.pure (g a)) width m :=
  hs.bind fun a => pure (g a) width

theorem field (size : Nat) : Fields (field size) size 1 where
  fits := by
    intro c h
    rw [Nat.one_mul] at h ⊢
    exact ⟨_, field_of_le h⟩
  short := by
    intro c h
    rw [Nat.one_mul] at h
    rw [field_of_lt h, Nat.div_eq_of_lt h, Nat.mul_zero, Nat.add_zero]

theorem unsigned (size : Nat) : Fields (unsigned size) size 1 := (field size).map _

theorem word : Fields word 2 1 := (unsigned 2).map _

theorem coord (w : Width) : Fields (coord w) w.size 1 := (unsigned w.size).map _

theorem point (w : Width) : Fields (point w) w.size 2 :=
  (coord w).bind fun _ => (coord w).map _

theorem timesFrom (hs : Fields s width m) (read : List α) (n : Nat) :
    Fields (timesFrom s read n) width (n * m) := by
  induction n generalizing read with
  | zero =>
    rw [Nat.zero_mul]
    exact pure _ width
  | succ n ih =>
    rw [Nat.succ_mul, Nat.add_comm (n * m)]
    exact hs.bind fun a => ih (a :: read)

theorem points (w : Width) (n : Nat) : Fields (points w n) w.size (n * 2) :=
  (point w).timesFrom [] n

theorem text (n : Nat) : Fields (text n) 2 n := by
  have h := (word.timesFrom [] n).map Utf16.decodeLossy
  rw [Nat.mul_one] at h
  exact h

end Fields

theorem skip_of_le {count : Nat} {c : Cursor} (h : count ≤ c.rest.length) :
    skip count c = .ok () ⟨c.offset + count, c.rest.drop count⟩ :=
  bind_of_ok (block_of_le h)

theorem skip_of_lt {count : Nat} {c : Cursor} (h : c.rest.length < count) :
    skip count c = .error (.truncated c.offset) c :=
  bind_of_error (block_of_lt h)

/-- A scan of a number of bytes beside a skip of them. The scan fails at a field, behind which
nothing is left; the skip fails where it starts. -/
structure TakesLikeSkip {α : Type} (s : Scan α) (width total : Nat) (c : Cursor) : Prop where
  ok_iff : (∃ a d, s c = .ok a d) ↔ total ≤ c.rest.length
  place : ∀ a d, s c = .ok a d → d = ⟨c.offset + total, c.rest.drop total⟩
  /-- The two succeed in the same cases and end at the same cursor. -/
  skip_ok_iff : ∀ d, skip total c = .ok () d ↔ ∃ a, s c = .ok a d
  fault : c.rest.length < total →
    s c = .error (.truncated (c.offset + width * (c.rest.length / width)))
      ⟨c.offset + c.rest.length, []⟩
  skip_fault : c.rest.length < total → skip total c = .error (.truncated c.offset) c

theorem Fields.takesLikeSkip {α : Type} {s : Scan α} {width number total : Nat}
    (h : Fields s width number) (htotal : number * width = total) (c : Cursor) :
    TakesLikeSkip s width total c := by
  subst htotal
  rcases Nat.lt_or_ge c.rest.length (number * width) with hlt | hle
  · have hscan := h.short c hlt
    have hskip := skip_of_lt hlt
    constructor
    · simp [hscan, hlt]
    · simp [hscan]
    · simp [hscan, hskip]
    · exact fun _ => hscan
    · exact fun _ => hskip
  · obtain ⟨a, hscan⟩ := h.fits c hle
    have hskip := skip_of_le hle
    have hnot : ¬ c.rest.length < number * width := Nat.not_lt.2 hle
    constructor
    · simp [hscan, hle]
    · simp only [hscan]
      rintro _ _ ⟨⟩
      rfl
    · simp [hscan, hskip]
    · exact fun k => absurd k hnot
    · exact fun k => absurd k hnot

/-- The bytes of one of the groups in front of a cursor. -/
def group (c : Cursor) (size i : Nat) : List UInt8 := (c.rest.drop (i * size)).take size

theorem group_flatMap_bytes {α : Type} {bytes : α → List UInt8} {size : Nat}
    (hsize : ∀ a, (bytes a).length = size) (values : List α) (offset : Nat) (rest : List UInt8)
    (i : Nat) (hi : i < values.length) :
    group ⟨offset, values.flatMap bytes ++ rest⟩ size i = bytes values[i] := by
  unfold group
  induction values generalizing i with
  | nil => cases hi
  | cons a values ih =>
    rw [List.flatMap_cons, List.append_assoc]
    cases i with
    | zero =>
      rw [Nat.zero_mul, List.drop_zero, ← hsize a, List.take_left]
      rfl
    | succ i =>
      rw [Nat.succ_mul, Nat.add_comm, ← List.drop_drop, ← hsize a, List.drop_left, hsize a]
      exact ih i (Nat.lt_of_succ_lt_succ hi)

theorem group_points {w : Width} {n : Nat} {c d : Cursor} {ps : List (Point w)}
    (h : points w n c = .ok ps d) :
    ps.length = n ∧ ∀ i (hi : i < ps.length), group c (2 * w.size) i = ps[i].bytes := by
  obtain ⟨_, ⟨hlength, rfl⟩, hc, -⟩ := (reads_points w n).cursor_eq h
  refine ⟨hlength, fun i hi => ?_⟩
  rw [hc]
  exact group_flatMap_bytes Point.length_bytes ps _ _ i hi

theorem group_text {n : Nat} {c d : Cursor} {content : String} (h : text n c = .ok content d) :
    ∃ units : List UInt16, content = Utf16.decodeLossy units ∧ units.length = n ∧
      ∀ i (hi : i < units.length), group c 2 i = unitBytes units[i] := by
  obtain ⟨_, ⟨units, hcontent, hlength, rfl⟩, hc, -⟩ := (reads_text n).cursor_eq h
  refine ⟨units, hcontent.symm, hlength, fun i hi => ?_⟩
  rw [hc]
  exact group_flatMap_bytes length_unitBytes units _ _ i hi

/-- A list of points or of units is there as a whole or fails at a coordinate or unit, and a skip
of as many bytes agrees with it. The elements are what the groups of bytes encode, one by one. -/
theorem lists_take_like_skip (n : Nat) (c : Cursor) :
    (∀ w, TakesLikeSkip (points w n) w.size (n * (2 * w.size)) c ∧
      ∀ ps d, points w n c = .ok ps d →
        ps.length = n ∧ ∀ i (hi : i < ps.length), group c (2 * w.size) i = ps[i].bytes) ∧
    TakesLikeSkip (text n) 2 (n * 2) c ∧
      ∀ content d, text n c = .ok content d → ∃ units : List UInt16,
        content = Utf16.decodeLossy units ∧ units.length = n ∧
          ∀ i (hi : i < units.length), group c 2 i = unitBytes units[i] := by
  refine ⟨fun w => ⟨?_, fun ps d => group_points⟩, ?_, fun content d => group_text⟩
  · exact (Fields.points w n).takesLikeSkip (Nat.mul_assoc n 2 w.size) c
  · exact (Fields.text n).takesLikeSkip rfl c

/-- Three bytes of the second point leave its first coordinate, and the fault is at the other. -/
example : points .short 2 ⟨9, [1, 0, 2, 0, 3, 0, 4]⟩ = .error (.truncated 15) ⟨16, []⟩ := by
  rfl

end Scan

end VectorStream
