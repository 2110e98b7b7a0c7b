import VectorStream.Proofs.ErrorPlace
import VectorStream.Proofs.Fields

/-!
# Calls in a row

A reader makes one call after another and goes on after those that fail. Its offset never goes back
and never leaves the data. A call that fails has met the end of the data, where it leaves the
reader, except that a block which does not fit leaves it where it was. What a call yields is a
matter of the bytes that it takes; only a peek takes none and looks at the next one.
-/
namespace VectorStream

namespace Scan
variable {α β : Type}

/-- A failure of the scan has used up the data. -/
def UsesUp (s : Scan α) : Prop := ∀ c e d, s c = .error e d → d = c.finish

namespace UsesUp

protected theorem pure (a : α) : UsesUp (pure a) := by
  rintro c e d ⟨⟩

protected theorem bind {s : Scan α} {f : α → Scan β} (hs : UsesUp s) (hforward : Forward s)
    (hf : ∀ a, UsesUp (f a)) : UsesUp (s >>= f) := by
  intro c e d h
  cases hc : s c with
  | ok a c' =>
    rw [bind_of_ok hc] at h
    have hbehind := hf a c' e d h
    rw [hbehind, (hforward.reaches_of_ok hc).finish_eq]
  | error e' c' =>
    rw [bind_of_error hc] at h
    cases h
    exact hs c e _ hc

protected theorem ite {p : Prop} [Decidable p] {s t : Scan α} (hs : UsesUp s) (ht : UsesUp t) :
    UsesUp (if p then s else t) := by
  split <;> assumption

end UsesUp

theorem Fields.usesUp {s : Scan α} {width number : Nat} (h : Fields s width number) :
    UsesUp s := by
  intro c e d he
  rcases Nat.lt_or_ge c.rest.length (number * width) with hlt | hle
  · cases he.symm.trans (h.short c hlt)
    rfl
  · obtain ⟨a, hok⟩ := h.fits c hle
    cases he.symm.trans hok

theorem usesUp_byte : UsesUp byte := ((Fields.unsigned 1).map _).usesUp

/-- The fields of a long count differ in width, so that it is no row of fields. Yet each of the two
uses up the data. -/
theorem usesUp_count : UsesUp count :=
  usesUp_byte.bind forward_byte fun _ =>
    .ite (Fields.word.usesUp.bind forward_word fun _ => .pure _) (.pure _)

/-- A block that does not fit is not begun. -/
theorem eq_of_block_error {n : Nat} {c d : Cursor} {e : StreamError}
    (h : block n c = .error e d) : d = c := by
  rcases Nat.lt_or_ge c.rest.length n with hlt | hle
  · cases h.symm.trans (block_of_lt hlt)
    rfl
  · cases h.symm.trans (block_of_le hle)

/-- A skip fails as the block does that it skips. -/
theorem block_error_of_skip_error {n : Nat} {c d : Cursor} {e : StreamError}
    (h : skip n c = .error e d) : block n c = .error e d := by
  cases hblock : block n c with
  | ok bytes c' => cases h.symm.trans (bind_of_ok hblock)
  | error e' c' =>
    cases h.symm.trans (bind_of_error hblock)
    rfl

/-- A block is the bytes between two offsets within the data. If the second one would lie behind
the data, there is no block. -/
theorem block_eq_ok_iff {data : List UInt8} {c : Cursor} (h : (Cursor.start data).Reaches c)
    (n : Nat) (bytes : List UInt8) (d : Cursor) :
    block n c = .ok bytes d ↔ c.offset + n ≤ data.length ∧
      bytes = data.extract c.offset (c.offset + n) ∧
        d = ⟨c.offset + n, data.drop (c.offset + n)⟩ := by
  have htotal := h.offset_add_length
  have hbytes : data.extract c.offset (c.offset + n) = c.rest.take n := by
    rw [List.extract_eq_take_drop, ← h.rest_eq, Nat.add_sub_cancel_left]
  have hbehind : data.drop (c.offset + n) = c.rest.drop n := by
    rw [h.rest_eq, List.drop_drop]
  rw [hbytes, hbehind]
  rcases Nat.lt_or_ge c.rest.length n with hlt | hle
  · rw [block_of_lt hlt]
    constructor
    · rintro ⟨⟩
    · rintro ⟨hbound, -⟩
      omega
  · rw [block_of_le hle, EStateM.Result.ok.injEq]
    constructor
    · rintro ⟨rfl, rfl⟩
      exact ⟨by omega, rfl, rfl⟩
    · rintro ⟨-, rfl, rfl⟩
      exact ⟨rfl, rfl⟩

/-- A scan that finds the same wherever its bytes stand fails only for want of data, at a place
between its start and the end. -/
theorem Relocatable.exists_truncated {s : Scan α} (h : Relocatable fun _ => s) {c d : Cursor}
    {e : StreamError} (he : s c = .error e d) :
    ∃ offset, e = .truncated offset ∧ c.offset ≤ offset ∧ offset ≤ c.offset + c.rest.length := by
  have htruncated := h.failsWith c e d he
  rcases h c.offset c.rest with ⟨a, m, -, hok⟩ | ⟨e₀, m, hfits, -, herror⟩
  · cases he.symm.trans (hok 0)
  · cases he.symm.trans (herror 0)
    cases e₀ with
    | truncated offset => exact ⟨offset, rfl, hfits⟩
    | _ => cases htruncated

/-- A word stands for one value only, so the bytes that are taken settle the value. -/
theorem Reads.value_eq {s : Scan α} {G : Language α} (h : s.Reads G) {a a' : α}
    {c d c' d' : Cursor} {w : List UInt8} (hs : s c = .ok a d) (hs' : s c' = .ok a' d')
    (hw : c.rest = w ++ d.rest) (hw' : c'.rest = w ++ d'.rest) : a = a' := by
  obtain ⟨u, hu, hc⟩ := h.sound hs
  obtain ⟨v, hv, hc'⟩ := h.sound hs'
  have huw : u = w := List.append_cancel_right (hc.symm.trans hw)
  have hvw : v = w := List.append_cancel_right (hc'.symm.trans hw')
  have hsame : u ++ [] = v ++ [] := by rw [huw, hvw]
  exact (h.unique hu hv hsame).1

/-- All that can be asked of a reader. Coordinates and points have one of two widths; lists, texts
and blocks come with the number of their elements, units or bytes. -/
inductive Call where
  | byte
  | word
  | coord (w : Width)
  | count
  | point (w : Width)
  | points (w : Width) (n : Nat)
  | text (n : Nat)
  | block (n : Nat)
  | skip (n : Nat)
  | peek
  | advance
  deriving DecidableEq

namespace Call

/-- What a call yields if it succeeds. -/
abbrev Value : Call → Type
  | byte => UInt8
  | word => UInt16
  | coord w => w.Coord
  | count => Nat
  | point w => Point w
  | points w _ => List (Point w)
  | text _ => String
  | block _ => List UInt8
  | skip _ => Unit
  | peek => Option UInt8
  | advance => Unit

def scan : (k : Call) → Scan k.Value
  | byte => Scan.byte
  | word => Scan.word
  | coord w => Scan.coord w
  | count => Scan.count
  | point w => Scan.point w
  | points w n => Scan.points w n
  | text n => Scan.text n
  | block n => Scan.block n
  | skip n => Scan.skip n
  | peek => Cursor.peek <$> get
  | advance => modify Cursor.advance

/-- The call asks for some bytes as a whole, which are there or are not. -/
def isBlock : Call → Bool
  | block _ => true
  | skip _ => true
  | _ => false

/-- The cursor behind a call, whether the call succeeds or fails. -/
def behind (k : Call) (c : Cursor) : Cursor :=
  match k.scan c with
  | .ok _ d => d
  | .error _ d => d

theorem forward_scan (k : Call) : Forward k.scan := by
  cases k with
  | byte => exact forward_byte
  | word => exact forward_word
  | coord w => exact forward_coord w
  | count => exact forward_count
  | point w => exact forward_point w
  | points w n => exact forward_points w n
  | text n => exact forward_text n
  | block n => exact forward_block n
  | skip n => exact forward_skip n
  | peek => exact .map .get Cursor.peek
  | advance => exact .modify Cursor.reaches_advance

theorem reaches_behind (k : Call) (c : Cursor) : c.Reaches (k.behind c) := by
  unfold behind
  cases h : k.scan c with
  | ok v d => exact k.forward_scan.reaches_of_ok h
  | error e d => exact k.forward_scan.reaches_of_error h

/-- Only for want of data does a call fail. A peek and an advance never do. -/
theorem exists_truncated {k : Call} {c d : Cursor} {e : StreamError}
    (h : k.scan c = .error e d) :
    ∃ offset, e = .truncated offset ∧ c.offset ≤ offset ∧ offset ≤ c.offset + c.rest.length := by
  cases k with
  | byte => exact relocatable_byte.exists_truncated h
  | word => exact relocatable_word.exists_truncated h
  | coord w => exact (relocatable_coord w).exists_truncated h
  | count => exact relocatable_count.exists_truncated h
  | point w => exact (relocatable_point w).exists_truncated h
  | points w n => exact (relocatable_points w n).exists_truncated h
  | text n => exact (relocatable_text n).exists_truncated h
  | block n => exact (relocatable_block n).exists_truncated h
  | skip n => exact (relocatable_skip n).exists_truncated h
  | peek => cases h
  | advance => cases h

theorem eq_of_error {k : Call} (hk : k.isBlock) {c d : Cursor} {e : StreamError}
    (h : k.scan c = .error e d) : d = c := by
  cases k with
  | block n => exact eq_of_block_error h
  | skip n => exact eq_of_block_error (block_error_of_skip_error h)
  | _ => cases hk

theorem usesUp_scan {k : Call} (hk : ¬ k.isBlock) : UsesUp k.scan := by
  cases k with
  | byte => exact usesUp_byte
  | word => exact Fields.word.usesUp
  | coord w => exact (Fields.coord w).usesUp
  | count => exact usesUp_count
  | point w => exact (Fields.point w).usesUp
  | points w n => exact (Fields.points w n).usesUp
  | text n => exact (Fields.text n).usesUp
  | block n => exact absurd rfl hk
  | skip n => exact absurd rfl hk
  | peek => rintro c e d ⟨⟩
  | advance => rintro c e d ⟨⟩

theorem value_eq {k : Call} (hk : k ≠ peek) {v v' : k.Value} {c d c' d' : Cursor}
    {bytes : List UInt8} (hs : k.scan c = .ok v d) (hs' : k.scan c' = .ok v' d')
    (hc : c.rest = bytes ++ d.rest) (hc' : c'.rest = bytes ++ d'.rest) : v = v' := by
  cases k with
  | byte => exact reads_byte.value_eq hs hs' hc hc'
  | word => exact reads_word.value_eq hs hs' hc hc'
  | coord w => exact (reads_coord w).value_eq hs hs' hc hc'
  | count => exact reads_count.value_eq hs hs' hc hc'
  | point w => exact (reads_point w).value_eq hs hs' hc hc'
  | points w n => exact (reads_points w n).value_eq hs hs' hc hc'
  | text n => exact (reads_text n).value_eq hs hs' hc hc'
  | block n => exact (reads_block n).value_eq hs hs' hc hc'
  | skip n => rfl
  | peek => exact absurd rfl hk
  | advance => rfl

end Call

end Scan

namespace Cursor

/-- The cursor behind some calls in a row. A call that fails does not end them. -/
def after (c : Cursor) (calls : List Scan.Call) : Cursor :=
  calls.foldl (fun c k => k.behind c) c

theorem reaches_after (c : Cursor) (calls : List Scan.Call) : c.Reaches (c.after calls) := by
  induction calls generalizing c with
  | nil => exact .refl c
  | cons k calls ih => exact (k.reaches_behind c).trans (ih (k.behind c))

end Cursor

namespace Scan

/-- The bytes that the call takes here settle its value. Where the call takes the same bytes, in
these data or in others and after whatever calls, it yields the same. -/
def Call.Settled (k : Call) (data : List UInt8) (c : Cursor) : Prop :=
  ∀ v d, k.scan c = .ok v d → ∀ (data' : List UInt8) (calls' : List Call) (v' : k.Value) d',
    k.scan ((Cursor.start data').after calls') = .ok v' d' →
      data.extract c.offset d.offset =
          data'.extract ((Cursor.start data').after calls').offset d'.offset →
        v = v'

theorem Call.settled_of_ne_peek {k : Call} (hk : k ≠ .peek) {data : List UInt8} {c : Cursor}
    (h : (Cursor.start data).Reaches c) : k.Settled data c := by
  intro v d hs data' calls' v' d' hs' hsame
  have h' := (Cursor.start data').reaches_after calls'
  have hc := h.rest_eq_extract_append (k.forward_scan.reaches_of_ok hs)
  have hc' := h'.rest_eq_extract_append (k.forward_scan.reaches_of_ok hs')
  rw [hsame] at hc
  exact value_eq hk hs hs' hc hc'

/-- What holds of a reader at a cursor, whatever it is asked next. -/
structure Orderly (data : List UInt8) (c : Cursor) : Prop where
  total : c.offset + c.remaining = data.length
  /-- No calls in a row go back or leave the data. -/
  forward : ∀ calls, c.offset ≤ (c.after calls).offset ∧ (c.after calls).offset ≤ data.length
  truncated : ∀ (k : Call) e d, k.scan c = .error e d →
    ∃ offset, e = .truncated offset ∧ c.offset ≤ offset ∧ offset ≤ data.length
  block_stays : ∀ (k : Call) e d, k.isBlock → k.scan c = .error e d → d.offset = c.offset
  others_end : ∀ (k : Call) e d, ¬ k.isBlock → k.scan c = .error e d → d.offset = data.length
  settled : ∀ k : Call, k ≠ .peek → k.Settled data c
  /-- A peek takes nothing and yields the byte at the offset, if there is one. -/
  peek : Call.peek.scan c = .ok data[c.offset]? c
  /-- A block that is yielded lies within the data, and one that lies there is yielded. -/
  block : ∀ n bytes d, (Call.block n).scan c = .ok bytes d ↔ c.offset + n ≤ data.length ∧
    bytes = data.extract c.offset (c.offset + n) ∧
      d = ⟨c.offset + n, data.drop (c.offset + n)⟩

theorem orderly_of_reaches {data : List UInt8} {c : Cursor} (h : (Cursor.start data).Reaches c) :
    Orderly data c := by
  have htotal := h.offset_add_length
  constructor
  case total => exact htotal
  case forward =>
    intro calls
    have hmore := c.reaches_after calls
    have hbound := (h.trans hmore).offset_add_length
    exact ⟨hmore.offset_le, by omega⟩
  case truncated =>
    intro k e d he
    obtain ⟨offset, heq, hlow, hhigh⟩ := Call.exists_truncated he
    exact ⟨offset, heq, hlow, by omega⟩
  case block_stays =>
    intro k e d hk he
    rw [Call.eq_of_error hk he]
  case others_end =>
    intro k e d hk he
    rw [Call.usesUp_scan hk c e d he, Cursor.finish, htotal]
  case settled =>
    intro k hk
    exact Call.settled_of_ne_peek hk h
  case peek =>
    have hnext : c.peek = data[c.offset]? := by
      rw [Cursor.peek, h.rest_eq, List.head?_drop]
    rw [← hnext]
    rfl
  case block => exact block_eq_ok_iff h

/-- After any calls in a row, failed ones among them, a reader is still in order. -/
theorem orderly_after (data : List UInt8) (calls : List Call) :
    Orderly data ((Cursor.start data).after calls) :=
  orderly_of_reaches ((Cursor.start data).reaches_after calls)

/-- The first skip is too long and takes nothing. The second word is not there as a whole. -/
example : (Cursor.start [1, 2, 3]).after [.skip 4, .word] = ⟨2, [3]⟩ ∧
    (Cursor.start [1, 2, 3]).after [.skip 4, .word, .word] = ⟨3, []⟩ := by decide

/-- In front of a byte and at the end of the data a peek takes the same bytes, namely none. -/
theorem not_settled_peek :
    let data : List UInt8 := [0x41]
    let c := (Cursor.start data).after []
    let c' := (Cursor.start data).after [.peek, .advance]
    Call.peek.scan c = .ok (some 0x41) c ∧ Call.peek.scan c' = .ok none c' ∧
      data.extract c.offset c.offset = data.extract c'.offset c'.offset ∧
      ¬ Call.peek.Settled data c := by
  intro data c c'
  have hbyte : Call.peek.scan c = .ok (some 0x41) c := rfl
  have hend : Call.peek.scan c' = .ok none c' := rfl
  have hsame : data.extract c.offset c.offset = data.extract c'.offset c'.offset := rfl
  refine ⟨hbyte, hend, hsame, fun h => ?_⟩
  cases h _ _ hbyte data [.peek, .advance] _ _ hend hsame

end Scan

end VectorStream
