import VectorStream.Cursor
import VectorStream.Point
import VectorStream.StreamError
import VectorStream.Text.Utf16

/-!
# Scanning

A scan reads fields at a cursor. It ends with a value or an error, and with a cursor in both cases.
A field of fixed width that does not fit uses up the data; a block of bytes that does not fit
leaves the cursor where it was. No scan of this module moves backward (`Forward`). The bytes of a
field denote a number, the least significant byte first.
-/
namespace VectorStream.LittleEndian

def value : List UInt8 → Nat
  | [] => 0
  | b :: rest => b.toNat + 256 * value rest

/-- The lowest bytes of a number, as many as `size` says. -/
def bytes : Nat → Nat → List UInt8
  | 0, _ => []
  | size + 1, n => UInt8.ofNat n :: bytes size (n / 256)

@[simp] theorem length_bytes (size n : Nat) : (bytes size n).length = size := by
  induction size generalizing n with
  | zero => rfl
  | succ size ih => simp [bytes, ih]

end VectorStream.LittleEndian

namespace VectorStream
open Text

abbrev Scan := EStateM StreamError Cursor

namespace Scan

/-- The bytes of a field of fixed width. -/
def field (size : Nat) : Scan (List UInt8) := fun c =>
  if (c.rest.take size).length = size then
    .ok (c.rest.take size) ⟨c.offset + size, c.rest.drop size⟩
  else .error (.truncated c.offset) c.finish

/-- A block of `count` bytes. -/
def block (count : Nat) : Scan (List UInt8) := fun c =>
  if (c.rest.take count).length = count then
    .ok (c.rest.take count) ⟨c.offset + count, c.rest.drop count⟩
  else .error (.truncated c.offset) c

def skip (count : Nat) : Scan Unit := do
  let _ ← block count

def unsigned (size : Nat) : Scan Nat := do
  return LittleEndian.value (← field size)

def byte : Scan UInt8 := do
  return UInt8.ofNat (← unsigned 1)

def word : Scan UInt16 := do
  return UInt16.ofNat (← unsigned 2)

def coord (w : Width) : Scan w.Coord := do
  return w.ofWord (← unsigned w.size)

def point (w : Width) : Scan (Point w) := do
  let x ← coord w
  let y ← coord w
  return ⟨x, y⟩

/-- A count is one byte; zero announces a word that is added to 256. -/
def count : Scan Nat := do
  let c ← byte
  if c = 0 then return 256 + (← word).toNat
  else return c.toNat

def timesFrom {α : Type} (scan : Scan α) (read : List α) : Nat → Scan (List α)
  | 0 => return read.reverse
  | n + 1 => do
    let a ← scan
    timesFrom scan (a :: read) n

/-- The same scan a number of times. -/
def times {α : Type} (n : Nat) (scan : Scan α) : Scan (List α) := timesFrom scan [] n

def points (w : Width) (n : Nat) : Scan (List (Point w)) := times n (point w)

/-- A text of `n` UTF-16 units. -/
def text (n : Nat) : Scan String := do
  return Utf16.decodeLossy (← times n word)

/-- The longest run of bytes in a class. -/
def takeWhile (p : UInt8 → Bool) : Scan (List UInt8) := fun c =>
  .ok (c.rest.takeWhile p) (c.skipWhile p)

/-- A scan that never moves its cursor backward. -/
def Forward {α : Type} (s : Scan α) : Prop :=
  ∀ c, match s c with
    | .ok _ d => c.Reaches d
    | .error _ d => c.Reaches d

namespace Forward
variable {α β : Type}

theorem reaches_of_ok {s : Scan α} (hs : Forward s) {c d : Cursor} {a : α}
    (h : s c = .ok a d) : c.Reaches d := by
  have hc := hs c
  rw [h] at hc
  exact hc

theorem reaches_of_error {s : Scan α} (hs : Forward s) {c d : Cursor} {e : StreamError}
    (h : s c = .error e d) : c.Reaches d := by
  have hc := hs c
  rw [h] at hc
  exact hc

theorem pure (a : α) : Forward (Pure.pure a : Scan α) := fun c => .refl c

theorem throw (e : StreamError) : Forward (throw e : Scan α) := fun c => .refl c

theorem get : Forward (get : Scan Cursor) := fun c => .refl c

theorem modify {f : Cursor → Cursor} (h : ∀ c : Cursor, c.Reaches (f c)) :
    Forward (modify f : Scan PUnit) := h

theorem bind {s : Scan α} {f : α → Scan β} (hs : Forward s) (hf : ∀ a, Forward (f a)) :
    Forward (s >>= f) := by
  intro c
  have h := hs c
  change match EStateM.bind s f c with
    | .ok _ d => c.Reaches d
    | .error _ d => c.Reaches d
  unfold EStateM.bind
  cases hc : s c with
  | ok a d =>
    rw [hc] at h
    have k := hf a d
    simp only
    cases hd : f a d with
    | ok b e => rw [hd] at k; exact h.trans k
    | error e e' => rw [hd] at k; exact h.trans k
  | error e d => rw [hc] at h; exact h

theorem map {s : Scan α} (hs : Forward s) (f : α → β) : Forward (f <$> s) :=
  bind hs fun a => pure (f a)

theorem ite {p : Prop} [Decidable p] {s t : Scan α} (hs : Forward s) (ht : Forward t) :
    Forward (if p then s else t) := by
  split <;> assumption

end Forward

theorem length_take_eq {bytes : List UInt8} {n : Nat} :
    (bytes.take n).length = n ↔ n ≤ bytes.length := by
  rw [List.length_take]
  omega

theorem field_of_le {size : Nat} {c : Cursor} (h : size ≤ c.rest.length) :
    field size c = .ok (c.rest.take size) ⟨c.offset + size, c.rest.drop size⟩ :=
  if_pos (length_take_eq.2 h)

theorem field_of_lt {size : Nat} {c : Cursor} (h : c.rest.length < size) :
    field size c = .error (.truncated c.offset) c.finish :=
  if_neg fun k => Nat.not_le.2 h (length_take_eq.1 k)

theorem block_of_le {count : Nat} {c : Cursor} (h : count ≤ c.rest.length) :
    block count c = .ok (c.rest.take count) ⟨c.offset + count, c.rest.drop count⟩ :=
  if_pos (length_take_eq.2 h)

theorem block_of_lt {count : Nat} {c : Cursor} (h : c.rest.length < count) :
    block count c = .error (.truncated c.offset) c :=
  if_neg fun k => Nat.not_le.2 h (length_take_eq.1 k)

theorem forward_field (size : Nat) : Forward (field size) := by
  intro c
  rcases Nat.lt_or_ge c.rest.length size with h | h
  · rw [field_of_lt h]
    exact c.reaches_finish
  · rw [field_of_le h]
    exact c.reaches_drop h

theorem forward_block (count : Nat) : Forward (block count) := by
  intro c
  rcases Nat.lt_or_ge c.rest.length count with h | h
  · rw [block_of_lt h]
    exact .refl c
  · rw [block_of_le h]
    exact c.reaches_drop h

theorem forward_skip (count : Nat) : Forward (skip count) :=
  .bind (forward_block count) fun _ => .pure _

theorem forward_unsigned (size : Nat) : Forward (unsigned size) :=
  .bind (forward_field size) fun _ => .pure _

theorem forward_byte : Forward byte := .bind (forward_unsigned 1) fun _ => .pure _

theorem forward_word : Forward word := .bind (forward_unsigned 2) fun _ => .pure _

theorem forward_coord (w : Width) : Forward (coord w) :=
  .bind (forward_unsigned w.size) fun _ => .pure _

theorem forward_point (w : Width) : Forward (point w) :=
  .bind (forward_coord w) fun _ => .bind (forward_coord w) fun _ => .pure _

theorem forward_count : Forward count :=
  .bind forward_byte fun _ => .ite (.bind forward_word fun _ => .pure _) (.pure _)

theorem forward_timesFrom {α : Type} {scan : Scan α} (h : Forward scan) (read : List α) (n : Nat) :
    Forward (timesFrom scan read n) := by
  induction n generalizing read with
  | zero => exact .pure _
  | succ n ih => exact .bind h fun a => ih (a :: read)

theorem forward_times {α : Type} {scan : Scan α} (h : Forward scan) (n : Nat) :
    Forward (times n scan) :=
  forward_timesFrom h [] n

theorem forward_points (w : Width) (n : Nat) : Forward (points w n) :=
  forward_times (forward_point w) n

theorem forward_text (n : Nat) : Forward (text n) :=
  .bind (forward_times forward_word n) fun _ => .pure _

theorem forward_takeWhile (p : UInt8 → Bool) : Forward (takeWhile p) :=
  fun c => c.reaches_skipWhile p

end Scan

end VectorStream
