import Mathlib.Algebra.Group.Nat.Defs
import VectorStream.Proofs.Language

/-!
# Encodings of fields

The fields of a stream as they are written: numbers with the least significant byte first, points
as two coordinates, and counts in a form of one byte or of three. The scan of a field reads what the
encoding of the field writes. It can do so since the bytes of a field and the number they denote
determine each other.
-/
namespace VectorStream.LittleEndian

/-- Writing and reading keeps a number up to the size of the field. -/
theorem value_bytes (size n : Nat) : value (bytes size n) = n % 256 ^ size := by
  induction size generalizing n with
  | zero => simp [bytes, value, Nat.mod_one]
  | succ size ih =>
    have h : (UInt8.ofNat n).toNat = n % 256 := UInt8.toNat_ofNat'
    rw [bytes, value, ih, h, Nat.pow_succ', Nat.mod_mul]

theorem value_lt (field : List UInt8) : value field < 256 ^ field.length := by
  induction field with
  | nil => simp [value]
  | cons b rest ih =>
    have hb : b.toNat < 256 := b.toNat_lt
    rw [value, List.length_cons, Nat.pow_succ']
    omega

theorem value_append (low high : List UInt8) :
    value (low ++ high) = value low + 256 ^ low.length * value high := by
  induction low with
  | nil => simp [value]
  | cons b low ih =>
    rw [List.cons_append, value, value, ih, List.length_cons, Nat.pow_succ', Nat.mul_add,
      Nat.mul_assoc, Nat.add_assoc]

/-- Reading and writing keeps every field. -/
theorem bytes_value (field : List UInt8) : bytes field.length (value field) = field := by
  induction field with
  | nil => rfl
  | cons b rest ih =>
    have hb : b.toNat < 256 := b.toNat_lt
    have hlow : UInt8.ofNat (b.toNat + 256 * value rest) = b := by
      apply UInt8.toNat_inj.1
      rw [UInt8.toNat_ofNat']
      omega
    have hhigh : (b.toNat + 256 * value rest) / 256 = value rest := by omega
    rw [value, List.length_cons, bytes, hlow, hhigh, ih]

end VectorStream.LittleEndian

namespace VectorStream
open Text

namespace Width

/-- The word of a coordinate as a number, read without a sign. -/
def toWord : (w : Width) → w.Coord → Nat
  | short, c => (c : Int16).toUInt16.toNat
  | long, c => (c : Int32).toUInt32.toNat

def bytes (w : Width) (c : w.Coord) : List UInt8 := LittleEndian.bytes w.size (w.toWord c)

theorem ofWord_toWord (w : Width) (c : w.Coord) : w.ofWord (w.toWord c) = c := by
  cases w with
  | short =>
    change Int16.ofNat (Int16.toUInt16 c).toNat = c
    rw [← UInt16.toInt16_ofNat', UInt16.ofNat_toNat, Int16.toInt16_toUInt16]
  | long =>
    change Int32.ofNat (Int32.toUInt32 c).toNat = c
    rw [← UInt32.toInt32_ofNat', UInt32.ofNat_toNat, Int32.toInt32_toUInt32]

theorem toWord_lt (w : Width) (c : w.Coord) : w.toWord c < 256 ^ w.size := by
  cases w with
  | short => exact (Int16.toUInt16 c).toNat_lt
  | long => exact (Int32.toUInt32 c).toNat_lt

theorem toWord_ofWord (w : Width) {n : Nat} (h : n < 256 ^ w.size) : w.toWord (w.ofWord n) = n := by
  cases w with
  | short =>
    change (Int16.ofNat n).toUInt16.toNat = n
    rw [Int16.toUInt16_ofNat', UInt16.toNat_ofNat']
    exact Nat.mod_eq_of_lt h
  | long =>
    change (Int32.ofNat n).toUInt32.toNat = n
    rw [Int32.toUInt32_ofNat', UInt32.toNat_ofNat']
    exact Nat.mod_eq_of_lt h

instance (w : Width) : Nonempty w.Coord := ⟨w.ofWord 0⟩

end Width

def Point.bytes {w : Width} (p : Point w) : List UInt8 := w.bytes p.x ++ w.bytes p.y

instance (w : Width) : Nonempty (Point w) := ⟨⟨w.ofWord 0, w.ofWord 0⟩⟩

@[simp] theorem Point.length_bytes {w : Width} (p : Point w) : p.bytes.length = 2 * w.size := by
  simp [bytes, Width.bytes, Nat.two_mul]

/-- The bytes of a UTF-16 unit. -/
def unitBytes (unit : UInt16) : List UInt8 := LittleEndian.bytes 2 unit.toNat

@[simp] theorem length_unitBytes (unit : UInt16) : (unitBytes unit).length = 2 :=
  LittleEndian.length_bytes 2 unit.toNat

/-- Encodings of one length add up to a multiple of it. -/
theorem length_flatMap_bytes {α : Type} {bytes : α → List UInt8} {size : Nat}
    (h : ∀ a, (bytes a).length = size) (values : List α) :
    (values.flatMap bytes).length = values.length * size := by
  induction values with
  | nil => simp
  | cons a values ih =>
    rw [List.flatMap_cons, List.length_append, h, ih, List.length_cons, Nat.succ_mul, Nat.add_comm]

namespace Count

/-- The numbers that a count can announce. -/
def Legal (n : Nat) : Prop := 1 ≤ n ∧ n ≤ 65791

/-- A count below 256 is one byte. A larger one is a zero and the excess over 256 as a word. -/
def bytes (n : Nat) : List UInt8 :=
  if n < 256 then [UInt8.ofNat n] else 0 :: LittleEndian.bytes 2 (n - 256)

/-- What stands behind the first byte of a count. -/
def behind (first : UInt8) : Language Nat := fun n w =>
  if first = 0 then ∃ excess : UInt16, 256 + excess.toNat = n ∧ w = unitBytes excess
  else n = first.toNat ∧ w = []

theorem bytes_short {n : Nat} (h : n < 256) : bytes n = [UInt8.ofNat n] := if_pos h

theorem bytes_excess (excess : UInt16) : bytes (256 + excess.toNat) = 0 :: unitBytes excess := by
  rw [bytes, if_neg (by omega), Nat.add_sub_cancel_left, unitBytes]

theorem legal_of_behind {first : UInt8} {n : Nat} {v : List UInt8} (h : behind first n v) :
    Legal n ∧ bytes n = first :: v := by
  unfold behind at h
  split at h
  · rename_i h0
    obtain ⟨excess, rfl, rfl⟩ := h
    have hlt : excess.toNat < 65536 := excess.toNat_lt
    exact ⟨⟨by omega, by omega⟩, by rw [bytes_excess, h0]⟩
  · rename_i h0
    obtain ⟨rfl, rfl⟩ := h
    have hlt : first.toNat < 256 := first.toNat_lt
    have hpos : first.toNat ≠ 0 := fun k => h0 (UInt8.toNat_inj.1 k)
    exact ⟨⟨by omega, by omega⟩, by rw [bytes_short hlt, UInt8.ofNat_toNat]⟩

theorem behind_of_legal {n : Nat} (h : Legal n) : ∃ first v, behind first n v := by
  obtain ⟨hpos, hle⟩ := h
  by_cases hn : n < 256
  · have hto : (UInt8.ofNat n).toNat = n := by rw [UInt8.toNat_ofNat', Nat.mod_eq_of_lt hn]
    have h0 : UInt8.ofNat n ≠ 0 := by
      intro k
      rw [k] at hto
      have : (0 : UInt8).toNat = 0 := rfl
      omega
    refine ⟨UInt8.ofNat n, [], ?_⟩
    rw [behind, if_neg h0]
    exact ⟨hto.symm, rfl⟩
  · have hto : (UInt16.ofNat (n - 256)).toNat = n - 256 := by
      rw [UInt16.toNat_ofNat', Nat.mod_eq_of_lt (by omega)]
    refine ⟨0, unitBytes (UInt16.ofNat (n - 256)), ?_⟩
    rw [behind, if_pos rfl]
    exact ⟨UInt16.ofNat (n - 256), by omega, rfl⟩

theorem inhabited_behind (first : UInt8) : (behind first).Inhabited := by
  by_cases h0 : first = 0
  · exact ⟨256 + (0 : UInt16).toNat, unitBytes 0, by rw [behind, if_pos h0]; exact ⟨0, rfl, rfl⟩⟩
  · exact ⟨first.toNat, [], by rw [behind, if_neg h0]; exact ⟨rfl, rfl⟩⟩

end Count

namespace Scan
open VectorStream.Language

/-- A scan that takes a fixed number of bytes if there are so many. -/
theorem reads_of_take {s : Scan (List UInt8)} {size : Nat}
    (hok : ∀ c, size ≤ c.rest.length →
      s c = .ok (c.rest.take size) ⟨c.offset + size, c.rest.drop size⟩)
    (herror : ∀ c, c.rest.length < size → ∃ d, s c = .error (.truncated c.offset) d) :
    s.Reads fun bytes w => bytes.length = size ∧ w = bytes where
  accepts := by
    rintro bytes w ⟨rfl, rfl⟩ offset rest
    rw [hok ⟨offset, w ++ rest⟩ (by simp)]
    simp
  sound := by
    intro c bytes d h
    rcases Nat.lt_or_ge c.rest.length size with hc | hc
    · obtain ⟨d', hd⟩ := herror c hc
      rw [hd] at h
      cases h
    · rw [hok c hc] at h
      cases h
      exact ⟨_, ⟨length_take_eq.2 hc, rfl⟩, (List.take_append_drop size c.rest).symm⟩
  stuck := by
    intro c e d h
    rcases Nat.lt_or_ge c.rest.length size with hc | hc
    · obtain ⟨d', hd⟩ := herror c hc
      rw [hd] at h
      cases h
      refine iff_of_true rfl ⟨_, c.rest ++ List.replicate (size - c.rest.length) 0, ⟨?_, rfl⟩, ?_⟩
      · rw [List.length_append, List.length_replicate]
        omega
      · exact List.prefix_append _ _
    · rw [hok c hc] at h
      cases h

theorem reads_field (size : Nat) :
    (field size).Reads fun bytes w => bytes.length = size ∧ w = bytes :=
  reads_of_take (fun _ => field_of_le) fun c h => ⟨c.finish, field_of_lt h⟩

theorem reads_block (count : Nat) :
    (block count).Reads fun bytes w => bytes.length = count ∧ w = bytes :=
  reads_of_take (fun _ => block_of_le) fun c h => ⟨c, block_of_lt h⟩

theorem reads_skip (count : Nat) : (skip count).Reads fun _ w => w.length = count := by
  apply ((reads_block count).map fun _ => ()).congr
  intro _ w
  constructor
  · rintro ⟨bytes, -, hb, rfl⟩
    exact hb
  · intro hw
    exact ⟨w, rfl, hw, rfl⟩

theorem reads_unsigned (size : Nat) :
    (unsigned size).Reads fun n w => n < 256 ^ size ∧ w = LittleEndian.bytes size n := by
  apply ((reads_field size).map LittleEndian.value).congr
  intro n w
  constructor
  · rintro ⟨bytes, rfl, rfl, rfl⟩
    exact ⟨LittleEndian.value_lt w, (LittleEndian.bytes_value w).symm⟩
  · rintro ⟨hn, rfl⟩
    refine ⟨_, ?_, LittleEndian.length_bytes size n, rfl⟩
    rw [LittleEndian.value_bytes, Nat.mod_eq_of_lt hn]

/-- Values that correspond to the numbers of a field are encoded as these numbers. -/
theorem reads_number {α : Type} (size : Nat) {ofNat : Nat → α} {toNat : α → Nat}
    (hof : ∀ a, ofNat (toNat a) = a) (hlt : ∀ a, toNat a < 256 ^ size)
    (hto : ∀ {n}, n < 256 ^ size → toNat (ofNat n) = n) :
    (unsigned size >>= fun n => pure (ofNat n)).Reads
      (encoded fun a => LittleEndian.bytes size (toNat a)) := by
  apply ((reads_unsigned size).map ofNat).congr
  intro a w
  constructor
  · rintro ⟨n, rfl, hn, rfl⟩
    rw [encoded, hto hn]
  · intro hw
    exact ⟨toNat a, hof a, hlt a, hw⟩

theorem reads_byte : byte.Reads (encoded fun b => [b]) := by
  have h := reads_number 1 (fun b => UInt8.ofNat_toNat) UInt8.toNat_lt fun hn => by
    rw [UInt8.toNat_ofNat']
    exact Nat.mod_eq_of_lt hn
  apply h.congr
  intro b w
  simp [encoded, LittleEndian.bytes]

theorem reads_word : word.Reads (encoded unitBytes) :=
  reads_number 2 (fun _ => UInt16.ofNat_toNat) UInt16.toNat_lt fun hn => by
    rw [UInt16.toNat_ofNat']
    exact Nat.mod_eq_of_lt hn

theorem reads_coord (w : Width) : (coord w).Reads (encoded w.bytes) :=
  reads_number w.size w.ofWord_toWord w.toWord_lt w.toWord_ofWord

theorem reads_point (w : Width) : (point w).Reads (encoded Point.bytes) := by
  have h := (reads_coord w).bind
    (fun x => (reads_coord w).map fun y => (⟨x, y⟩ : Point w))
    fun x _ _ => ⟨⟨x, w.ofWord 0⟩, _, _, rfl, rfl⟩
  apply h.congr
  intro p bytes
  constructor
  · rintro ⟨x, u, v, rfl, ⟨y, rfl, rfl⟩, rfl⟩
    rfl
  · intro hp
    exact ⟨p.x, _, _, rfl, ⟨p.y, rfl, rfl⟩, hp⟩

theorem reads_behind (first : UInt8) :
    Reads (if first = 0 then word >>= fun e => pure (256 + e.toNat) else pure first.toNat)
      (Count.behind first) := by
  by_cases h0 : first = 0
  · rw [if_pos h0]
    apply (reads_word.map fun e => 256 + e.toNat).congr
    intro n w
    rw [Count.behind, if_pos h0]
    rfl
  · rw [if_neg h0]
    apply (Reads.pure first.toNat).congr
    intro n w
    rw [Count.behind, if_neg h0]
    rfl

theorem reads_count : count.Reads fun n w => Count.Legal n ∧ w = Count.bytes n := by
  have h := reads_byte.bind reads_behind fun first _ _ => Count.inhabited_behind first
  apply h.congr
  intro n w
  constructor
  · rintro ⟨first, u, v, rfl, hv, rfl⟩
    obtain ⟨hn, hb⟩ := Count.legal_of_behind hv
    exact ⟨hn, hb.symm⟩
  · rintro ⟨hn, rfl⟩
    obtain ⟨first, v, hv⟩ := Count.behind_of_legal hn
    exact ⟨first, _, v, rfl, hv, (Count.legal_of_behind hv).2⟩

/-- Behind the values read so far come the words of as many values as the counter says. -/
theorem reads_timesFrom {α : Type} [Nonempty α] {scan : Scan α} {bytes : α → List UInt8}
    (h : scan.Reads (encoded bytes)) (read : List α) (n : Nat) :
    (timesFrom scan read n).Reads fun values w =>
      ∃ behind, values = read.reverse ++ behind ∧ behind.length = n ∧ w = behind.flatMap bytes := by
  induction n generalizing read with
  | zero =>
    apply (Reads.pure read.reverse).congr
    intro values w
    constructor
    · rintro ⟨rfl, rfl⟩
      exact ⟨[], by simp⟩
    · rintro ⟨behind, rfl, hn, rfl⟩
      rw [List.eq_nil_of_length_eq_zero hn]
      exact ⟨by simp, rfl⟩
  | succ n ih =>
    obtain ⟨b⟩ := ‹Nonempty α›
    have hbind := h.bind (fun a => ih (a :: read)) fun a _ _ =>
      ⟨_, _, List.replicate n b, rfl, List.length_replicate, rfl⟩
    apply hbind.congr
    intro values w
    constructor
    · rintro ⟨a, u, v, rfl, ⟨behind, rfl, rfl, rfl⟩, rfl⟩
      exact ⟨a :: behind, by simp⟩
    · rintro ⟨behind, rfl, hn, rfl⟩
      obtain ⟨a, rest, rfl, hr⟩ := List.exists_cons_of_length_eq_add_one hn
      exact ⟨a, _, _, rfl, ⟨rest, by simp, by simpa using hn, rfl⟩, rfl⟩

theorem reads_times {α : Type} [Nonempty α] {scan : Scan α} {bytes : α → List UInt8}
    (h : scan.Reads (encoded bytes)) (n : Nat) :
    (times n scan).Reads fun values w => values.length = n ∧ w = values.flatMap bytes := by
  apply (reads_timesFrom h [] n).congr
  intro values w
  simp

theorem reads_points (w : Width) (n : Nat) :
    (points w n).Reads fun ps bytes => ps.length = n ∧ bytes = ps.flatMap Point.bytes :=
  reads_times (reads_point w) n

theorem reads_text (n : Nat) :
    (text n).Reads fun content w => ∃ units : List UInt16,
      Utf16.decodeLossy units = content ∧ units.length = n ∧ w = units.flatMap unitBytes :=
  (reads_times reads_word n).map Utf16.decodeLossy

end Scan

end VectorStream
