import VectorStream.Proofs.Lockstep
import VectorStream.Render.Pass

/-!
# Widening

The forms of shapes and triangles exist with short and with long coordinates. A payload in short
coordinates becomes one in long coordinates when the sign of each is repeated in two more bytes,
and the long form reads from it the opcode with the widened points. A pass makes no difference
between an opcode and the same opcode in long points.
-/
namespace VectorStream

namespace Width

/-- The byte that repeats the sign of a coordinate with the given high byte. -/
def signByte (high : UInt8) : UInt8 := if high < 0x80 then 0x00 else 0xFF

/-- Short coordinates in a row as long ones. Two bytes with its sign follow the two of each. -/
def extendBytes : List UInt8 → List UInt8
  | low :: high :: rest => low :: high :: signByte high :: signByte high :: extendBytes rest
  | _ => []

/-- The word of an extended coordinate has ones above a negative sign and zeros above others. -/
theorem toWord_extend (c : Int16) :
    long.toWord (short.extend c) =
      short.toWord c + if short.toWord c < 0x8000 then 0 else 0xFFFF0000 := by
  change (c.toBitVec.signExtend 32).toNat =
    c.toBitVec.toNat + if c.toBitVec.toNat < 0x8000 then 0 else 0xFFFF0000
  have hlt : c.toBitVec.toNat < 2 ^ 16 := c.toBitVec.isLt
  rw [BitVec.toNat_signExtend, BitVec.toNat_setWidth, BitVec.msb_eq_decide]
  simp only [decide_eq_true_eq]
  split <;> split <;> omega

theorem signByte_eq {n : Nat} (h : n < 0x10000) :
    signByte (UInt8.ofNat (n / 256)) = if n < 0x8000 then 0x00 else 0xFF := by
  have hhigh : UInt8.ofNat (n / 256) < 0x80 ↔ n < 0x8000 := by
    rw [UInt8.lt_iff_toNat_lt, UInt8.toNat_ofNat']
    change n / 256 % 2 ^ 8 < 128 ↔ _
    omega
  simp only [signByte, hhigh]

theorem extendBytes_append (c : Int16) (rest : List UInt8) :
    extendBytes (short.bytes c ++ rest) = long.bytes (short.extend c) ++ extendBytes rest := by
  have hlt : short.toWord c < 0x10000 := short.toWord_lt c
  have hsign := signByte_eq hlt
  have hword := toWord_extend c
  simp only [bytes, size, LittleEndian.bytes, List.cons_append, List.nil_append, extendBytes]
  generalize long.toWord (short.extend c) = m, short.toWord c = n at hlt hsign hword ⊢
  have hbyte (a b : Nat) (h : a % 256 = b % 256) : UInt8.ofNat a = UInt8.ofNat b :=
    UInt8.toNat_inj.1 (by rw [UInt8.toNat_ofNat', UInt8.toNat_ofNat']; exact h)
  rw [hsign]
  split at hword
  · rw [if_pos ‹_›, hbyte m n (by omega), hbyte (m / 256) (n / 256) (by omega),
      hbyte (m / 256 / 256) 0 (by omega), hbyte (m / 256 / 256 / 256) 0 (by omega)]
    rfl
  · rw [if_neg ‹_›, hbyte m n (by omega), hbyte (m / 256) (n / 256) (by omega),
      hbyte (m / 256 / 256) 255 (by omega), hbyte (m / 256 / 256 / 256) 255 (by omega)]
    rfl

theorem length_extendBytes (payload : List UInt8) :
    (extendBytes payload).length = payload.length / 2 * 4 := by
  fun_induction extendBytes payload with
  | case1 low high rest ih =>
    simp only [List.length_cons, ih]
    omega
  | case2 payload h =>
    have hlt : payload.length < 2 := by
      rcases payload with _ | ⟨low, _ | ⟨high, rest⟩⟩
      · simp
      · simp
      · exact absurd rfl (h low high rest)
    rw [Nat.div_eq_of_lt hlt]
    rfl

end Width

namespace Point
open Width

theorem extendBytes_append (p : Point .short) (rest : List UInt8) :
    extendBytes (p.bytes ++ rest) = p.widen.bytes ++ extendBytes rest := by
  rw [bytes, List.append_assoc, Width.extendBytes_append, Width.extendBytes_append,
    ← List.append_assoc]
  rfl

theorem extendBytes_flatMap (ps : List (Point .short)) :
    extendBytes (ps.flatMap bytes) = (ps.map widen).flatMap bytes := by
  induction ps with
  | nil => rfl
  | cons p ps ih => rw [List.flatMap_cons, extendBytes_append, ih, List.map_cons, List.flatMap_cons]

end Point

namespace Count

/-- The number of bytes that the count at the front takes. -/
def sizeAt (payload : List UInt8) : Nat := if payload.head? = some 0 then 3 else 1

theorem sizeAt_append {n : Nat} (h : Legal n) (rest : List UInt8) :
    sizeAt (bytes n ++ rest) = (bytes n).length := by
  obtain ⟨first, behind, hfirst⟩ := behind_of_legal h
  obtain ⟨-, hbytes⟩ := legal_of_behind hfirst
  by_cases h0 : first = 0
  · rw [Count.behind, if_pos h0] at hfirst
    obtain ⟨excess, -, rfl⟩ := hfirst
    simp [sizeAt, hbytes, h0, unitBytes]
  · rw [Count.behind, if_neg h0] at hfirst
    obtain ⟨-, rfl⟩ := hfirst
    simp [sizeAt, hbytes, h0]

end Count

/-- What is given by points of either width. -/
inductive Figure where
  | line
  | polyline
  | markers
  | triangles

namespace Figure

def form : Figure → Width → Form
  | line => .line
  | polyline => .polyline
  | markers => .markers
  | triangles => .triangles

/-- The id under which the standard dialect has the form. -/
def id : Figure → Width → UInt8
  | line, .short => 0x6C
  | line, .long => 0x0C
  | polyline, .short => 0x70
  | polyline, .long => 0x10
  | markers, .short => 0x8D
  | markers, .long => 0x0D
  | triangles, .short => 0x14
  | triangles, .long => 0x74

/-- A payload in short coordinates as one in long coordinates. A count in front of the points
stays as it is. -/
def extendPayload : Figure → List UInt8 → List UInt8
  | line, payload => Width.extendBytes payload
  | _, payload =>
    let size := Count.sizeAt payload
    payload.take size ++ Width.extendBytes (payload.drop size)

theorem mem_standardForms (figure : Figure) (w : Width) :
    (figure.id w, figure.form w) ∈ Dialect.standardForms := by
  cases figure <;> cases w <;> decide

theorem form_ne_extended (figure : Figure) (w : Width) : figure.form w ≠ .extended := by
  cases figure <;> exact Form.noConfusion

theorem extendPayload_append {figure : Figure} (hfigure : figure ≠ line) {n : Nat}
    (hn : Count.Legal n) (rest : List UInt8) :
    figure.extendPayload (Count.bytes n ++ rest) = Count.bytes n ++ Width.extendBytes rest := by
  cases figure with
  | line => exact absurd rfl hfigure
  | _ => simp only [extendPayload, Count.sizeAt_append hn, List.take_left, List.drop_left]

theorem extendPayload_points {figure : Figure} (hfigure : figure ≠ line)
    {ps : List (Point .short)} (h : Count.Legal ps.length) :
    figure.extendPayload (Count.bytes ps.length ++ ps.flatMap Point.bytes) =
      Count.bytes (ps.map Point.widen).length ++ (ps.map Point.widen).flatMap Point.bytes := by
  rw [extendPayload_append hfigure h, Point.extendBytes_flatMap, List.length_map]

end Figure

/-- The opcode that the long form makes of a payload in place of the one of the short form. -/
def Opcode.lengthen : Opcode → Opcode
  | unsupported id =>
    .unsupported (if id = Form.trianglesId .short then Form.trianglesId .long else id)
  | op => op.widen

/-- A word of a short form in long coordinates is a word of the long form. -/
theorem Figure.spells_extendPayload (figure : Figure) {op : Opcode} {word : List UInt8}
    (h : (figure.form .short).Spells op word) :
    (figure.form .long).Spells op.lengthen (figure.extendPayload word) := by
  cases figure with
  | line =>
    cases h with
    | line a b =>
      have hword : line.extendPayload (a.bytes ++ b.bytes) = a.widen.bytes ++ b.widen.bytes := by
        rw [extendPayload, Point.extendBytes_append, ← List.append_nil b.bytes,
          Point.extendBytes_append]
        simp [Width.extendBytes]
      rw [hword]
      exact .line a.widen b.widen
  | polyline =>
    cases h with
    | polyline ps h =>
      rw [extendPayload_points Figure.noConfusion h]
      exact .polyline (ps.map Point.widen) (by rwa [List.length_map])
  | markers =>
    cases h with
    | markers ps h =>
      rw [extendPayload_points Figure.noConfusion h]
      exact .markers (ps.map Point.widen) (by rwa [List.length_map])
  | triangles =>
    cases h with
    | triangles n h vertices hv =>
      rw [extendPayload_append Figure.noConfusion h]
      exact .triangles n h _ (by rw [Width.length_extendBytes, hv]; simp [Width.size]; omega)

theorem Figure.read_extendPayload (figure : Figure) {keywords : Keywords} {offset : Nat}
    {payload rest : List UInt8} {op : Opcode}
    (h : (figure.form .short).read keywords ⟨offset, payload ++ rest⟩ =
      .ok op ⟨offset + payload.length, rest⟩)
    (keywords' : Keywords) (offset' : Nat) (rest' : List UInt8) :
    (figure.form .long).read keywords' ⟨offset', figure.extendPayload payload ++ rest'⟩ =
      .ok op.lengthen ⟨offset' + (figure.extendPayload payload).length, rest'⟩ := by
  rw [Form.read_congr (figure.form_ne_extended _) keywords .standard] at h
  obtain ⟨word, hword, hrest⟩ := (Form.reads_read _).sound h
  obtain rfl := List.append_cancel_right hrest
  rw [Form.read_congr (figure.form_ne_extended _) keywords' .standard]
  exact (Form.reads_read _).accepts (figure.spells_extendPayload hword) offset' rest'

theorem Mode.walk_map_widen {w : Width} (mode : Mode) (base : Point .long)
    (points : List (Point w)) : mode.walk base (points.map Point.widen) = mode.walk base points := by
  induction points generalizing base with
  | nil => rfl
  | cons p points ih =>
    have hplace : mode.place base p.widen = mode.place base p := by cases mode <;> rfl
    rw [List.map_cons, walk_cons, walk_cons, hplace, ih]

theorem Shape.walk_widen {w : Width} (mode : Mode) (base : Point .long) (s : Shape w) :
    s.widen.walk mode base = s.walk mode base := by
  cases s with
  | line a b => cases mode <;> rfl
  | polyline ps => exact congrArg polyline (mode.walk_map_widen base ps)
  | markers ps => exact congrArg markers (mode.walk_map_widen base ps)

namespace Render

theorem State.step_widen (s : State) (op : Opcode) : s.step op.widen = s.step op := by
  cases op with
  | shape w shape =>
    simp only [Opcode.widen, step, resolveShape, Opcode.mode_shape, Shape.walk_widen]
  | _ => rfl

theorem Stats.count_widen (s : Stats) (op : Opcode) : s.count op.widen = s.count op := by
  cases op <;> rfl

theorem Diagnostic.ofOpcode?_widen (ignored : List String) (index : Nat) (op : Opcode) :
    ofOpcode? ignored index op.widen = ofOpcode? ignored index op := by
  cases op <;> rfl

namespace Pass
variable {σ : Type}

theorem process_widen (p : Pass σ) (op : Opcode) : p.process op.widen = p.process op := by
  rw [process, process, State.step_widen, Stats.count_widen, Diagnostic.ofOpcode?_widen]

/-- A pass over opcodes in long points ends as the one over the opcodes as they are. -/
theorem execute_widen (p : Pass σ) (ops : List Opcode) :
    p.execute (ops.map Opcode.widen) = p.execute ops := by
  induction ops generalizing p with
  | nil => rfl
  | cons op ops ih =>
    calc p.execute ((op :: ops).map Opcode.widen)
        = (p.process op.widen).execute (ops.map Opcode.widen) := rfl
      _ = (p.process op).execute ops := by rw [process_widen, ih]

end Pass

end Render

/-- The two widths agree. What a short form reads from a payload, the long form reads from the same
payload in long coordinates, in long points and up to its end. And a pass over opcodes in long
points has the same effects on its device, the same state and the same reports and counters. -/
theorem widths_agree {σ : Type} :
    (∀ figure : Figure, ∃ short long,
      Dialect.standard.layout? (figure.id .short) = some short ∧
      Dialect.standard.layout? (figure.id .long) = some long ∧
      ∀ (keywords keywords' : Keywords) (offset offset' : Nat) (payload rest rest' : List UInt8)
        (op : Opcode),
        short.read keywords ⟨offset, payload ++ rest⟩ = .ok op ⟨offset + payload.length, rest⟩ →
        long.read keywords' ⟨offset', figure.extendPayload payload ++ rest'⟩ =
          .ok op.lengthen ⟨offset' + (figure.extendPayload payload).length, rest'⟩) ∧
    ∀ (p : Render.Pass σ) (ops : List Opcode), p.execute (ops.map Opcode.widen) = p.execute ops := by
  constructor
  · intro figure
    have hlayout (w : Width) := Dialect.layout?_standard.2 ⟨_, figure.mem_standardForms w, rfl⟩
    refine ⟨_, _, hlayout .short, hlayout .long, ?_⟩
    intro keywords keywords' offset offset' payload rest rest' op h
    exact figure.read_extendPayload h keywords' offset' rest'
  · exact Render.Pass.execute_widen

/-- A chain with a negative coordinate in both widths. -/
theorem widths_agree_negative :
    let short : List UInt8 := [1, 0xFE, 0xFF, 5, 0]
    let long : List UInt8 := [1, 0xFE, 0xFF, 0xFF, 0xFF, 5, 0, 0, 0]
    let p : Point .short := ⟨(-2 : Int16), (5 : Int16)⟩
    let q : Point .long := ⟨(-2 : Int32), (5 : Int32)⟩
    (Form.polyline .short).read .empty ⟨0, short ++ []⟩ =
      .ok (.shape .short (.polyline [p])) ⟨0 + short.length, []⟩ ∧
    (Form.polyline .long).read .empty ⟨0, long ++ []⟩ =
      .ok (.shape .long (.polyline [q])) ⟨0 + long.length, []⟩ := by
  intro short long p q
  have hshort : (Form.polyline .short).read .empty ⟨0, short ++ []⟩ =
      .ok (.shape .short (.polyline [p])) ⟨0 + short.length, []⟩ := rfl
  obtain ⟨l, m, hl, hm, hread⟩ := (widths_agree (σ := Unit)).1 .polyline
  obtain rfl := Option.some.inj hl
  obtain rfl := Option.some.inj hm
  exact ⟨hshort, hread .empty .empty 0 0 short [] [] _ hshort⟩

end VectorStream
