import VectorStream.Proofs.Grammar
import VectorStream.Proofs.Trimming

/-!
# Balanced payloads

A grammar says which payloads are balanced, with parentheses inside one another and quotes that hide
what stands in them. The payload of an extended opcode is the balanced one that the next byte
closes. A keyword is handed this payload without the blanks at its ends.
-/
namespace VectorStream
open Text

namespace Payload
open Nesting

/-- The language of payloads. A quote goes up to the next byte of its own kind. -/
inductive Balanced : List UInt8 → Prop
  | nil : Balanced []
  | plain {b : UInt8} {w : List UInt8} (hq : ¬ isQuote b) (ho : b ≠ opening) (hc : b ≠ closing)
    (hw : Balanced w) : Balanced (b :: w)
  | quoted {q : UInt8} {u w : List UInt8} (hq : isQuote q) (hu : q ∉ u) (hw : Balanced w) :
    Balanced (q :: (u ++ q :: w))
  | nested {u w : List UInt8} (hu : Balanced u) (hw : Balanced w) :
    Balanced (opening :: (u ++ closing :: w))

variable {n : Nesting} {depth : Nat} {b q : UInt8} {p u v w bytes behind : List UInt8}

theorem Balanced.of_plain (h : ∀ b ∈ p, ¬ isQuote b ∧ b ≠ opening ∧ b ≠ closing) :
    Balanced p := by
  induction p with
  | nil => exact .nil
  | cons b p ih =>
    rw [List.forall_mem_cons] at h
    exact .plain h.1.1 h.1.2.1 h.1.2.2 (ih h.2)

namespace Nesting

/-- Inside a quote nothing but the same quote makes a difference. -/
theorem after_quoted (hq : q ∉ u) : after ⟨depth, some q⟩ u = ⟨depth, some q⟩ := by
  induction u with
  | nil => rfl
  | cons b u ih =>
    rw [List.mem_cons, not_or] at hq
    obtain ⟨hb, hu⟩ := hq
    rw [after_cons, step, if_neg (Ne.symm hb), ih hu]

theorem staysOpen_quoted (hq : q ∉ u) : StaysOpen ⟨depth, some q⟩ u := by
  intro x y hxy
  have hx : q ∉ x := fun k => hq (hxy ▸ List.mem_append_left _ k)
  rw [after_quoted hx]
  simp [outermost]

end Nesting

/-- Balanced bytes leave open what is open in front of them, and close nothing of it. -/
theorem Balanced.neutral (h : Balanced p) (depth : Nat) :
    StaysOpen ⟨depth, none⟩ p ∧ after ⟨depth, none⟩ p = ⟨depth, none⟩ := by
  induction h generalizing depth with
  | nil => exact ⟨staysOpen_nil, rfl⟩
  | @plain b w hq ho hc hw ih =>
    have hstep : step ⟨depth, none⟩ b = ⟨depth, none⟩ := by simp [step, hq, ho, hc]
    rw [staysOpen_cons, after_cons, hstep]
    exact ⟨⟨fun _ => hc, (ih depth).1⟩, (ih depth).2⟩
  | @quoted q u w hq hu hw ih =>
    have hopen : step ⟨depth, none⟩ q = ⟨depth, some q⟩ := by simp [step, hq]
    have hclose : step ⟨depth, some q⟩ q = ⟨depth, none⟩ := by simp [step]
    have hne : q ≠ closing := by
      rintro rfl
      simp at hq
    rw [staysOpen_cons, after_cons, hopen, staysOpen_append, after_append, after_quoted hu,
      staysOpen_cons, after_cons, hclose]
    exact ⟨⟨fun _ => hne, staysOpen_quoted hu, fun _ => hne, (ih depth).1⟩, (ih depth).2⟩
  | @nested u w hu hw ihu ihw =>
    have hopen : step ⟨depth, none⟩ opening = ⟨depth + 1, none⟩ := by simp [step]
    have hdeep : (⟨depth + 1, none⟩ : Nesting) ≠ outermost := by simp [outermost]
    rw [staysOpen_cons, after_cons, hopen, staysOpen_append, after_append, (ihu _).2,
      staysOpen_cons, after_cons, step_closing, Nat.add_sub_cancel]
    exact ⟨⟨fun _ => closing_ne_opening.symm, (ihu _).1, fun k => absurd k hdeep, (ihw depth).1⟩,
      (ihw depth).2⟩

/-- Bytes that close a number of open parentheses, with balanced bytes around each of these. -/
def Layered : Nat → List UInt8 → Prop
  | 0, w => Balanced w
  | depth + 1, w => ∃ u v, Balanced u ∧ Layered depth v ∧ w = u ++ closing :: v

namespace Layered

/-- What can stand in front of balanced bytes can stand in front of layered ones. -/
theorem append (hp : ∀ w, Balanced w → Balanced (p ++ w)) (h : Layered depth w) :
    Layered depth (p ++ w) := by
  cases depth with
  | zero => exact hp w h
  | succ depth =>
    obtain ⟨u, v, hu, hv, rfl⟩ := h
    exact ⟨p ++ u, v, hp u hu, hv, (List.append_assoc p u _).symm⟩

theorem quoted (hq : isQuote q) (hu : q ∉ u) (h : Layered depth w) :
    Layered depth (q :: (u ++ q :: w)) := by
  have hfront (w : List UInt8) (hw : Balanced w) : Balanced (q :: (u ++ [q]) ++ w) := by
    simpa using hw.quoted hq hu
  simpa using h.append hfront

theorem nested (hu : Balanced u) (h : Layered depth w) :
    Layered depth (opening :: (u ++ closing :: w)) := by
  have hfront (w : List UInt8) (hw : Balanced w) :
      Balanced (opening :: (u ++ [closing]) ++ w) := by
    simpa using hu.nested hw
  simpa using h.append hfront

end Layered

namespace Nesting

/-- The bytes close everything that is open, first the quote if there is one. -/
def Closed (n : Nesting) (bytes : List UInt8) : Prop :=
  match n.quote with
  | none => Layered n.depth bytes
  | some q => ∃ u v, q ∉ u ∧ Layered n.depth v ∧ bytes = u ++ q :: v

theorem Closed.cons_quoted (h : (step ⟨depth, some q⟩ b).Closed bytes) :
    Closed ⟨depth, some q⟩ (b :: bytes) := by
  by_cases hb : b = q
  · subst hb
    rw [step, if_pos rfl] at h
    exact ⟨[], bytes, List.not_mem_nil, h, rfl⟩
  · rw [step, if_neg hb] at h
    obtain ⟨u, v, hu, hv, rfl⟩ := h
    exact ⟨b :: u, v, by simp [Ne.symm hb, hu], hv, rfl⟩

theorem Closed.cons_bare (h : (step ⟨depth, none⟩ b).Closed bytes)
    (hdepth : depth = 0 → b ≠ closing) : Closed ⟨depth, none⟩ (b :: bytes) := by
  by_cases hq : isQuote b
  · rw [step, if_pos hq] at h
    obtain ⟨u, v, hu, hv, rfl⟩ := h
    exact Layered.quoted hq hu hv
  by_cases ho : b = opening
  · subst ho
    rw [step, if_neg hq, if_pos rfl] at h
    obtain ⟨u, v, hu, hv, rfl⟩ := h
    exact Layered.nested hu hv
  by_cases hc : b = closing
  · subst hc
    cases depth with
    | zero => exact absurd rfl (hdepth rfl)
    | succ depth =>
      rw [step_closing, Nat.add_sub_cancel] at h
      exact ⟨[], bytes, .nil, h, rfl⟩
  · have hstep : step ⟨depth, none⟩ b = ⟨depth, none⟩ := by simp [step, hq, ho, hc]
    rw [hstep] at h
    exact Layered.append (p := [b]) (fun w hw => .plain hq ho hc hw) h

/-- Induction on the bytes, with whatever is open in front of them. -/
theorem closed_of_staysOpen (h : n.StaysOpen bytes) (ho : n.after bytes = outermost) :
    n.Closed bytes := by
  induction bytes generalizing n with
  | nil =>
    obtain rfl : n = outermost := ho
    exact Balanced.nil
  | cons b bytes ih =>
    rw [staysOpen_cons] at h
    have hrest : (n.step b).Closed bytes := ih h.2 ho
    obtain ⟨depth, quote⟩ := n
    cases quote with
    | some q => exact hrest.cons_quoted
    | none => exact hrest.cons_bare fun hdepth => h.1 (hdepth ▸ rfl)

end Nesting

/-- The payloads that end with nothing open are those of the grammar. -/
theorem closes_iff_balanced : Closes p ↔ Balanced p :=
  ⟨fun h => closed_of_staysOpen h.1 h.2, fun h => h.neutral 0⟩

/-- The parentheses that bytes open less those that they close, given the quote that is open in
front. What stands in quotes does not count. -/
def level : Option UInt8 → List UInt8 → Int
  | _, [] => 0
  | some q, b :: rest => level (if b = q then none else some q) rest
  | none, b :: rest =>
    if isQuote b then level (some b) rest
    else if b = opening then level none rest + 1
    else if b = closing then level none rest - 1
    else level none rest

/-- No parenthesis is closed that was not opened, so the depth is the difference itself. -/
theorem depth_after (h : n.StaysOpen u) : ((n.after u).depth : Int) = n.depth + level n.quote u := by
  induction u generalizing n with
  | nil => simp [level]
  | cons b u ih =>
    rw [staysOpen_cons] at h
    rw [after_cons, ih h.2]
    obtain ⟨depth, quote⟩ := n
    cases quote with
    | some q => rfl
    | none =>
      by_cases hq : isQuote b
      · simp [step, level, hq]
      by_cases ho : b = opening
      · subst ho
        simp [step, level]
        omega
      by_cases hc : b = closing
      · have hdepth : depth ≠ 0 := by
          rintro rfl
          exact h.1 rfl hc
        subst hc
        simp [step, level]
        omega
      · simp [step, level, hq, ho, hc]

/-- As long as it does not end, a split goes on behind some bytes with what is open there. -/
theorem splitFrom_staysOpen {read : List UInt8} (h : n.StaysOpen u) :
    splitFrom n.depth n.quote read (u ++ v) =
      splitFrom (n.after u).depth (n.after u).quote (u.reverse ++ read) v := by
  induction u generalizing n read with
  | nil => rfl
  | cons b u ih =>
    rw [staysOpen_cons] at h
    rw [List.cons_append, splitFrom_step h.1, ih h.2, after_cons, List.reverse_cons,
      List.append_assoc, List.singleton_append]

/-- Behind the bytes a split holds as its depth how many parentheses are open, which is never less
than none. -/
def Counts (u : List UInt8) : Prop :=
  0 ≤ level none u ∧ ∃ quote, ∀ v,
    splitFrom 0 none [] (u ++ v) = splitFrom (level none u).toNat quote u.reverse v

theorem counts_of_staysOpen (h : outermost.StaysOpen u) : Counts u := by
  have hdepth : ((outermost.after u).depth : Int) = level none u := by
    rw [depth_after h]
    exact Int.zero_add _
  refine ⟨by omega, (outermost.after u).quote, fun v => ?_⟩
  rw [← hdepth, Int.toNat_natCast, ← List.append_nil u.reverse]
  exact splitFrom_staysOpen h

/-- How a scan finds the payload that the bytes start with. -/
structure Recognised (offset : Nat) (bytes : List UInt8) : Prop where
  /-- It succeeds exactly on balanced bytes and the parenthesis that closes them. -/
  accepts : ∀ p c, Scan.payload ⟨offset, bytes⟩ = .ok p c ↔
    Balanced p ∧ bytes = p ++ closing :: c.rest ∧ c.offset = offset + p.length + 1
  unique : ∀ p q v w, Balanced p → Balanced q → bytes = p ++ closing :: v →
    bytes = q ++ closing :: w → p = q ∧ v = w
  /-- Elsewhere it finds the data truncated, at their end. -/
  rejects : (∀ p v, Balanced p → bytes ≠ p ++ closing :: v) → Scan.payload ⟨offset, bytes⟩ =
    .error (.truncated (offset + bytes.length)) ⟨offset + bytes.length, []⟩
  /-- Behind every byte that is read on the way the depth is right. -/
  counts : ∀ u, u <+: bytes → (∀ p v, Balanced p → bytes = p ++ closing :: v → u <+: p) → Counts u

theorem split_of_balanced (h : Balanced p) : split (p ++ closing :: behind) = some (p, behind) :=
  split_append (closes_iff_balanced.2 h)

theorem split_of_not_balanced (h : ∀ p v, Balanced p → bytes ≠ p ++ closing :: v) :
    split bytes = none := by
  cases hs : split bytes with
  | none => rfl
  | some parts =>
    obtain ⟨hbytes, hclose⟩ := split_eq_some_iff.1 hs
    exact absurd hbytes (h _ _ (closes_iff_balanced.1 hclose))

theorem payload_of_balanced (h : Balanced p) (offset : Nat) :
    Scan.payload ⟨offset, p ++ closing :: behind⟩ = .ok p ⟨offset + p.length + 1, behind⟩ := by
  simp only [Scan.payload, split_of_balanced h]

theorem payload_of_not_balanced (h : ∀ p v, Balanced p → bytes ≠ p ++ closing :: v)
    (offset : Nat) : Scan.payload ⟨offset, bytes⟩ =
      .error (.truncated (offset + bytes.length)) ⟨offset + bytes.length, []⟩ := by
  simp only [Scan.payload, split_of_not_balanced h]
  rfl

theorem recognised_bytes (offset : Nat) (bytes : List UInt8) : Recognised offset bytes where
  accepts := by
    rintro p ⟨place, rest⟩
    constructor
    · intro h
      obtain ⟨w, ⟨hclose, rfl⟩, hbytes, hplace⟩ := Scan.reads_payload.cursor_eq h
      refine ⟨closes_iff_balanced.1 hclose, ?_, ?_⟩
      · simpa using congrArg Cursor.rest hbytes
      · simpa [Nat.add_assoc] using hplace
    · rintro ⟨hp, rfl, rfl⟩
      exact payload_of_balanced hp offset
  unique := by
    rintro p q v w hp hq rfl hsame
    have hsplit : split (q ++ closing :: w) = some (p, v) := hsame ▸ split_of_balanced hp
    rw [split_of_balanced hq] at hsplit
    cases hsplit
    exact ⟨rfl, rfl⟩
  rejects := fun h => payload_of_not_balanced h offset
  counts := by
    intro u hu hinside
    have hopen {w : List UInt8} (hw : outermost.StaysOpen w) (h : u <+: w) : Counts u := by
      obtain ⟨v, rfl⟩ := h
      exact counts_of_staysOpen (staysOpen_append.1 hw).1
    cases hs : split bytes with
    | none => exact hopen (split_eq_none_iff.1 hs) hu
    | some parts =>
      obtain ⟨hbytes, hclose⟩ := split_eq_some_iff.1 hs
      exact hopen hclose.1 (hinside _ _ (closes_iff_balanced.1 hclose) hbytes)

end Payload

/-- What becomes of the answer of an operand. If it is refused, its opcode is unrecognized. -/
def Keywords.settle (name : String) : Except StreamError Opcode → Except StreamError Opcode
  | .error (.invalidOperand ..) => .ok (.unrecognized name)
  | result => result

theorem Keywords.interpret_of_find {keywords : Keywords} {name : String} {operand : Operand}
    (h : keywords.find? name = some operand) (payload : List UInt8) :
    keywords.interpret name payload =
      settle name (operand (Blank.trim Blank.isAscii payload)) := by
  rw [interpret, h]
  rfl

namespace Form
open Payload

/-- What is read of an extended opcode whose name is given. -/
structure HandsOver (keywords : Keywords) (offset : Nat) (name rest : List UInt8) : Prop where
  /-- A keyword is asked about what stands between the name and the closing parenthesis, less the
  blanks at both ends, and the answer is what counts. -/
  closed : ∀ operand p behind, keywords.find? (Utf8.decodeLossy name) = some operand →
    Balanced p → rest = p ++ closing :: behind →
    ∃ core, (∀ other, Blank.Trimmed Blank.isAscii p other ↔ other = core) ∧
      readExtended keywords ⟨offset, name ++ rest⟩ =
        Scan.ofResult (Keywords.settle (Utf8.decodeLossy name) (operand core))
          ⟨offset + name.length + p.length + 1, behind⟩
  /-- No keyword is asked about a payload that is not closed. -/
  unclosed : (∀ p behind, Balanced p → rest ≠ p ++ closing :: behind) →
    readExtended keywords ⟨offset, name ++ rest⟩ =
      .error (.truncated (offset + (name ++ rest).length)) ⟨offset + (name ++ rest).length, []⟩

theorem handsOver_of_name {name rest : List UInt8} (hname : ∀ b ∈ name, ¬ endsName b)
    (hend : ∀ x v, rest = x :: v → endsName x) (keywords : Keywords) (offset : Nat) :
    HandsOver keywords offset name rest := by
  have hread : readExtended keywords ⟨offset, name ++ rest⟩ =
      (Scan.payload >>= fun p => Scan.ofResult (keywords.interpret (Utf8.decodeLossy name) p))
        ⟨offset + name.length, rest⟩ :=
    Scan.Reads.takeWhile_bind_apply (by simpa using hname) (by simpa using hend) offset
  constructor
  · rintro operand p behind hfind hp rfl
    refine ⟨Blank.trim Blank.isAscii p, fun other => Blank.trimmed_iff, ?_⟩
    rw [hread, Scan.bind_of_ok (payload_of_balanced hp _), Keywords.interpret_of_find hfind]
  · intro h
    rw [hread, Scan.bind_of_error (payload_of_not_balanced h _), List.length_append,
      Nat.add_assoc]

/-- A scan finds the balanced payload that the next parenthesis closes, if there is one, and this
payload without the blanks at its ends is what a keyword is handed. -/
theorem balanced_payload_handed_over :
    (∀ offset bytes, Recognised offset bytes) ∧
      ∀ keywords offset name rest, (∀ b ∈ name, ¬ endsName b) →
        (∀ x v, rest = x :: v → endsName x) → HandsOver keywords offset name rest :=
  ⟨recognised_bytes, fun keywords offset _ _ hname hend =>
    handsOver_of_name hname hend keywords offset⟩

/-- Blanks around a quoted parenthesis and an empty pair are not handed over, what they enclose
is. -/
theorem balanced_payload_handed_over_quoted :
    let keywords : Keywords := .ofList [("A", fun core => .error (.truncated core.length))]
    let p : List UInt8 := [0x20, 0x27, 0x28, 0x27, 0x28, 0x29, 0x09]
    Balanced p ∧ Scan.payload ⟨2, p ++ [closing, 0x56]⟩ = .ok p ⟨10, [0x56]⟩ ∧
      readExtended keywords ⟨1, [0x41] ++ (p ++ [closing, 0x56])⟩ =
        .error (.truncated 5) ⟨10, [0x56]⟩ := by
  intro keywords p
  have hp : Balanced p := .plain (by decide) (by decide) (by decide) <|
    .quoted (q := 0x27) (u := [0x28]) (by decide) (by decide) <|
      .nested (u := []) .nil <| .plain (by decide) (by decide) (by decide) .nil
  have hname : ∀ b ∈ ([0x41] : List UInt8), ¬ endsName b :=
    List.forall_mem_singleton.2 (by decide)
  have hend : ∀ x v, p ++ [closing, 0x56] = x :: v → endsName x := by
    rintro x v hx
    obtain ⟨rfl, -⟩ := List.cons.inj hx
    rfl
  obtain ⟨hscan, hhand⟩ := balanced_payload_handed_over
  refine ⟨hp, ((hscan 2 _).accepts p ⟨10, [0x56]⟩).2 ⟨hp, rfl, rfl⟩, ?_⟩
  have htext : Utf8.decodeLossy [0x41] = "A" := by decide +kernel
  have hfind : keywords.find? (Utf8.decodeLossy [0x41]) = some fun core =>
      .error (.truncated core.length) := by
    rw [htext]
    rfl
  obtain ⟨core, hcore, hread⟩ := (hhand keywords 1 _ _ hname hend).closed _ p _ hfind hp rfl
  have htrimmed : Blank.trim Blank.isAscii p = core := (hcore _).1 Blank.trimmed_trim
  rw [hread, ← htrimmed]
  rfl

end Form

end VectorStream
