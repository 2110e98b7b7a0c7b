import VectorStream.Proofs.Relocation
import VectorStream.Proofs.Run

/-!
# Decoders in lockstep

Two decoders whose dialects have the same built-in layouts and any keywords stay at the same place
of a stream. A keyword is consulted when its opcode is behind the decoder already, so it decides
what the opcode means or that decoding stops, and nothing else. An operand that it refuses is no
error of the stream.
-/
namespace VectorStream
open Text

def StreamError.isInvalidOperand : StreamError → Bool
  | invalidOperand .. => true
  | _ => false

theorem StreamError.Fits.not_isInvalidOperand {e : StreamError} {low high : Nat}
    (h : e.Fits low high) (base : Nat) : ¬ (e.shift base).isInvalidOperand := by
  cases e with
  | invalidOperand keyword fault => exact h.elim
  | _ => exact Bool.false_ne_true

/-- The results that keywords allow for the payload under a name. -/
inductive Keywords.Gives (keywords : Keywords) (name : String) (payload : List UInt8) :
    Except StreamError Opcode → Prop
  | meaning {operand : Operand} {op : Opcode} (hf : keywords.find? name = some operand)
    (h : operand (Blank.trim Blank.isAscii payload) = .ok op) : Gives keywords name payload (.ok op)
  | missing (hf : keywords.find? name = none) :
    Gives keywords name payload (.ok (.unrecognized name))
  | refused {operand : Operand} {keyword : String} {fault : OperandFault}
    (hf : keywords.find? name = some operand)
    (h : operand (Blank.trim Blank.isAscii payload) = .error (.invalidOperand keyword fault)) :
    Gives keywords name payload (.ok (.unrecognized name))
  | failed {operand : Operand} {e : StreamError} (hf : keywords.find? name = some operand)
    (h : operand (Blank.trim Blank.isAscii payload) = .error e) (he : ¬ e.isInvalidOperand) :
    Gives keywords name payload (.error e)

namespace Keywords
variable {keywords : Keywords} {name : String} {payload : List UInt8}

theorem gives_interpret (keywords : Keywords) (name : String) (payload : List UInt8) :
    keywords.Gives name payload (keywords.interpret name payload) := by
  unfold interpret
  cases hf : keywords.find? name with
  | none => exact .missing hf
  | some operand =>
    simp only
    cases h : operand (Blank.trim Blank.isAscii payload) with
    | ok op => exact .meaning hf h
    | error e =>
      cases e with
      | invalidOperand keyword fault => exact .refused hf h
      | _ => exact .failed hf h Bool.false_ne_true

theorem interpret_of_missing (h : keywords.find? name = none) (payload : List UInt8) :
    keywords.interpret name payload = .ok (.unrecognized name) := by
  rw [interpret, h]

theorem Gives.not_isInvalidOperand {result : Except StreamError Opcode} {e : StreamError}
    (h : keywords.Gives name payload result) (he : result = .error e) : ¬ e.isInvalidOperand := by
  cases h with
  | failed hf h hkind =>
    cases he
    exact hkind
  | _ => cases he

end Keywords

/-- A name and a payload, with the parenthesis that closes it and what is behind. -/
structure Payload.Splits (bytes name payload behind : List UInt8) : Prop where
  eq_append : bytes = name ++ (payload ++ closing :: behind)
  name_inside : ∀ b ∈ name, ¬ endsName b
  name_ends : ∀ b v, payload ++ [closing] = b :: v → endsName b
  closes : Closes payload

theorem Scan.ofResult_apply {α : Type} (result : Except StreamError α) (c : Cursor) :
    ofResult result c =
      match result with
      | .ok a => .ok a c
      | .error e => .error e c := by
  cases result <;> rfl

namespace Form
open Scan

/-- The keywords are of no importance to any form but the extended one. -/
theorem read_congr {form : Form} (h : form ≠ extended) (k k' : Keywords) :
    form.read k = form.read k' := by
  cases form with
  | extended => exact absurd rfl h
  | _ => rfl

theorem not_isInvalidOperand_of_read {form : Form} (h : form ≠ extended) {keywords : Keywords}
    {offset : Nat} {rest : List UInt8} {e : StreamError} {c : Cursor}
    (he : form.read keywords ⟨offset + 1, rest⟩ = .error e c) : ¬ e.isInvalidOperand := by
  rw [read_congr h keywords .standard, read_apply, Nat.add_comm] at he
  rcases form.relocatable_readFrom 1 rest with ⟨op, m, -, hok⟩ | ⟨e₀, m, hfits, -, herror⟩
  · cases (hok offset).symm.trans he
  · cases (herror offset).symm.trans he
    exact hfits.not_isInvalidOperand offset

/-- Keywords are consulted behind the closing parenthesis. -/
theorem readExtended_of_splits {bytes name payload behind : List UInt8}
    (h : Payload.Splits bytes name payload behind) (keywords : Keywords) (offset : Nat) :
    readExtended keywords ⟨offset, bytes⟩ =
      ofResult (keywords.interpret (Utf8.decodeLossy name) payload)
        ⟨offset + name.length + (payload ++ [Payload.closing]).length, behind⟩ := by
  have hname : ∀ b ∈ name, !Payload.endsName b := by simpa using h.name_inside
  have hend : ∀ b v, payload ++ Payload.closing :: behind = b :: v → ¬ !Payload.endsName b := by
    intro b v hb
    cases payload with
    | nil =>
      obtain ⟨rfl, -⟩ := List.cons.inj hb
      decide
    | cons x payload =>
      obtain ⟨rfl, -⟩ := List.cons.inj hb
      simp [h.name_ends x _ rfl]
  have hpayload := reads_payload.accepts ⟨h.closes, rfl⟩ (offset + name.length) behind
  rw [List.append_assoc, List.singleton_append] at hpayload
  rw [h.eq_append]
  exact (Reads.takeWhile_bind_apply hname hend offset).trans (bind_of_ok hpayload)

/-- Without a closing parenthesis all keywords find the data truncated. -/
theorem readExtended_of_not_splits {bytes : List UInt8}
    (h : ∀ name payload behind, ¬ Payload.Splits bytes name payload behind) (offset : Nat) :
    ∃ place c, ∀ keywords, readExtended keywords ⟨offset, bytes⟩ = .error (.truncated place) c := by
  obtain ⟨name, rest, rfl, hname, hend⟩ := Cursor.exists_run (fun b => !Payload.endsName b) bytes
  have hsplit : Payload.split rest = none := by
    cases hs : Payload.split rest with
    | none => rfl
    | some parts =>
      obtain ⟨rfl, hclose⟩ := Payload.split_eq_some_iff.1 hs
      refine absurd ⟨rfl, by simpa using hname, ?_, hclose⟩ (h name parts.1 parts.2)
      intro b v hb
      have hhead := hend b (v ++ parts.2) (by rw [← List.cons_append, ← hb]; simp)
      simpa using hhead
  have hpayload : payload ⟨offset + name.length, rest⟩ =
      .error (.truncated (offset + name.length + rest.length))
        ⟨offset + name.length + rest.length, []⟩ := by
    simp [payload, hsplit, Cursor.finish]
  exact ⟨_, _, fun keywords =>
    (Reads.takeWhile_bind_apply hname hend offset).trans (bind_of_error hpayload)⟩

end Form

namespace Dialect

/-- Every layout is that of a built-in form. -/
def BuiltIn (d : Dialect) : Prop :=
  ∀ id layout, d.layout? id = some layout → ∃ form : Form, layout = form.layout

/-- An extended opcode that closes is the next one. -/
def ExtendedAt (d : Dialect) (c : Cursor) (name payload behind : List UInt8) : Prop :=
  ∃ id bytes, c.rest = id :: bytes ∧ d.layout? id = some Form.extended.layout ∧
    Payload.Splits bytes name payload behind

variable {d e : Dialect} {c : Cursor}

theorem item_of_layout {id : UInt8} {form : Form} (h : d.layout? id = some form.layout)
    (offset : Nat) (rest : List UInt8) :
    d.item ⟨offset, id :: rest⟩ = form.read d.keywords ⟨offset + 1, rest⟩ := by
  simp only [item, h]
  rfl

theorem item_of_layout?_none {id : UInt8} (h : d.layout? id = none) (offset : Nat)
    (rest : List UInt8) :
    d.item ⟨offset, id :: rest⟩ = .error (.unknownOpcode id offset) ⟨offset, id :: rest⟩ := by
  simp only [item, h]

/-- An extended opcode is behind a decoder before its meaning is known. -/
theorem item_of_extendedAt {name payload behind : List UInt8}
    (h : d.ExtendedAt c name payload behind) :
    d.item c = Scan.ofResult (d.keywords.interpret (Utf8.decodeLossy name) payload)
      ⟨c.offset + 1 + name.length + (payload ++ [Payload.closing]).length, behind⟩ := by
  obtain ⟨offset, rest⟩ := c
  obtain ⟨id, bytes, rfl, hid, hsplits⟩ := h
  rw [item_of_layout hid]
  exact Form.readExtended_of_splits hsplits d.keywords (offset + 1)

theorem ExtendedAt.congr (hlayouts : ∀ id, d.layout? id = e.layout? id)
    {name payload behind : List UInt8} (h : d.ExtendedAt c name payload behind) :
    e.ExtendedAt c name payload behind := by
  obtain ⟨id, bytes, hc, hid, hsplits⟩ := h
  exact ⟨id, bytes, hc, hlayouts id ▸ hid, hsplits⟩

/-- Elsewhere the layouts alone decide on an item, and it is not refused for an operand. -/
theorem item_of_not_extendedAt (hlayouts : ∀ id, d.layout? id = e.layout? id) (hd : d.BuiltIn)
    (h : ∀ name payload behind, ¬ d.ExtendedAt c name payload behind) :
    d.item c = e.item c ∧ ∀ fault c', d.item c = .error fault c' → ¬ fault.isInvalidOperand := by
  obtain ⟨offset, rest⟩ := c
  cases rest with
  | nil =>
    refine ⟨rfl, ?_⟩
    rintro fault c' ⟨⟩
    exact Bool.false_ne_true
  | cons id rest =>
    cases hid : d.layout? id with
    | none =>
      rw [item_of_layout?_none hid, item_of_layout?_none (hlayouts id ▸ hid)]
      refine ⟨rfl, ?_⟩
      rintro fault c' ⟨⟩
      exact Bool.false_ne_true
    | some layout =>
      obtain ⟨form, rfl⟩ := hd id layout hid
      rw [item_of_layout hid, item_of_layout (hlayouts id ▸ hid)]
      by_cases hform : form = .extended
      · subst hform
        obtain ⟨place, c'', herror⟩ := Form.readExtended_of_not_splits
          (fun name payload behind k => h name payload behind ⟨id, rest, rfl, hid, k⟩) (offset + 1)
        refine ⟨(herror d.keywords).trans (herror e.keywords).symm, ?_⟩
        intro fault c' hfault
        have hboth := (herror d.keywords).symm.trans hfault
        cases hboth
        exact Bool.false_ne_true
      · refine ⟨by rw [Form.read_congr hform d.keywords e.keywords], ?_⟩
        intro fault c' hfault
        exact Form.not_isInvalidOperand_of_read hform hfault

theorem builtIn_standard : standard.BuiltIn := by
  intro id layout h
  obtain ⟨form, -, hform⟩ := layout?_standard.1 h
  exact ⟨form, hform.symm⟩

theorem not_isInvalidOperand_of_item (hd : d.BuiltIn) {fault : StreamError} {c' : Cursor}
    (h : d.item c = .error fault c') : ¬ fault.isInvalidOperand := by
  by_cases hx : ∃ name payload behind, d.ExtendedAt c name payload behind
  · obtain ⟨name, payload, behind, hx⟩ := hx
    have hgives := d.keywords.gives_interpret (Utf8.decodeLossy name) payload
    rw [item_of_extendedAt hx] at h
    cases hr : d.keywords.interpret (Utf8.decodeLossy name) payload with
    | ok op =>
      rw [hr] at h
      cases h
    | error e =>
      rw [hr] at h
      cases h
      exact hgives.not_isInvalidOperand hr
  · have hnone : ∀ name payload behind, ¬ d.ExtendedAt c name payload behind :=
      fun name payload behind k => hx ⟨name, payload, behind, k⟩
    exact (item_of_not_extendedAt (fun _ => rfl) hd hnone).2 fault c' h

end Dialect

theorem Run.not_isInvalidOperand {d : Dialect} (hd : d.BuiltIn) {c c' : Cursor}
    {ops : List Opcode} {stop : Option StreamError} (h : Run d c ops stop c') :
    ∀ e, stop = some e → ¬ e.isInvalidOperand := by
  induction h with
  | finish h => simp
  | halt h hi =>
    rintro e ⟨⟩
    exact Dialect.not_isInvalidOperand_of_item hd hi
  | item hi hr ih => exact ih

namespace Decoder

/-- The decoder after a number of steps. -/
def after (s : Decoder) : Nat → Decoder
  | 0 => s
  | n + 1 => (s.after n).next.2

/-- The place of the next item, behind the separators. -/
def place (s : Decoder) : Cursor := s.cursor.skipWhile Blank.isSeparator

/-- What a decoder yields is what its keywords allow, and an error halts it. -/
def YieldsKeyword (s : Decoder) (name payload : List UInt8) : Prop :=
  ∃ result, s.next.1 = some result ∧ s.next.2.halted = !result.isOk ∧
    s.dialect.keywords.Gives (Utf8.decodeLossy name) payload result

/-- Two decoders are at the same place in front of an item and behind it. They yield the same
unless it is an extended opcode with a name that one of them has for a keyword. -/
structure InStep (s t : Decoder) : Prop where
  before : s.cursor = t.cursor
  behind : s.next.2.cursor = t.next.2.cursor
  same : (∀ name payload behind, s.dialect.ExtendedAt s.place name payload behind →
    s.dialect.keywords.find? (Utf8.decodeLossy name) = none ∧
      t.dialect.keywords.find? (Utf8.decodeLossy name) = none) → s.next.1 = t.next.1
  keyword : ∀ name payload behind, s.dialect.ExtendedAt s.place name payload behind →
    s.YieldsKeyword name payload ∧ t.YieldsKeyword name payload

variable {s t : Decoder}

theorem next_of_extendedAt (hs : s.halted = false) {name payload behind : List UInt8}
    (h : s.dialect.ExtendedAt s.place name payload behind) : s.next =
      (some (s.dialect.keywords.interpret (Utf8.decodeLossy name) payload),
        { s with
          cursor :=
            ⟨s.place.offset + 1 + name.length + (payload ++ [Payload.closing]).length, behind⟩
          halted := !(s.dialect.keywords.interpret (Utf8.decodeLossy name) payload).isOk }) := by
  have hend : s.place.atEnd = false := by
    obtain ⟨id, bytes, hrest, -⟩ := h
    simp [Cursor.atEnd, hrest]
  have hitem := Dialect.item_of_extendedAt h
  unfold place at hend hitem ⊢
  cases hr : s.dialect.keywords.interpret (Utf8.decodeLossy name) payload with
  | ok op => simp [next, hs, hend, hitem, hr, Scan.ofResult_apply, Except.isOk, Except.toBool]
  | error e => simp [next, hs, hend, hitem, hr, Scan.ofResult_apply, Except.isOk, Except.toBool]

theorem yieldsKeyword (hs : s.halted = false) {name payload behind : List UInt8}
    (h : s.dialect.ExtendedAt s.place name payload behind) : s.YieldsKeyword name payload := by
  rw [YieldsKeyword, next_of_extendedAt hs h]
  exact ⟨_, rfl, rfl, s.dialect.keywords.gives_interpret _ _⟩

theorem next_of_item_eq (hs : s.halted = false) (ht : t.halted = false)
    (hc : s.cursor = t.cursor) (hitem : s.dialect.item s.place = t.dialect.item s.place) :
    s.next.1 = t.next.1 ∧ s.next.2.cursor = t.next.2.cursor := by
  unfold place at hitem
  unfold next
  rw [hs, ht, ← hc]
  by_cases hend : (s.cursor.skipWhile Blank.isSeparator).atEnd
  · simp [hend]
  · simp only [hend, hitem, Bool.false_eq_true, if_false]
    cases t.dialect.item (s.cursor.skipWhile Blank.isSeparator) <;> exact ⟨rfl, rfl⟩

/-- Decoders at the same place are in step. -/
theorem inStep_of_cursor_eq (hlayouts : ∀ id, s.dialect.layout? id = t.dialect.layout? id)
    (hbuilt : s.dialect.BuiltIn) (hs : s.halted = false) (ht : t.halted = false)
    (hc : s.cursor = t.cursor) : InStep s t := by
  have hplace : t.place = s.place := by rw [place, place, hc]
  have hboth {name payload behind : List UInt8}
      (h : s.dialect.ExtendedAt s.place name payload behind) :
      t.dialect.ExtendedAt t.place name payload behind := hplace ▸ h.congr hlayouts
  have hkeyword (name payload behind : List UInt8)
      (h : s.dialect.ExtendedAt s.place name payload behind) :
      s.YieldsKeyword name payload ∧ t.YieldsKeyword name payload :=
    ⟨yieldsKeyword hs h, yieldsKeyword ht (hboth h)⟩
  -- Keywords are asked only where an extended opcode closes, and then both decoders are behind it.
  by_cases hx : ∃ name payload behind, s.dialect.ExtendedAt s.place name payload behind
  · obtain ⟨name, payload, behind, hx⟩ := hx
    refine ⟨hc, ?_, ?_, hkeyword⟩
    · rw [next_of_extendedAt hs hx, next_of_extendedAt ht (hboth hx), hplace]
    · intro hmissing
      obtain ⟨hms, hmt⟩ := hmissing name payload behind hx
      rw [next_of_extendedAt hs hx, next_of_extendedAt ht (hboth hx),
        Keywords.interpret_of_missing hms, Keywords.interpret_of_missing hmt]
  · have hnone : ∀ name payload behind, ¬ s.dialect.ExtendedAt s.place name payload behind :=
      fun name payload behind k => hx ⟨name, payload, behind, k⟩
    have hitem := (Dialect.item_of_not_extendedAt hlayouts hbuilt hnone).1
    obtain ⟨hresult, hcursor⟩ := next_of_item_eq hs ht hc hitem
    exact ⟨hc, hcursor, fun _ => hresult, hkeyword⟩

theorem dialect_next (s : Decoder) : s.next.2.dialect = s.dialect := by
  unfold next
  split
  · rfl
  · simp only
    split
    · rfl
    · split <;> rfl

theorem dialect_after (s : Decoder) (n : Nat) : (s.after n).dialect = s.dialect := by
  induction n with
  | zero => rfl
  | succ n ih => rw [after, dialect_next, ih]

/-- A halted decoder stays halted. -/
theorem not_halted_of_next (h : s.next.2.halted = false) : s.halted = false := by
  cases hs : s.halted with
  | false => rfl
  | true =>
    rw [next_of_halted hs, hs] at h
    cases h

/-- Decoders that start at the same place are at the same place after each number of steps, as long
as neither has met an error. -/
theorem cursor_after (hlayouts : ∀ id, s.dialect.layout? id = t.dialect.layout? id)
    (hbuilt : s.dialect.BuiltIn) (hc : s.cursor = t.cursor) (n : Nat)
    (hs : (s.after n).halted = false) (ht : (t.after n).halted = false) :
    (s.after n).cursor = (t.after n).cursor := by
  induction n with
  | zero => exact hc
  | succ n ih =>
    -- A decoder that has not halted behind a step has not halted in front of it either.
    have hs' := not_halted_of_next hs
    have ht' := not_halted_of_next ht
    have hstep : InStep (s.after n) (t.after n) :=
      inStep_of_cursor_eq (by rwa [dialect_after, dialect_after]) (by rwa [dialect_after]) hs' ht'
        (ih hs' ht')
    exact hstep.behind

/-- Decoders of one stream whose dialects differ in their keywords alone stay in step until one of
them meets an error, and no operand that a keyword refuses is an error of a stream. -/
theorem inStep_after {d e : Dialect} (hlayouts : ∀ id, d.layout? id = e.layout? id)
    (hbuilt : d.BuiltIn) (data : List UInt8) :
    (∀ n, ((start d data).after n).halted = false → ((start e data).after n).halted = false →
      InStep ((start d data).after n) ((start e data).after n)) ∧
    ∀ keyword fault, d.decode data ≠ .error (.invalidOperand keyword fault) := by
  constructor
  · intro n hs ht
    have hcursor := cursor_after (s := start d data) (t := start e data) hlayouts hbuilt rfl n hs ht
    exact inStep_of_cursor_eq (by rwa [dialect_after, dialect_after]) (by rwa [dialect_after]) hs ht
      hcursor
  · intro keyword fault h
    obtain ⟨ops, c, hr⟩ := Dialect.decode_eq_error_iff_run.1 h
    exact hr.not_isInvalidOperand hbuilt _ rfl rfl

/-- A keyword that fails stops the decoder that has it, behind the opcode that it is asked about. -/
theorem inStep_after_failing_keyword :
    let failing := Dialect.standard.registerKeyword "Ink" fun operand =>
      .error (.truncated operand.length)
    let data : List UInt8 := [0x28, 0x49, 0x6E, 0x6B, 0x20, 0x37, 0x29]
    let s := (start .standard data).after 0
    let t := (start failing data).after 0
    s.next.1 = some (.ok (.unrecognized "Ink")) ∧ t.next.1 = some (.error (.truncated 1)) ∧
      s.next.2.cursor = t.next.2.cursor ∧ t.next.2.cursor = ⟨7, []⟩ := by
  intro failing data s t
  have hstep := (inStep_after (d := .standard) (e := failing) (fun _ => rfl)
    Dialect.builtIn_standard data).1 0 rfl rfl
  have hsplit : Payload.split [0x20, 0x37, 0x29] = some ([0x20, 0x37], []) := by decide
  have hname : ∀ b ∈ [0x49, 0x6E, 0x6B], ¬ Payload.endsName b := by
    simp [Payload.endsName, Blank.isSeparator, Payload.opening, Payload.closing]
  have hends : ∀ b v, [0x20, 0x37, 0x29] = b :: v → Payload.endsName b := by
    intro b v h
    obtain ⟨rfl, -⟩ := List.cons.inj h
    decide
  have hext : Dialect.standard.ExtendedAt s.place [0x49, 0x6E, 0x6B] [0x20, 0x37] [] :=
    ⟨0x28, data.tail, rfl, rfl, rfl, hname, hends, (Payload.split_eq_some_iff.1 hsplit).2⟩
  have htext : Utf8.decodeLossy [0x49, 0x6E, 0x6B] = "Ink" := by decide +kernel
  have hs := next_of_extendedAt (s := s) rfl hext
  have ht := next_of_extendedAt (s := t) rfl (hext.congr fun _ => rfl)
  rw [htext] at hs ht
  rw [Keywords.interpret_of_missing (by decide +kernel)] at hs
  refine ⟨by rw [hs], ?_, hstep.behind, by rw [ht]; rfl⟩
  rw [ht]
  rfl

end Decoder

end VectorStream
