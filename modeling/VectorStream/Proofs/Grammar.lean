import VectorStream.Dialect
import VectorStream.Proofs.Encoding
import VectorStream.Proofs.Nesting

/-!
# The grammar of opcodes

The words of each form are given by rules, one for a form. In the standard dialect the scan of a
form reads these words. An instruction is an id byte and a word of the form that has this id.
-/
namespace VectorStream
open Text

/-- What a standard extended opcode means. The keyword sets the line weight if the payload is an
acceptable operand; every other name is unrecognized. -/
def Keywords.standardMeaning (name : String) (payload : List UInt8) : Opcode :=
  if name = Operand.lineWeightName then
    match Operand.lineWeight (Blank.trim Blank.isAscii payload) with
    | .ok op => op
    | .error _ => .unrecognized name
  else .unrecognized name

/-- The words that stand behind the id byte of an opcode in a given form. -/
inductive Form.Spells : Form → Language Opcode
  | line {w : Width} (a b : Point w) :
    Spells (.line w) (.shape w (.line a b)) (a.bytes ++ b.bytes)
  | polyline {w : Width} (ps : List (Point w)) (h : Count.Legal ps.length) :
    Spells (.polyline w) (.shape w (.polyline ps))
      (Count.bytes ps.length ++ ps.flatMap Point.bytes)
  | markers {w : Width} (ps : List (Point w)) (h : Count.Legal ps.length) :
    Spells (.markers w) (.shape w (.markers ps)) (Count.bytes ps.length ++ ps.flatMap Point.bytes)
  | triangles {w : Width} (n : Nat) (h : Count.Legal n) (vertices : List UInt8)
    (hv : vertices.length = n * (2 * w.size)) :
    Spells (.triangles w) (.unsupported (trianglesId w)) (Count.bytes n ++ vertices)
  | text (anchor : Point .short) (units : List UInt16) (h : Count.Legal units.length) :
    Spells .text (.text anchor (Utf16.decodeLossy units))
      (anchor.bytes ++ (Count.bytes units.length ++ units.flatMap unitBytes))
  | moveTo (position : Point .short) : Spells .moveTo (.moveTo position) position.bytes
  | weight (value : Int16) : Spells .weight (.weight value) (Width.short.bytes value)
  | colorIndex (index : UInt8) : Spells .colorIndex (.colorIndex index) [index]
  | color (value : Color) :
    Spells .color (.color value) [value.red, value.green, value.blue, value.alpha]
  | visibility (on : Bool) : Spells (.visibility on) (.visibility on) []
  /-- The name goes up to the first byte that ends names, and the payload up to the parenthesis
  that closes it. -/
  | extended (name payload : List UInt8) (hname : ∀ b ∈ name, ¬ Payload.endsName b)
    (hend : ∀ b v, payload ++ [Payload.closing] = b :: v → Payload.endsName b)
    (hclose : Payload.Closes payload) :
    Spells .extended (Keywords.standardMeaning (Utf8.decodeLossy name) payload)
      (name ++ (payload ++ [Payload.closing]))
  /-- The size counts the code, the body and the closing brace. -/
  | framed (size : Int32) (code : UInt16) (body : List UInt8) (hsize : 3 ≤ size.toInt)
    (hbody : body.length = size.toInt.toNat - 3) :
    Spells .framed (.unrecognized (frameName code))
      (Width.long.bytes size ++ (unitBytes code ++ (body ++ [frameEnd])))

/-- An operand is a weight, or it is refused for what it is. -/
theorem Operand.lineWeight_cases (payload : List UInt8) :
    (∃ n, lineWeight payload = .ok (.weight n)) ∨
      ∃ fault, lineWeight payload = .error (.invalidOperand lineWeightName fault) := by
  unfold lineWeight
  cases Utf8.decode payload with
  | error fault => exact .inr ⟨.encoding fault, rfl⟩
  | ok text =>
    simp only
    cases Numeral.parse (Blank.trim Blank.isUnicode text) with
    | error fault => exact .inr ⟨.numeral (String.ofList text) fault, rfl⟩
    | ok value => exact .inl ⟨value, rfl⟩

theorem Keywords.not_isDrawing_standardMeaning (name : String) (payload : List UInt8) :
    ¬ (standardMeaning name payload).isDrawing := by
  unfold standardMeaning
  split
  · rcases Operand.lineWeight_cases (Blank.trim Blank.isAscii payload) with ⟨n, hn⟩ | ⟨fault, hf⟩
    · simp [hn, Opcode.isDrawing]
    · simp [hf, Opcode.isDrawing]
  · exact Bool.false_ne_true

/-- No keyword of the standard dialect lets an error through. -/
theorem Keywords.interpret_standard (name : String) (payload : List UInt8) :
    Keywords.standard.interpret name payload = .ok (standardMeaning name payload) := by
  have hfind : Keywords.standard.find? name =
      if name = Operand.lineWeightName then some Operand.lineWeight else none := by
    change (Table.insert .empty Operand.lineWeightName Operand.lineWeight).find? name = _
    rw [Table.find?_insert, Table.find?_empty]
  unfold interpret standardMeaning
  rw [hfind]
  by_cases h : name = Operand.lineWeightName
  · simp only [if_pos h]
    rcases Operand.lineWeight_cases (Blank.trim Blank.isAscii payload) with ⟨n, hn⟩ | ⟨fault, hf⟩
    · simp only [hn]
    · simp only [hf]
  · simp only [if_neg h]

namespace Scan
open VectorStream.Language

theorem reads_payload :
    payload.Reads fun bytes w => Payload.Closes bytes ∧ w = bytes ++ [Payload.closing] where
  accepts := by
    rintro bytes w ⟨h, rfl⟩ offset rest
    simp [payload, Payload.split_append h, Nat.add_assoc]
  sound := by
    intro c bytes d h
    unfold payload at h
    split at h
    · rename_i hs
      cases h
      obtain ⟨hr, hc⟩ := Payload.split_eq_some_iff.1 hs
      exact ⟨_, ⟨hc, rfl⟩, by simp [hr]⟩
    · cases h
  stuck := by
    intro c e d h
    unfold payload at h
    split at h
    · cases h
    · rename_i hs
      cases h
      obtain ⟨t, ht⟩ := Payload.exists_closes hs
      exact iff_of_true rfl ⟨_, _, ⟨ht, rfl⟩, t ++ [Payload.closing], by simp⟩

end Scan

namespace Form
open Scan VectorStream.Language

/-- A list of points that a count announces. -/
theorem reads_counted {w : Width} (make : List (Point w) → Opcode) :
    (Scan.count >>= fun n => points w n >>= fun ps => pure (make ps)).Reads fun op bytes =>
      ∃ ps : List (Point w), Count.Legal ps.length ∧ op = make ps ∧
        bytes = Count.bytes ps.length ++ ps.flatMap Point.bytes := by
  obtain ⟨p⟩ : Nonempty (Point w) := inferInstance
  have h := reads_count.bind (fun n => (reads_points w n).map make) fun n _ _ =>
    ⟨_, _, List.replicate n p, rfl, List.length_replicate, rfl⟩
  apply h.congr
  intro op bytes
  constructor
  · rintro ⟨n, u, v, ⟨hn, rfl⟩, ⟨ps, rfl, rfl, rfl⟩, rfl⟩
    exact ⟨ps, hn, rfl, rfl⟩
  · rintro ⟨ps, hn, rfl, rfl⟩
    exact ⟨ps.length, _, _, ⟨hn, rfl⟩, ⟨ps, rfl, rfl, rfl⟩, rfl⟩

theorem reads_line (w : Width) :
    (point w >>= fun a => point w >>= fun b => pure (Opcode.shape w (.line a b))).Reads
      (Spells (.line w)) := by
  obtain ⟨p⟩ : Nonempty (Point w) := inferInstance
  have h := (reads_point w).bind
    (fun a => (reads_point w).map fun b => Opcode.shape w (.line a b))
    fun a _ _ => ⟨_, _, p, rfl, rfl⟩
  apply h.congr
  intro op bytes
  constructor
  · rintro ⟨a, u, v, rfl, ⟨b, rfl, rfl⟩, rfl⟩
    exact .line a b
  · rintro ⟨⟩
    exact ⟨_, _, _, rfl, ⟨_, rfl, rfl⟩, rfl⟩

theorem reads_triangles (w : Width) :
    (Scan.count >>= fun n => skip (n * (2 * w.size)) >>= fun _ =>
      pure (Opcode.unsupported (trianglesId w))).Reads (Spells (.triangles w)) := by
  have h := reads_count.bind
    (fun n => (reads_skip (n * (2 * w.size))).map fun _ => Opcode.unsupported (trianglesId w))
    fun n _ _ => ⟨_, List.replicate (n * (2 * w.size)) 0, (), rfl, List.length_replicate⟩
  apply h.congr
  intro op bytes
  constructor
  · rintro ⟨n, u, v, ⟨hn, rfl⟩, ⟨-, rfl, hv⟩, rfl⟩
    exact .triangles n hn v hv
  · rintro ⟨⟩
    exact ⟨_, _, _, ⟨‹_›, rfl⟩, ⟨(), rfl, ‹_›⟩, rfl⟩

theorem reads_textForm :
    (point .short >>= fun anchor => Scan.count >>= fun n => Scan.text n >>= fun content =>
      pure (Opcode.text anchor content)).Reads (Spells .text) := by
  have hbehind (anchor : Point .short) := reads_count.bind
    (fun n => (reads_text n).map fun content => Opcode.text anchor content)
    fun n _ _ => ⟨_, _, _, rfl, List.replicate n 0, rfl, List.length_replicate, rfl⟩
  have hlegal : Count.Legal 1 := ⟨by decide, by decide⟩
  have h := (reads_point .short).bind hbehind fun anchor _ _ =>
    ⟨_, _, 1, _, _, ⟨hlegal, rfl⟩, ⟨_, rfl, [0], rfl, rfl, rfl⟩, rfl⟩
  apply h.congr
  intro op bytes
  constructor
  · rintro ⟨anchor, u, v, rfl, ⟨n, u', v', ⟨hn, rfl⟩, ⟨-, rfl, units, rfl, rfl, rfl⟩, rfl⟩, rfl⟩
    exact .text anchor units hn
  · rintro ⟨⟩
    exact ⟨_, _, _, rfl, ⟨_, _, _, ⟨‹_›, rfl⟩, ⟨_, rfl, _, rfl, rfl, rfl⟩, rfl⟩, rfl⟩

theorem reads_color :
    (byte >>= fun red => byte >>= fun green => byte >>= fun blue => byte >>= fun alpha =>
      pure (Opcode.color ⟨red, green, blue, alpha⟩)).Reads (Spells .color) := by
  have hblue (red green blue : UInt8) :=
    reads_byte.map fun alpha => Opcode.color ⟨red, green, blue, alpha⟩
  have hgreen (red green : UInt8) := reads_byte.bind (hblue red green) fun _ _ _ =>
    ⟨_, _, 0, rfl, rfl⟩
  have hred (red : UInt8) := reads_byte.bind (hgreen red) fun _ _ _ =>
    ⟨_, _, 0, _, _, rfl, ⟨0, rfl, rfl⟩, rfl⟩
  have h := reads_byte.bind hred fun _ _ _ =>
    ⟨_, _, 0, _, _, rfl, ⟨0, _, _, rfl, ⟨0, rfl, rfl⟩, rfl⟩, rfl⟩
  apply h.congr
  intro op bytes
  constructor
  · rintro ⟨r, _, _, rfl, ⟨g, _, _, rfl, ⟨b, _, _, rfl, ⟨a, rfl, rfl⟩, rfl⟩, rfl⟩, rfl⟩
    exact .color ⟨r, g, b, a⟩
  · rintro ⟨⟩
    exact ⟨_, _, _, rfl, ⟨_, _, _, rfl, ⟨_, _, _, rfl, ⟨_, rfl, rfl⟩, rfl⟩, rfl⟩, rfl⟩

/-- A frame that ends with another byte than a brace has no words; no byte at all is still the
beginning of one. -/
theorem reads_frameEnd (start : Nat) (op : Opcode) :
    (byte >>= fun close => if close = frameEnd then pure op
      else throw (.malformed start (.unclosedFrame close))).Reads
      fun o w => o = op ∧ w = [frameEnd] := by
  have h := reads_byte.bind_of_begins
    (f := fun close => if close = frameEnd then pure op
      else throw (.malformed start (.unclosedFrame close)))
    (fun close => .guard (fun _ => .pure op) rfl)
    (by
      rintro close u p rfl hp hne
      have hnil : p = [] := by
        rcases List.prefix_cons_iff.1 hp with hnil | ⟨t, rfl, ht⟩
        · exact hnil
        · exact absurd (by rw [List.prefix_nil.1 ht]) hne
      exact ⟨frameEnd, _, rfl, hnil ▸ List.nil_prefix, op, [], rfl, rfl, rfl⟩)
  apply h.congr
  intro o w
  constructor
  · rintro ⟨close, u, v, rfl, ⟨rfl, rfl, rfl⟩, rfl⟩
    exact ⟨rfl, rfl⟩
  · rintro ⟨rfl, rfl⟩
    exact ⟨frameEnd, _, [], rfl, ⟨rfl, rfl, rfl⟩, rfl⟩

/-- What stands behind the size of a frame. -/
theorem reads_frameBody (start size : Nat) :
    (word >>= fun code => skip size >>= fun _ => byte >>= fun close =>
      if close = frameEnd then pure (Opcode.unrecognized (frameName code))
      else throw (.malformed start (.unclosedFrame close))).Reads
      fun op w => ∃ code body, body.length = size ∧ op = .unrecognized (frameName code) ∧
        w = unitBytes code ++ (body ++ [frameEnd]) := by
  have hskip (code : UInt16) := (reads_skip size).bind
    (fun _ => reads_frameEnd start (.unrecognized (frameName code)))
    fun _ _ _ => ⟨_, _, rfl, rfl⟩
  have h := reads_word.bind hskip fun code _ _ =>
    ⟨_, _, (), List.replicate size 0, _, List.length_replicate, ⟨rfl, rfl⟩, rfl⟩
  apply h.congr
  intro op w
  constructor
  · rintro ⟨code, u, v, rfl, ⟨-, body, v', hbody, ⟨rfl, rfl⟩, rfl⟩, rfl⟩
    exact ⟨code, body, hbody, rfl, rfl⟩
  · rintro ⟨code, body, hbody, rfl, rfl⟩
    exact ⟨code, _, _, rfl, ⟨(), body, _, hbody, ⟨rfl, rfl⟩, rfl⟩, rfl⟩

/-- A size field that is cut short can be completed to a size that is large enough. -/
theorem exists_size {size : Int32} {p : List UInt8} (hp : p <+: Width.long.bytes size)
    (hne : p ≠ Width.long.bytes size) :
    ∃ size' : Int32, 3 ≤ size'.toInt ∧ p <+: Width.long.bytes size' := by
  have hlen : (Width.long.bytes size).length = 4 := LittleEndian.length_bytes _ _
  have hlt : p.length < 4 := by
    have hle := hp.length_le
    have hne' : p.length ≠ 4 := fun k => hne (hp.eq_of_length (by rw [k, hlen]))
    omega
  -- The high byte is set to one, so that the size is neither negative nor below the limit.
  let low := p ++ List.replicate (3 - p.length) (0 : UInt8)
  have hlow : low.length = 3 := by simp [low]; omega
  have hvalue : LittleEndian.value (low ++ [1]) = LittleEndian.value low + 256 ^ 3 := by
    rw [LittleEndian.value_append, hlow]
    rfl
  have hlowlt : LittleEndian.value low < 256 ^ 3 := hlow ▸ LittleEndian.value_lt low
  have hbytes : Width.long.bytes (Int32.ofNat (LittleEndian.value (low ++ [1]))) = low ++ [1] := by
    have hto := Width.long.toWord_ofWord (n := LittleEndian.value (low ++ [1]))
      (by rw [hvalue]; change _ < 256 ^ 4; omega)
    change LittleEndian.bytes 4 (Width.long.toWord (Width.long.ofWord _)) = _
    rw [hto, show 4 = (low ++ [1]).length by simp [hlow], LittleEndian.bytes_value]
  refine ⟨Int32.ofNat (LittleEndian.value (low ++ [1])), ?_, ?_⟩
  · rw [Int32.toInt_ofNat_of_lt (by omega)]
    omega
  · rw [hbytes, List.append_assoc]
    exact List.prefix_append _ _

theorem reads_sizedFrame (start : Nat) (size : Int32) :
    Reads (if size.toInt < 3 then throw (.malformed start (.shortFrame size))
      else word >>= fun code => skip (size.toInt.toNat - 3) >>= fun _ => byte >>= fun close =>
        if close = frameEnd then pure (Opcode.unrecognized (frameName code))
        else throw (.malformed start (.unclosedFrame close)))
      fun op w => ¬ size.toInt < 3 ∧ ∃ code body, body.length = size.toInt.toNat - 3 ∧
        op = .unrecognized (frameName code) ∧ w = unitBytes code ++ (body ++ [frameEnd]) := by
  rw [← ite_not]
  exact .guard (fun _ => reads_frameBody start (size.toInt.toNat - 3)) rfl

/-- The fields of a frame, with its flaws reported at a given place. -/
def frameFrom (start : Nat) : Scan Opcode := do
  let size ← coord .long
  if size.toInt < 3 then throw (.malformed start (.shortFrame size))
  else
    let code ← word
    skip (size.toInt.toNat - 3)
    let close ← byte
    if close = frameEnd then return .unrecognized (frameName code)
    else throw (.malformed start (.unclosedFrame close))

theorem reads_frameFrom (start : Nat) : (frameFrom start).Reads (Spells .framed) := by
  have h := (reads_coord .long).bind_of_begins (reads_sizedFrame start) (by
    rintro size u p rfl hp hne
    obtain ⟨size', hsize, hp'⟩ := exists_size hp hne
    exact ⟨size', _, rfl, hp', _, _, by omega, 0, List.replicate _ 0, List.length_replicate, rfl,
      rfl⟩)
  apply h.congr
  intro op bytes
  constructor
  · rintro ⟨size, u, v, rfl, ⟨hsize, code, body, hb, rfl, rfl⟩, rfl⟩
    exact .framed size code body (by omega) hb
  · rintro ⟨⟩
    rename_i size code body hsize hb
    exact ⟨size, _, _, rfl, ⟨by omega, code, body, hb, rfl, rfl⟩, rfl⟩

theorem reads_readFramed : readFramed.Reads (Spells .framed) :=
  Reads.get_bind fun c => reads_frameFrom (c.offset - 1)

theorem reads_readExtended : (readExtended .standard).Reads (Spells .extended) := by
  have htail (name : List UInt8) : (payload >>= fun bytes =>
      ofResult (Keywords.standard.interpret (Utf8.decodeLossy name) bytes)).Reads
      fun op w => ∃ bytes, Keywords.standardMeaning (Utf8.decodeLossy name) bytes = op ∧
        Payload.Closes bytes ∧ w = bytes ++ [Payload.closing] := by
    have h := reads_payload.map (Keywords.standardMeaning (Utf8.decodeLossy name))
    simp only [Keywords.interpret_standard]
    exact h
  have h := Reads.takeWhile_bind (p := fun b => !Payload.endsName b) htail
    (by
      rintro name op ⟨bytes, -, -, hw⟩
      simp at hw)
    (fun name => ⟨_, _, _, ⟨[], rfl, Payload.closes_nil, rfl⟩, by decide⟩)
  apply h.congr
  intro op w
  constructor
  · rintro ⟨name, x, v, hname, hx, ⟨bytes, rfl, hclose, hv⟩, rfl⟩
    rw [hv]
    refine .extended name bytes (by simpa using hname) ?_ hclose
    intro b u hb
    rw [← hv] at hb
    cases hb
    simpa using hx
  · rintro ⟨⟩
    rename_i name bytes hname hend hclose
    obtain ⟨x, v, hv⟩ : ∃ x v, bytes ++ [Payload.closing] = x :: v :=
      List.exists_cons_of_ne_nil (by simp)
    refine ⟨name, x, v, by simpa using hname, ?_, ⟨bytes, rfl, hclose, hv.symm⟩, by rw [hv]⟩
    simpa using hend x v hv

/-- Each form of the standard dialect reads the words that its rule gives. -/
theorem reads_read (form : Form) : (form.read .standard).Reads form.Spells := by
  cases form with
  | line w => exact reads_line w
  | polyline w =>
    apply (reads_counted (w := w) fun ps => Opcode.shape w (.polyline ps)).congr
    intro op bytes
    constructor
    · rintro ⟨ps, h, rfl, rfl⟩
      exact .polyline ps h
    · rintro ⟨⟩
      exact ⟨_, ‹_›, rfl, rfl⟩
  | markers w =>
    apply (reads_counted (w := w) fun ps => Opcode.shape w (.markers ps)).congr
    intro op bytes
    constructor
    · rintro ⟨ps, h, rfl, rfl⟩
      exact .markers ps h
    · rintro ⟨⟩
      exact ⟨_, ‹_›, rfl, rfl⟩
  | triangles w => exact reads_triangles w
  | text => exact reads_textForm
  | moveTo =>
    apply ((reads_point .short).map Opcode.moveTo).congr
    intro op bytes
    constructor
    · rintro ⟨p, rfl, rfl⟩
      exact .moveTo p
    · rintro ⟨⟩
      exact ⟨_, rfl, rfl⟩
  | weight =>
    apply ((reads_coord .short).map Opcode.weight).congr
    intro op bytes
    constructor
    · rintro ⟨n, rfl, rfl⟩
      exact .weight n
    · rintro ⟨⟩
      exact ⟨_, rfl, rfl⟩
  | colorIndex =>
    apply (reads_byte.map Opcode.colorIndex).congr
    intro op bytes
    constructor
    · rintro ⟨i, rfl, rfl⟩
      exact .colorIndex i
    · rintro ⟨⟩
      exact ⟨_, rfl, rfl⟩
  | color => exact reads_color
  | visibility on =>
    apply (Reads.pure (Opcode.visibility on)).congr
    intro op bytes
    constructor
    · rintro ⟨rfl, rfl⟩
      exact .visibility on
    · rintro ⟨⟩
      exact ⟨rfl, rfl⟩
  | extended => exact reads_readExtended
  | framed => exact reads_readFramed

end Form

/-- An id byte of the standard dialect and a word of its form. -/
inductive Instruction : Language Opcode
  | intro {id : UInt8} {form : Form} (hid : (id, form) ∈ Dialect.standardForms) {op : Opcode}
    {w : List UInt8} (hw : form.Spells op w) : Instruction op (id :: w)

namespace Dialect

theorem nodup_standardForms : (standardForms.map (·.1)).Nodup := by decide

theorem form_unique {id : UInt8} {form form' : Form} (h : (id, form) ∈ standardForms)
    (h' : (id, form') ∈ standardForms) : form = form' := by
  have hall : ∀ e ∈ standardForms, ∀ e' ∈ standardForms, e.1 = e'.1 → e.2 = e'.2 := by decide
  exact hall _ h _ h' rfl

theorem layout?_standard {id : UInt8} {layout : Layout} :
    standard.layout? id = some layout ↔
      ∃ form, (id, form) ∈ standardForms ∧ form.layout = layout := by
  have hnodup : ((standardForms.map fun e => (e.1, e.2.layout)).map (·.1)).Nodup := by
    rw [List.map_map]
    exact nodup_standardForms
  refine (Table.find?_ofList hnodup).trans ?_
  simp only [List.mem_map, Prod.mk.injEq, Prod.exists]
  constructor
  · rintro ⟨id', form, h, rfl, rfl⟩
    exact ⟨form, h, rfl⟩
  · rintro ⟨form, h, rfl⟩
    exact ⟨id, form, h, rfl, rfl⟩

theorem item_of_mem {id : UInt8} {form : Form} (h : (id, form) ∈ standardForms) (offset : Nat)
    (rest : List UInt8) :
    standard.item ⟨offset, id :: rest⟩ = form.read .standard ⟨offset + 1, rest⟩ := by
  simp only [item, layout?_standard.2 ⟨form, h, rfl⟩]
  rfl

theorem item_of_not_mem {id : UInt8} (h : ∀ form, (id, form) ∉ standardForms) (offset : Nat)
    (rest : List UInt8) :
    standard.item ⟨offset, id :: rest⟩ =
      .error (.unknownOpcode id offset) ⟨offset, id :: rest⟩ := by
  have hnone : standard.layout? id = none := by
    rw [Option.eq_none_iff_forall_ne_some]
    intro layout k
    obtain ⟨form, hmem, -⟩ := layout?_standard.1 k
    exact h form hmem
  simp only [item, hnone]

theorem begins_cons {id : UInt8} {form : Form} (h : (id, form) ∈ standardForms)
    (rest : List UInt8) :
    Language.Begins Instruction (id :: rest) ↔ form.Spells.Begins rest := by
  constructor
  · rintro ⟨op, _, ⟨hid, hw⟩, hp⟩
    obtain ⟨rfl, hr⟩ := List.cons_prefix_cons.1 hp
    obtain rfl := form_unique h hid
    exact ⟨op, _, hw, hr⟩
  · rintro ⟨op, w, hw, hp⟩
    exact ⟨op, id :: w, .intro h hw, List.cons_prefix_cons.2 ⟨rfl, hp⟩⟩

/-- The items of the standard dialect are its instructions. -/
theorem reads_item : Scan.Reads standard.item Instruction where
  accepts := by
    rintro op _ ⟨hid, hw⟩ offset rest
    rw [List.cons_append, item_of_mem hid, (Form.reads_read _).accepts hw, List.length_cons,
      Nat.add_assoc, Nat.add_comm 1]
  sound := by
    rintro ⟨offset, bytes⟩ op d h
    cases bytes with
    | nil => cases h
    | cons id rest =>
      by_cases hid : ∃ form, (id, form) ∈ standardForms
      · obtain ⟨form, hid⟩ := hid
        rw [item_of_mem hid] at h
        obtain ⟨w, hw, hr⟩ := (Form.reads_read form).sound h
        exact ⟨id :: w, .intro hid hw, congrArg (id :: ·) hr⟩
      · rw [item_of_not_mem (not_exists.1 hid)] at h
        cases h
  stuck := by
    rintro ⟨offset, bytes⟩ e d h
    cases bytes with
    | nil =>
      cases h
      have hid : (0x56, Form.visibility true) ∈ standardForms := by decide
      exact iff_of_true rfl (Language.begins_nil ⟨_, _, .intro hid (.visibility true)⟩)
    | cons id rest =>
      by_cases hid : ∃ form, (id, form) ∈ standardForms
      · obtain ⟨form, hid⟩ := hid
        rw [item_of_mem hid] at h
        rw [(Form.reads_read form).stuck h, begins_cons hid]
      · rw [item_of_not_mem (not_exists.1 hid)] at h
        cases h
        refine iff_of_false (by simp [StreamError.isTruncated]) ?_
        rintro ⟨op, _, ⟨hid', hw⟩, hp⟩
        obtain ⟨rfl, -⟩ := List.cons_prefix_cons.1 hp
        exact hid ⟨_, hid'⟩

end Dialect

end VectorStream
