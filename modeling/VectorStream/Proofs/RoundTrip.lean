import VectorStream.Proofs.Tokens
import VectorStream.Proofs.Utf16

/-!
# Round trips

A writer puts the opcodes of single-byte forms into a stream, with separators before, between and
behind them. The stream is decoded into the same opcodes unless there are long markers among them:
their id byte is a carriage return, which a decoder skips in front of an opcode.
-/
namespace VectorStream
open Text

/-- The id byte that the standard dialect gives to a form. -/
def Form.id : Form → UInt8
  | color => 0x03
  | line .long => 0x0C
  | markers .long => 0x0D
  | polyline .long => 0x10
  | triangles .short => 0x14
  | weight => 0x17
  | extended => 0x28
  | moveTo => 0x4F
  | visibility true => 0x56
  | colorIndex => 0x63
  | line .short => 0x6C
  | polyline .short => 0x70
  | triangles .long => 0x74
  | visibility false => 0x76
  | text => 0x78
  | framed => 0x7B
  | markers .short => 0x8D

namespace Form

theorem id_mem_standardForms (form : Form) : (form.id, form) ∈ Dialect.standardForms := by
  cases form with
  | line w => cases w <;> decide
  | polyline w => cases w <;> decide
  | markers w => cases w <;> decide
  | triangles w => cases w <;> decide
  | visibility on => cases on <;> decide
  | text | moveTo | weight | colorIndex | color | extended | framed => decide

theorem id_of_mem {id : UInt8} {form : Form} (h : (id, form) ∈ Dialect.standardForms) :
    id = form.id := by
  have hall : ∀ e ∈ Dialect.standardForms, e.1 = e.2.id := by decide
  exact hall _ h

/-- Triangles are reported under the id of their form. -/
theorem trianglesId_eq_id (w : Width) : trianglesId w = (triangles w).id := by
  cases w <;> rfl

/-- Only the form of long markers has a separator for its id. -/
theorem isSeparator_id_iff (form : Form) : Blank.isSeparator form.id ↔ form = markers .long := by
  have hall : ∀ e ∈ Dialect.standardForms, Blank.isSeparator e.1 ↔ e.2 = markers .long := by decide
  exact hall _ form.id_mem_standardForms

end Form

/-- An opcode that can be written, with the vertices that are lost when it is read. Lists and texts
have a length that a count can announce. -/
inductive Record where
  | visibility (on : Bool)
  | moveTo (position : Point .short)
  | weight (value : Int16)
  | line {w : Width} (start finish : Point w)
  | polyline {w : Width} (points : List (Point w)) (h : Count.Legal points.length)
  | markers {w : Width} (points : List (Point w)) (h : Count.Legal points.length)
  | triangles {w : Width} (vertices : List (Point w)) (h : Count.Legal vertices.length)
  | text (anchor : Point .short) (content : String) (h : Count.Legal (Utf16.encode content).length)
  | colorIndex (index : UInt8)
  | color (value : Color)

namespace Record

def opcode : Record → Opcode
  | visibility on => .visibility on
  | moveTo p => .moveTo p
  | weight v => .weight v
  | @line w a b => .shape w (.line a b)
  | @polyline w ps _ => .shape w (.polyline ps)
  | @markers w ps _ => .shape w (.markers ps)
  | @triangles w _ _ => .unsupported (Form.trianglesId w)
  | text anchor content _ => .text anchor content
  | colorIndex i => .colorIndex i
  | color c => .color c

def form : Record → Form
  | visibility on => .visibility on
  | moveTo _ => .moveTo
  | weight _ => .weight
  | @line w _ _ => .line w
  | @polyline w _ _ => .polyline w
  | @markers w _ _ => .markers w
  | @triangles w _ _ => .triangles w
  | text .. => .text
  | colorIndex _ => .colorIndex
  | color _ => .color

/-- Points behind their count. -/
def counted {w : Width} (ps : List (Point w)) : List UInt8 :=
  Count.bytes ps.length ++ ps.flatMap Point.bytes

/-- What is written behind the id byte. -/
def payload : Record → List UInt8
  | visibility _ => []
  | moveTo p => p.bytes
  | weight v => Width.short.bytes v
  | line a b => a.bytes ++ b.bytes
  | polyline ps _ => counted ps
  | markers ps _ => counted ps
  | triangles vs _ => counted vs
  | text anchor content _ =>
    let units := Utf16.encode content
    anchor.bytes ++ (Count.bytes units.length ++ units.flatMap unitBytes)
  | colorIndex i => [i]
  | color c => [c.red, c.green, c.blue, c.alpha]

def bytes (r : Record) : List UInt8 := r.form.id :: r.payload

/-- A payload is a word of the form. -/
theorem spells (r : Record) : r.form.Spells r.opcode r.payload := by
  cases r with
  | visibility on => exact .visibility on
  | moveTo p => exact .moveTo p
  | weight v => exact .weight v
  | line a b => exact .line a b
  | polyline ps h => exact .polyline ps h
  | markers ps h => exact .markers ps h
  | triangles vs h => exact .triangles vs.length h _ (length_flatMap_bytes Point.length_bytes vs)
  | text anchor content h =>
    have hread := Form.Spells.text anchor (Utf16.encode content) h
    rw [Utf16.decodeLossy_encode] at hread
    exact hread
  | colorIndex i => exact .colorIndex i
  | color c => exact .color c

theorem instruction (r : Record) : Instruction r.opcode r.bytes :=
  .intro r.form.id_mem_standardForms r.spells

theorem form_eq_markers_iff (r : Record) :
    r.form = .markers .long ↔ ∃ ps, r.opcode = .shape .long (.markers ps) := by
  cases r with
  | @line w a b => cases w <;> simp [form, opcode]
  | @polyline w ps h => cases w <;> simp [form, opcode]
  | @markers w ps h => cases w <;> simp [form, opcode]
  | _ => simp [form, opcode]

end Record

/-- Separators in a row. -/
structure Gap where
  run : List UInt8
  separators : ∀ b ∈ run, Blank.isSeparator b

/-- Records with a gap in front and a gap behind each. -/
def Record.stream (front : Gap) (records : List (Record × Gap)) : List UInt8 :=
  front.run ++ records.flatMap fun r => r.1.bytes ++ r.2.run

namespace Token

theorem exists_instruction {op : Opcode} {tokens : List Token} (h : op ∈ opcodes tokens) :
    ∃ id payload, ¬ Blank.isSeparator id ∧ Instruction op (id :: payload) := by
  obtain ⟨t, -, ht⟩ := List.mem_filterMap.1 h
  cases t with
  | separator b hb => cases ht
  | instruction id payload op' hid hop =>
    obtain rfl := Option.some.inj ht
    exact ⟨id, payload, hid, hop⟩

/-- Records whose ids are no separators are tokens. -/
theorem exists_records {records : List (Record × Gap)}
    (h : ∀ r ∈ records, ¬ Blank.isSeparator r.1.form.id) :
    ∃ tokens, text tokens = records.flatMap (fun r => r.1.bytes ++ r.2.run) ∧
      opcodes tokens = records.map (·.1.opcode) := by
  induction records with
  | nil => exact ⟨[], rfl, rfl⟩
  | cons r records ih =>
    obtain ⟨hid, hrest⟩ := List.forall_mem_cons.1 h
    obtain ⟨tokens, ht, ho⟩ := ih hrest
    obtain ⟨gap, hg, hgo⟩ := exists_separators r.2.separators
    let t := instruction r.1.form.id r.1.payload r.1.opcode hid r.1.instruction
    refine ⟨t :: (gap ++ tokens), ?_, ?_⟩
    · simp [ht, hg, t, bytes, Record.bytes]
    · have hop : opcodes (t :: (gap ++ tokens)) = r.1.opcode :: opcodes (gap ++ tokens) := rfl
      rw [hop, opcodes_append, hgo, ho, List.nil_append, List.map_cons]

end Token

namespace Form

/-- Long markers are read in their own form only. -/
theorem Spells.eq_markers {form : Form} {w : List UInt8} {ps : List (Point .long)}
    (h : form.Spells (.shape .long (.markers ps)) w) : form = Form.markers .long := by
  generalize hop : Opcode.shape .long (.markers ps) = op at h
  cases h with
  | markers ps' h =>
    cases hop
    rfl
  | extended name payload hname hend hclose =>
    have hdraw : (Opcode.shape .long (.markers ps)).isDrawing := rfl
    rw [hop] at hdraw
    exact absurd hdraw (Keywords.not_isDrawing_standardMeaning _ _)
  | _ => cases hop

end Form

namespace Dialect

/-- What is decoded was spelled in a form whose id is no separator. -/
theorem exists_spells_of_decode {data : List UInt8} {ops : List Opcode}
    (h : standard.decode data = .ok ops) {op : Opcode} (hop : op ∈ ops) :
    ∃ (form : Form) (w : List UInt8), ¬ Blank.isSeparator form.id ∧ form.Spells op w := by
  obtain ⟨tokens, -, rfl⟩ := exists_text_of_decode h
  obtain ⟨id, payload, hid, hinstruction⟩ := Token.exists_instruction hop
  cases hinstruction with
  | @intro _ form hform _ _ hw =>
    rw [Form.id_of_mem hform] at hid
    exact ⟨form, payload, hid, hw⟩

/-- A decoder never yields long markers. -/
theorem long_markers_notMem_decode {data : List UInt8} {ops : List Opcode}
    (h : standard.decode data = .ok ops) (ps : List (Point .long)) :
    Opcode.shape .long (.markers ps) ∉ ops := by
  intro hmem
  obtain ⟨form, w, hid, hw⟩ := exists_spells_of_decode h hmem
  exact hid (form.isSeparator_id_iff.2 hw.eq_markers)

/-- What is written is read back exactly if there are no long markers in it. -/
theorem decode_stream_iff (front : Gap) (records : List (Record × Gap)) :
    standard.decode (Record.stream front records) = .ok (records.map (·.1.opcode)) ↔
      ∀ ps, Opcode.shape .long (.markers ps) ∉ records.map (·.1.opcode) := by
  constructor
  · exact long_markers_notMem_decode
  · intro hnone
    have hids : ∀ r ∈ records, ¬ Blank.isSeparator r.1.form.id := by
      intro r hr hid
      obtain ⟨ps, hps⟩ := r.1.form_eq_markers_iff.1 ((Form.isSeparator_id_iff _).1 hid)
      exact hnone ps (List.mem_map.2 ⟨r, hr, hps⟩)
    obtain ⟨gap, hg, hgo⟩ := Token.exists_separators front.separators
    obtain ⟨tokens, ht, ho⟩ := Token.exists_records hids
    have hdecode := decode_text (gap ++ tokens)
    rw [Token.text_append, hg, ht, Token.opcodes_append, hgo, ho, List.nil_append] at hdecode
    exact hdecode

/-- A single long marker at the origin is not read back: its count is taken for an id byte. -/
theorem decode_stream_long_marker :
    let origin : Point .long := ⟨(0 : Int32), (0 : Int32)⟩
    let marker : Record := .markers [origin] ⟨by decide, by decide⟩
    let gap : Gap := ⟨[], List.forall_mem_nil _⟩
    Record.stream gap [(marker, gap)] = [0x0D, 1, 0, 0, 0, 0, 0, 0, 0, 0] ∧
      standard.decode (Record.stream gap [(marker, gap)]) = .error (.unknownOpcode 0x01 1) ∧
      standard.decode (Record.stream gap [(marker, gap)]) ≠ .ok [marker.opcode] := by
  intro origin marker gap
  have hbytes : Record.stream gap [(marker, gap)] = [0x0D, 1, 0, 0, 0, 0, 0, 0, 0, 0] := by decide
  have hrun : Run .standard (.start [0x0D, 1, 0, 0, 0, 0, 0, 0, 0, 0]) []
      (some (.unknownOpcode 0x01 1)) ⟨1, [1, 0, 0, 0, 0, 0, 0, 0, 0]⟩ :=
    .separator (by decide) (.halt_of_head (by decide) rfl)
  rw [hbytes, decode_of_run hrun]
  refine ⟨rfl, rfl, ?_⟩
  intro h
  cases h

end Dialect

end VectorStream
