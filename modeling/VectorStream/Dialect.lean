import VectorStream.Form

/-!
# Dialects

A dialect assigns layouts to id bytes and operands to keywords. The standard dialect has the
built-in forms; other layouts may be entered beside them as long as they only move forward.
-/
namespace VectorStream
open Text

/-- A way to read the fields behind an id byte. Of the dialect in which it is entered a layout is
given the keywords only, since no built-in form looks at anything else there. Whoever enters a layout
answers for it that it does not move backward. -/
structure Layout where
  read : Keywords → Scan Opcode
  forward : ∀ keywords, (read keywords).Forward

def Form.layout (form : Form) : Layout := ⟨fun k => form.read k, fun k => form.forward_read k⟩

structure Dialect where
  layouts : Table UInt8 Layout
  keywords : Keywords

namespace Dialect

/-- The dialect that knows no opcode. -/
def empty : Dialect := ⟨.empty, .empty⟩

/-- The ids of the built-in forms. -/
def standardForms : List (UInt8 × Form) :=
  [(0x03, .color), (0x0C, .line .long), (0x0D, .markers .long), (0x10, .polyline .long),
    (0x14, .triangles .short), (0x17, .weight), (0x28, .extended), (0x4F, .moveTo),
    (0x56, .visibility true), (0x63, .colorIndex), (0x6C, .line .short), (0x70, .polyline .short),
    (0x74, .triangles .long), (0x76, .visibility false), (0x78, .text), (0x7B, .framed),
    (0x8D, .markers .short)]

def standard : Dialect :=
  ⟨.ofList (standardForms.map fun e => (e.1, e.2.layout)), .standard⟩

def layout? (d : Dialect) (id : UInt8) : Option Layout := d.layouts.find? id

def register (d : Dialect) (id : UInt8) (layout : Layout) : Dialect :=
  { d with layouts := d.layouts.insert id layout }

def registerKeyword (d : Dialect) (name : String) (operand : Operand) : Dialect :=
  { d with keywords := d.keywords.insert name operand }

/-- The registered ids in ascending order. -/
def ids (d : Dialect) : List UInt8 := d.layouts.keys (· ≤ ·)

/-- The keywords in ascending order of their characters. -/
def keywordNames (d : Dialect) : List String := d.keywords.keys (· ≤ ·)

/-- One line that lists what is registered. -/
def summary (d : Dialect) : String :=
  "OpcodeRegistry \x7b ids: [" ++ ", ".intercalate (d.ids.map fun id => Decimal.ofNat id.toNat)
    ++ "], keywords: [" ++ ", ".intercalate (d.keywordNames.map Quoted.quote) ++ "] \x7d"

/-- Reads one opcode whose id is the next byte. An id without a layout stays unread. -/
def item (d : Dialect) : Scan Opcode := fun c =>
  match c.rest with
  | [] => .error (.truncated c.offset) c
  | id :: rest =>
    match d.layout? id with
    | none => .error (.unknownOpcode id c.offset) c
    | some layout => layout.read d.keywords ⟨c.offset + 1, rest⟩

/-- An opcode that is read takes at least one byte. -/
theorem length_rest_lt_of_item {d : Dialect} {c c' : Cursor} {op : Opcode}
    (h : d.item c = .ok op c') : c'.rest.length < c.rest.length := by
  obtain ⟨offset, rest⟩ := c
  unfold item at h
  cases rest with
  | nil => simp at h
  | cons id rest =>
    simp only at h
    split at h
    · cases h
    · rename_i layout _
      have k := layout.forward d.keywords ⟨offset + 1, rest⟩
      rw [h] at k
      exact Nat.lt_succ_of_le k.length_le

end Dialect

end VectorStream
