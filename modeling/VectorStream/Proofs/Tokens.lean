import VectorStream.Proofs.Grammar
import VectorStream.Proofs.Run

/-!
# Tokens of a stream

A token is a separator or an instruction whose id byte is no separator. A decoder of the standard
dialect accepts the texts of token lists and yields their opcodes, and a text has one token list
only. Where a decoder fails, tokens stand in front of the instruction that it fails at.
-/
namespace VectorStream
open Text

inductive Token where
  | separator (byte : UInt8) (h : Blank.isSeparator byte)
  | instruction (id : UInt8) (payload : List UInt8) (op : Opcode) (hid : ¬ Blank.isSeparator id)
    (h : Instruction op (id :: payload))

namespace Token

def bytes : Token → List UInt8
  | separator b _ => [b]
  | instruction id payload .. => id :: payload

def opcode? : Token → Option Opcode
  | separator .. => none
  | instruction _ _ op .. => some op

/-- The bytes of tokens in a row. -/
def text (tokens : List Token) : List UInt8 := tokens.flatMap bytes

/-- The opcodes that tokens stand for, in order. -/
def opcodes (tokens : List Token) : List Opcode := tokens.filterMap opcode?

@[simp] theorem text_nil : text [] = [] := rfl

@[simp] theorem text_cons (t : Token) (tokens : List Token) :
    text (t :: tokens) = t.bytes ++ text tokens := rfl

@[simp] theorem text_append (s t : List Token) : text (s ++ t) = text s ++ text t := by
  simp [text]

@[simp] theorem opcodes_append (s t : List Token) : opcodes (s ++ t) = opcodes s ++ opcodes t := by
  simp [opcodes]

@[simp] theorem opcodes_separator (b : UInt8) (h : Blank.isSeparator b) (tokens : List Token) :
    opcodes (separator b h :: tokens) = opcodes tokens := rfl

@[simp] theorem opcodes_instruction (id : UInt8) (payload : List UInt8) (op : Opcode)
    (hid : ¬ Blank.isSeparator id) (h : Instruction op (id :: payload)) (tokens : List Token) :
    opcodes (instruction id payload op hid h :: tokens) = op :: opcodes tokens := rfl

theorem exists_separators {run : List UInt8} (h : ∀ b ∈ run, Blank.isSeparator b) :
    ∃ tokens, text tokens = run ∧ opcodes tokens = [] := by
  induction run with
  | nil => exact ⟨[], rfl, rfl⟩
  | cons b run ih =>
    obtain ⟨hb, hrun⟩ := List.forall_mem_cons.1 h
    obtain ⟨tokens, ht, ho⟩ := ih hrun
    exact ⟨separator b hb :: tokens, by simp [ht, bytes], by simp [ho]⟩

/-- The first bytes of two token lists tell whether they start with the same token. -/
theorem text_injective {s t : List Token} (h : text s = text t) : s = t := by
  induction s generalizing t with
  | nil =>
    cases t with
    | nil => rfl
    | cons y t => cases y <;> simp [bytes] at h
  | cons x s ih =>
    cases t with
    | nil => cases x <;> simp [bytes] at h
    | cons y t =>
      rw [text_cons, text_cons] at h
      cases x with
      | separator b hb =>
        cases y with
        | separator b' hb' =>
          obtain ⟨rfl, hst⟩ := List.cons.inj h
          rw [ih hst]
        | instruction id' payload' op' hid' h' =>
          obtain ⟨rfl, -⟩ := List.cons.inj h
          exact absurd hb hid'
      | instruction id payload op hid hx =>
        cases y with
        | separator b' hb' =>
          obtain ⟨rfl, -⟩ := List.cons.inj h
          exact absurd hb' hid
        | instruction id' payload' op' hid' hy =>
          obtain ⟨rfl, hw, hst⟩ := Dialect.reads_item.unique hx hy h
          obtain ⟨rfl, rfl⟩ := List.cons.inj hw
          rw [ih hst]

end Token

/-- A decoder at the cursor yields nothing more: it is at the end, or it fails at the byte in
front, which is no separator. -/
def Stops (d : Dialect) (c : Cursor) : Option StreamError → Cursor → Prop
  | none, c' => c.rest = [] ∧ c' = c
  | some e, c' => (∃ id u, c.rest = id :: u ∧ ¬ Blank.isSeparator id) ∧ d.item c = .error e c'

theorem Stops.exists_head {d : Dialect} {offset : Nat} {rest : List UInt8} {e : StreamError}
    {c' : Cursor} (h : Stops d ⟨offset, rest⟩ (some e) c') :
    ∃ id u, rest = id :: u ∧ ¬ Blank.isSeparator id ∧
      d.item ⟨offset, id :: u⟩ = .error e c' := by
  obtain ⟨⟨id, u, hrest, hid⟩, hi⟩ := h
  have hrest' : rest = id :: u := hrest
  rw [hrest'] at hi
  exact ⟨id, u, hrest', hid, hi⟩

namespace Run
open Token
variable {c c' : Cursor} {ops : List Opcode} {stop : Option StreamError}

theorem of_stops {d : Dialect} (h : Stops d c stop c') : Run d c [] stop c' := by
  obtain ⟨offset, rest⟩ := c
  cases stop with
  | none =>
    obtain ⟨rfl, rfl⟩ := h
    exact .finish rfl
  | some e =>
    obtain ⟨id, u, rfl, hid, hi⟩ := h.exists_head
    exact .halt_of_head hid hi

/-- Tokens in front add their opcodes to a run. -/
theorem of_tokens (tokens : List Token) {offset : Nat} {rest : List UInt8}
    (h : Run .standard ⟨offset + (text tokens).length, rest⟩ ops stop c') :
    Run .standard ⟨offset, text tokens ++ rest⟩ (opcodes tokens ++ ops) stop c' := by
  induction tokens generalizing offset with
  | nil => exact h
  | cons t tokens ih =>
    rw [text_cons, List.length_append, ← Nat.add_assoc] at h
    rw [text_cons, List.append_assoc]
    cases t with
    | separator b hb => exact .separator hb (ih h)
    | instruction id payload op hid hop =>
      have hitem := Dialect.reads_item.accepts hop offset (text tokens ++ rest)
      exact .item_of_head hid hitem (ih h)

theorem of_text (tokens : List Token) (offset : Nat) :
    Run .standard ⟨offset, text tokens⟩ (opcodes tokens) none
      ⟨offset + (text tokens).length, []⟩ := by
  have hend : Run .standard ⟨offset + (text tokens).length, []⟩ [] none
      ⟨offset + (text tokens).length, []⟩ := .finish rfl
  have hrun := of_tokens tokens hend
  rw [List.append_nil, List.append_nil] at hrun
  exact hrun

/-- What a decoder skips is the text of separators. -/
theorem exists_skipped (c : Cursor) : ∃ tokens rest, c.rest = text tokens ++ rest ∧
    opcodes tokens = [] ∧
    c.skipWhile Blank.isSeparator = ⟨c.offset + (text tokens).length, rest⟩ ∧
    ∀ x v, rest = x :: v → ¬ Blank.isSeparator x := by
  obtain ⟨offset, bytes⟩ := c
  obtain ⟨run, rest, rfl, hrun, hx⟩ := Cursor.exists_run Blank.isSeparator bytes
  obtain ⟨tokens, rfl, ho⟩ := exists_separators hrun
  refine ⟨tokens, rest, rfl, ho, ?_, hx⟩
  rw [Cursor.skipWhile_append hrun, Cursor.skipWhile_of_head hx]

/-- Every run is over tokens up to the place where it stops. -/
theorem exists_tokens (h : Run .standard c ops stop c') :
    ∃ tokens rest, c.rest = text tokens ++ rest ∧ opcodes tokens = ops ∧
      Stops .standard ⟨c.offset + (text tokens).length, rest⟩ stop c' := by
  induction h with
  | @finish c h =>
    obtain ⟨tokens, rest, hc, ho, hskip, -⟩ := exists_skipped c
    rw [hskip] at h ⊢
    exact ⟨tokens, rest, hc, ho, h, rfl⟩
  | @halt c c' e h hi =>
    obtain ⟨tokens, rest, hc, ho, hskip, hx⟩ := exists_skipped c
    rw [hskip] at h hi
    obtain ⟨id, u, rfl⟩ := List.exists_cons_of_ne_nil h
    exact ⟨tokens, id :: u, hc, ho, ⟨id, u, rfl, hx id u rfl⟩, hi⟩
  | @item c c' c'' op ops stop hi hr ih =>
    obtain ⟨tokens, rest, hc, ho, hskip, hx⟩ := exists_skipped c
    rw [hskip] at hi
    obtain ⟨w, hw, heq, hoffset⟩ := Dialect.reads_item.cursor_eq hi
    obtain ⟨tokens', rest', hc', ho', hstop⟩ := ih
    have hrest : rest = w ++ c'.rest := congrArg Cursor.rest heq
    cases hw with
    | @intro id form hid op payload hpayload =>
      let t := Token.instruction id payload op (hx id _ hrest) (.intro hid hpayload)
      refine ⟨tokens ++ t :: tokens', rest', ?_, ?_, ?_⟩
      · simp [hc, hrest, hc', t, Token.bytes]
      · simp [ho, ho', t]
      · have hlen : c.offset + (text (tokens ++ t :: tokens')).length =
            c'.offset + (text tokens').length := by
          simp [hoffset, t, Token.bytes]
          omega
        rw [hlen]
        exact hstop

/-- A run that does not fail is over tokens alone. -/
theorem exists_text (h : Run .standard c ops none c') :
    ∃ tokens, c.rest = text tokens ∧ opcodes tokens = ops := by
  obtain ⟨tokens, rest, hc, ho, hrest, -⟩ := h.exists_tokens
  have hnil : rest = [] := hrest
  rw [hnil, List.append_nil] at hc
  exact ⟨tokens, hc, ho⟩

end Run

namespace Dialect
open Token

theorem decode_text (tokens : List Token) : standard.decode (text tokens) = .ok (opcodes tokens) :=
  decode_of_run (Run.of_text tokens 0)

theorem exists_text_of_decode {data : List UInt8} {ops : List Opcode}
    (h : standard.decode data = .ok ops) : ∃ tokens, text tokens = data ∧ opcodes tokens = ops := by
  obtain ⟨c, hr⟩ := decode_eq_ok_iff_run.1 h
  obtain ⟨tokens, hdata, ho⟩ := hr.exists_text
  exact ⟨tokens, hdata.symm, ho⟩

/-- In front of the place where decoding stops there are tokens, whose opcodes were yielded. -/
theorem exists_stop (data : List UInt8) : ∃ tokens rest stop c', data = text tokens ++ rest ∧
    Stops .standard ⟨0 + (text tokens).length, rest⟩ stop c' ∧
    standard.decode data = outcome (opcodes tokens) stop ∧
    standard.yielded data = opcodes tokens := by
  obtain ⟨ops, stop, c', hr⟩ := Run.exists_run .standard (.start data)
  obtain ⟨tokens, rest, hdata, rfl, hstop⟩ := hr.exists_tokens
  exact ⟨tokens, rest, stop, c', hdata, hstop, decode_of_run hr, yielded_of_run hr⟩

/-- A stream is accepted exactly if it is the text of tokens, and then their opcodes are returned.
No other tokens have this text. -/
theorem decode_eq_ok_iff_tokens (data : List UInt8) (ops : List Opcode) :
    (standard.decode data = .ok ops ↔ ∃ tokens, text tokens = data ∧ opcodes tokens = ops) ∧
      Function.Injective text := by
  refine ⟨⟨exists_text_of_decode, ?_⟩, fun s t => text_injective⟩
  rintro ⟨tokens, rfl, rfl⟩
  exact decode_text tokens

end Dialect

end VectorStream
