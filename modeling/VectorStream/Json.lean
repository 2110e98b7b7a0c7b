import VectorStream.Text.Numeral

/-!
# JSON documents

Documents without floating-point numbers, and their indented form. The fields of an object are
written in the order in which it holds them.
-/
namespace VectorStream
open Text

inductive Json where
  | bool (value : Bool)
  | number (value : Int)
  | string (value : String)
  | array (items : List Json)
  | object (fields : List (String × Json))

namespace Json

/-- How one character is written inside a string. -/
def escape (c : Char) : List Char :=
  if c = '"' || c = '\\' then ['\\', c]
  else if c = '\x08' then ['\\', 'b']
  else if c = '\x0c' then ['\\', 'f']
  else if c = '\n' then ['\\', 'n']
  else if c = '\r' then ['\\', 'r']
  else if c = '\t' then ['\\', 't']
  else if c.toNat < 0x20 then "\\u00".toList ++ (Hex.ofByte (UInt8.ofNat c.toNat)).toList
  else [c]

def quote (text : String) : String :=
  String.ofList ('"' :: (text.toList.flatMap escape ++ ['"']))

mutual

/-- Appends a value whose lines after the first one start with `margin`. -/
def writeValue (margin out : String) : Json → String
  | bool b => out ++ if b then "true" else "false"
  | number n => out ++ Decimal.ofInt n
  | string s => out ++ quote s
  | array [] => out ++ "[]"
  | array (item :: items) =>
    let inner := margin ++ "  "
    writeItems inner (writeValue inner (out ++ "[\n" ++ inner) item) items ++ "\n" ++ margin ++ "]"
  | object [] => out ++ "\x7b\x7d"
  | object ((key, value) :: fields) =>
    let inner := margin ++ "  "
    let first := writeValue inner (out ++ "\x7b\n" ++ inner ++ quote key ++ ": ") value
    writeFields inner first fields ++ "\n" ++ margin ++ "\x7d"

def writeItems (margin out : String) : List Json → String
  | [] => out
  | item :: items => writeItems margin (writeValue margin (out ++ ",\n" ++ margin) item) items

def writeFields (margin out : String) : List (String × Json) → String
  | [] => out
  | (key, value) :: fields =>
    writeFields margin (writeValue margin (out ++ ",\n" ++ margin ++ quote key ++ ": ") value)
      fields

end

/-- The indented form of a document, two blanks a level. -/
def pretty (document : Json) : String := writeValue "" "" document

end Json

end VectorStream
