import VectorStream.Text.Utf8

/-!
# UTF-16

Code units are read from left to right. A high surrogate and the low surrogate right after it
denote one character; every other surrogate is read as the replacement character.
-/
namespace VectorStream.Text.Utf16

def isHigh (unit : UInt16) : Bool := 0xD800 ≤ unit && unit < 0xDC00

def isLow (unit : UInt16) : Bool := 0xDC00 ≤ unit && unit < 0xE000

/-- The character beyond the basic plane that a surrogate pair denotes. -/
def ofPair (high low : UInt16) : Char :=
  Char.ofNat (0x10000 + (high.toNat - 0xD800) * 0x400 + (low.toNat - 0xDC00))

/-- The character of a unit that is not part of a pair. -/
def ofUnit (unit : UInt16) : Char :=
  if isHigh unit || isLow unit then Utf8.replacement else Char.ofNat unit.toNat

def decodeFrom (read : List Char) : List UInt16 → List Char
  | [] => read.reverse
  | [unit] => (ofUnit unit :: read).reverse
  | unit :: next :: rest =>
    if isHigh unit && isLow next then decodeFrom (ofPair unit next :: read) rest
    else decodeFrom (ofUnit unit :: read) (next :: rest)

def decodeLossy (units : List UInt16) : String := String.ofList (decodeFrom [] units)

/-- The code units of a character. -/
def encodeChar (c : Char) : List UInt16 :=
  let value := c.toNat
  if value < 0x10000 then [UInt16.ofNat value]
  else
    [UInt16.ofNat (0xD800 + (value - 0x10000) / 0x400),
      UInt16.ofNat (0xDC00 + (value - 0x10000) % 0x400)]

def encode (text : String) : List UInt16 := text.toList.flatMap encodeChar

end VectorStream.Text.Utf16
