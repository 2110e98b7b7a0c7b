/-!
# Numerals

Numbers as they are written and as they are read. Whole numbers are written in base ten without
padding, with a minus sign in front of a negative one; bytes and words are written in base sixteen
with all their digits. A numeral that is read is an optional sign and one or more decimal digits
whose value fits 16 bits. It is read from left to right, and the first character at which it fails
decides the fault.
-/
namespace VectorStream.Text.Decimal

def ofNat (n : Nat) : String := String.ofList (Nat.toDigits 10 n)

def ofInt : Int → String
  | .ofNat n => ofNat n
  | .negSucc n => "-" ++ ofNat (n + 1)

/-- A numeral set flush right in a column of the given width. -/
def padded (width n : Nat) : String :=
  let digits := Nat.toDigits 10 n
  String.ofList (List.replicate (width - digits.length) ' ' ++ digits)

end VectorStream.Text.Decimal

namespace VectorStream.Text.Hex

/-- The two digits of a byte. -/
def ofByte (b : UInt8) : String :=
  String.ofList [Nat.digitChar (b.toNat / 16), Nat.digitChar (b.toNat % 16)]

/-- The four digits of a word, the most significant first. -/
def ofWord (w : UInt16) : String :=
  ofByte (w >>> 8).toUInt8 ++ ofByte w.toUInt8

def ofBytes (bytes : List UInt8) : String :=
  bytes.foldl (fun text b => text ++ ofByte b) ""

/-- The digits of a code point, without leading zeros. -/
def ofChar (c : Char) : List Char := Nat.toDigits 16 c.toNat

end VectorStream.Text.Hex

namespace VectorStream.Text.Numeral

/-- Why a text is no numeral. -/
inductive Fault where
  | empty
  | invalidDigit
  | tooLarge
  | tooSmall
  deriving DecidableEq, Repr

def Fault.message : Fault → String
  | empty => "cannot parse integer from empty string"
  | invalidDigit => "invalid digit found in string"
  | tooLarge => "number too large to fit in target type"
  | tooSmall => "number too small to fit in target type"

def digit? (c : Char) : Option Nat :=
  if '0' ≤ c ∧ c ≤ '9' then some (c.toNat - '0'.toNat) else none

/-- Reads digits after `value` has been read; `excess` is the fault of a number beyond the limit. -/
def readDigits (limit : Nat) (excess : Fault) (value : Nat) : List Char → Except Fault Nat
  | [] => .ok value
  | c :: rest =>
    match digit? c with
    | none => .error .invalidDigit
    | some d =>
      if 10 * value + d ≤ limit then readDigits limit excess (10 * value + d) rest
      else .error excess

/-- Reads a magnitude of at least one digit. -/
def magnitude (limit : Nat) (excess : Fault) : List Char → Except Fault Nat
  | [] => .error .invalidDigit
  | digits => readDigits limit excess 0 digits

/-- The number that a numeral denotes. -/
def parse : List Char → Except Fault Int16
  | [] => .error .empty
  | '-' :: digits => (magnitude 32768 .tooSmall digits).map fun n => Int16.ofInt (-n)
  | '+' :: digits => (magnitude 32767 .tooLarge digits).map Int16.ofNat
  | digits => (magnitude 32767 .tooLarge digits).map Int16.ofNat

end VectorStream.Text.Numeral
