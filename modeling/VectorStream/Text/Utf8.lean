/-!
# UTF-8

A byte sequence is read one character at a time. Where it is ill-formed, the bytes that still
agree with some well-formed sequence form one fault: `decode` reports the first fault, and
`decodeLossy` puts the replacement character in its place.
-/
namespace VectorStream.Text.Utf8

/-- Why no character can be read: a byte does not fit, or the bytes end too soon. -/
inductive Flaw where
  | invalid
  | incomplete
  deriving DecidableEq, Repr

/-- The bounds of each byte that has to follow a lead byte, or `none` for a byte that leads no
sequence. The narrow bounds exclude overlong forms, surrogates and values beyond the last code
point. -/
def followers (lead : UInt8) : Option (List (UInt8 × UInt8)) :=
  if lead < 0x80 then some []
  else if lead < 0xC2 then none
  else if lead < 0xE0 then some [(0x80, 0xBF)]
  else if lead < 0xF0 then
    some [if lead = 0xE0 then (0xA0, 0xBF) else if lead = 0xED then (0x80, 0x9F) else (0x80, 0xBF),
      (0x80, 0xBF)]
  else if lead < 0xF5 then
    some [if lead = 0xF0 then (0x90, 0xBF) else if lead = 0xF4 then (0x80, 0x8F) else (0x80, 0xBF),
      (0x80, 0xBF), (0x80, 0xBF)]
  else none

/-- The bits of the character that a lead byte holds when `count` bytes follow it. -/
def leadBits (lead : UInt8) (count : Nat) : Nat :=
  if count = 0 then lead.toNat else lead.toNat % (0x40 >>> count)

/-- Reads the following bytes. The first component counts those that fit. -/
def follow (value length : Nat) : List (UInt8 × UInt8) → List UInt8 → Nat × Except Flaw Char
  | [], _ => (length, .ok (Char.ofNat value))
  | _ :: _, [] => (length, .error .incomplete)
  | (low, high) :: bounds, b :: bytes =>
    if low ≤ b ∧ b ≤ high then follow (64 * value + b.toNat % 64) (length + 1) bounds bytes
    else (length, .error .invalid)

/-- Reads the character that starts with `lead`; the first component counts the bytes of `rest`
that belong to it or to the fault found in its place. -/
def first (lead : UInt8) (rest : List UInt8) : Nat × Except Flaw Char :=
  match followers lead with
  | none => (0, .error .invalid)
  | some bounds => follow (leadBits lead bounds.length) 0 bounds rest

/-- An ill-formed place in a byte sequence. -/
inductive Fault where
  | invalid (length index : Nat)
  | incomplete (index : Nat)
  deriving DecidableEq, Repr

def decodeFrom (index : Nat) (read : List Char) : List UInt8 → Except Fault (List Char)
  | [] => .ok read.reverse
  | lead :: rest =>
    match first lead rest with
    | (extra, .ok c) => decodeFrom (index + 1 + extra) (c :: read) (rest.drop extra)
    | (extra, .error .invalid) => .error (.invalid (1 + extra) index)
    | (_, .error .incomplete) => .error (.incomplete index)
termination_by bytes => bytes.length
decreasing_by simp only [List.length_drop, List.length_cons]; omega

/-- The characters that a well-formed byte sequence encodes. -/
def decode (bytes : List UInt8) : Except Fault (List Char) := decodeFrom 0 [] bytes

/-- The character that stands for what cannot be read. -/
def replacement : Char := '\uFFFD'

def decodeLossyFrom (read : List Char) : List UInt8 → List Char
  | [] => read.reverse
  | lead :: rest =>
    match first lead rest with
    | (extra, .ok c) => decodeLossyFrom (c :: read) (rest.drop extra)
    | (extra, .error _) => decodeLossyFrom (replacement :: read) (rest.drop extra)
termination_by bytes => bytes.length
decreasing_by all_goals simp only [List.length_drop, List.length_cons]; omega

/-- The characters of any byte sequence, each fault read as the replacement character. -/
def decodeLossy (bytes : List UInt8) : String := String.ofList (decodeLossyFrom [] bytes)

end VectorStream.Text.Utf8
