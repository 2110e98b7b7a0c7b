import VectorStream.Text.Character
import VectorStream.Text.Utf8

/-!
# Errors

Everything that can be wrong with a stream, each cause with the byte where it was met. The wording
is given once, by `StreamError.message`.
-/
namespace VectorStream
open Text

/-- What is wrong with the frame of an extended binary opcode. -/
inductive Flaw where
  /-- The size does not cover the opcode's own header. -/
  | shortFrame (size : Int32)
  /-- Another byte stands where the frame has to close. -/
  | unclosedFrame (found : UInt8)
  | other (reason : String)
  deriving DecidableEq

def Flaw.message : Flaw → String
  | shortFrame size =>
    "extended binary size " ++ Decimal.ofInt size.toInt ++ " is smaller than its header"
  | unclosedFrame found =>
    "expected '\x7d' to close extended binary opcode, found 0x" ++ Hex.ofByte found
  | other reason => reason

/-- Why the operand of a keyword is refused. -/
inductive OperandFault where
  | encoding (fault : Utf8.Fault)
  | numeral (text : String) (fault : Numeral.Fault)
  | other (reason : String)
  deriving DecidableEq

def OperandFault.message : OperandFault → String
  | encoding (.invalid length index) =>
    "invalid utf-8 sequence of " ++ Decimal.ofNat length ++ " bytes from index "
      ++ Decimal.ofNat index
  | encoding (.incomplete index) =>
    "incomplete utf-8 byte sequence from index " ++ Decimal.ofNat index
  | numeral text fault => Quoted.quote text ++ ": " ++ fault.message
  | other reason => reason

inductive StreamError where
  /-- The data ends inside the field that starts at `offset`. -/
  | truncated (offset : Nat)
  | unknownOpcode (id : UInt8) (offset : Nat)
  | malformed (offset : Nat) (flaw : Flaw)
  | invalidOperand (keyword : String) (fault : OperandFault)
  | io (reason : String)
  deriving DecidableEq

namespace StreamError

def kind : StreamError → String
  | truncated _ => "TruncatedStream"
  | unknownOpcode .. => "UnknownOpcode"
  | malformed .. => "Malformed"
  | invalidOperand .. => "InvalidOperand"
  | io _ => "Io"

def message : StreamError → String
  | truncated offset => "stream truncated at byte " ++ Decimal.ofNat offset
  | unknownOpcode id offset =>
    "unknown opcode 0x" ++ Hex.ofByte id ++ " at byte " ++ Decimal.ofNat offset
  | malformed offset flaw =>
    "malformed opcode at byte " ++ Decimal.ofNat offset ++ ": " ++ flaw.message
  | invalidOperand keyword fault => "invalid operand for " ++ keyword ++ ": " ++ fault.message
  | io reason => "io error: " ++ reason

/-- More data could still complete a truncated stream. -/
def isTruncated : StreamError → Bool
  | truncated _ => true
  | _ => false

/-- The error as met in a stream with `bytes` more bytes in front. -/
def shift (bytes : Nat) : StreamError → StreamError
  | truncated offset => truncated (offset + bytes)
  | unknownOpcode id offset => unknownOpcode id (offset + bytes)
  | malformed offset flaw => malformed (offset + bytes) flaw
  | e => e

end StreamError

end VectorStream
