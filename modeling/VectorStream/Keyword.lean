import VectorStream.Opcode
import VectorStream.StreamError
import VectorStream.Table
import VectorStream.Text.Character

/-!
# Keywords

A keyword gives an extended opcode a meaning: it reads the opcode's payload as an operand. The
standard keywords consist of the line weight alone.
-/
namespace VectorStream
open Text

/-- How the payload under a keyword is read. -/
abbrev Operand := List UInt8 → Except StreamError Opcode

abbrev Keywords := Table String Operand

namespace Operand

/-- The name of the keyword for the weight of lines. -/
def lineWeightName : String := "LineWeight"

/-- A weight is a signed numeral in UTF-8 that may stand between white space. -/
def lineWeight : Operand := fun payload =>
  match Utf8.decode payload with
  | .error fault => .error (.invalidOperand lineWeightName (.encoding fault))
  | .ok text =>
    match Numeral.parse (Blank.trim Blank.isUnicode text) with
    | .error fault =>
      .error (.invalidOperand lineWeightName (.numeral (String.ofList text) fault))
    | .ok value => .ok (.weight value)

end Operand

namespace Keywords

def standard : Keywords := .ofList [(Operand.lineWeightName, Operand.lineWeight)]

/-- The meaning of an extended opcode. It is unrecognized if its name is no keyword, or if the
operand is refused; other errors of the operand are errors of the stream. -/
def interpret (keywords : Keywords) (name : String) (payload : List UInt8) :
    Except StreamError Opcode :=
  match keywords.find? name with
  | none => .ok (.unrecognized name)
  | some operand =>
    match operand (Blank.trim Blank.isAscii payload) with
    | .error (.invalidOperand ..) => .ok (.unrecognized name)
    | result => result

end Keywords

end VectorStream
