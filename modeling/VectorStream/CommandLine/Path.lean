import VectorStream.Text.Character

/-!
# Paths

The name of a file is a path: a start, directories to pass through, and a last step. Where its steps
lead is a place, which is the same for all paths that lead there. Where they lead nowhere there is a
fault of the file system, with one of two wordings.
-/
namespace VectorStream.CommandLine
open Text

/-- A failure of the file system: its number, the name of its kind and its wording. -/
structure FileFault where
  number : Nat
  kind : String
  text : String
  deriving DecidableEq

namespace FileFault

def notFound : FileFault := ⟨2, "NotFound", "No such file or directory"⟩

def notADirectory : FileFault := ⟨20, "NotADirectory", "Not a directory"⟩

def isADirectory : FileFault := ⟨21, "IsADirectory", "Is a directory"⟩

def nameTooLong : FileFault := ⟨36, "InvalidFilename", "File name too long"⟩

/-- The wording of a fault met while reading. -/
def message (f : FileFault) : String := f.text ++ " (os error " ++ Decimal.ofNat f.number ++ ")"

/-- The wording of a fault that ends the program. -/
def details (f : FileFault) : String :=
  "Os \x7b code: " ++ Decimal.ofNat f.number ++ ", kind: " ++ f.kind ++ ", message: "
    ++ Quoted.quote f.text ++ " \x7d"

end FileFault

/-- The way to a file, the last step first. Steps up out of the current directory stay, and a way
that begins at the root has a slash for its first step. -/
abbrev Place := List String

namespace Place

def current : Place := []

def root : Place := ["/"]

/-- The place one step up. Nothing is above the root. -/
def up : Place → Place
  | [] => [".."]
  | ".." :: rest => ".." :: ".." :: rest
  | "/" :: rest => "/" :: rest
  | _ :: rest => rest

def step (here : Place) (name : String) : Place :=
  if name = "." then here else if name = ".." then here.up else name :: here

/-- A step with a name of more than 255 bytes leads nowhere. -/
def step? (here : Place) (name : String) : Except FileFault Place :=
  if 255 < name.utf8ByteSize then .error .nameTooLong else .ok (here.step name)

/-- The current directory, those above it, and the root are there whatever they hold. -/
def isAbove (place : Place) : Bool := place.all fun name => name = ".." || name = "/"

end Place

structure Path where
  start : Place
  through : List String
  last : String
  /-- Whether a slash follows the last step, which then has to lead to a directory. -/
  slash : Bool
  deriving DecidableEq

namespace Path

/-- The parts of a text between its slashes. -/
def parts : List Char → List (List Char)
  | [] => [[]]
  | c :: rest =>
    match c, parts rest with
    | '/', more => [] :: more
    | c, part :: more => (c :: part) :: more
    | c, [] => [[c]]

/-- The path that a name spells. A slash more makes no difference between two steps, and a name
without steps leads to where it starts. -/
def ofText (name : List Char) : Path :=
  let steps := ((parts name).filter (· ≠ [])).map String.ofList
  { start := if name.head? = some '/' then .root else .current
    through := steps.dropLast
    last := steps.getLast?.getD "."
    slash := name.getLast? = some '/' }

/-- An empty name leads nowhere, and neither does one of more than 4095 bytes. -/
def ofName (name : String) : Except FileFault Path :=
  if name.isEmpty then .error .notFound
  else if 4095 < name.utf8ByteSize then .error .nameTooLong
  else .ok (ofText name.toList)

end Path

end VectorStream.CommandLine
