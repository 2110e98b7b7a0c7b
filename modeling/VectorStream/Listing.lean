import VectorStream.Json.Drawing
import VectorStream.Render.Frame

/-!
# Listings

The contents of a stream as text: the opcodes it holds or the primitives it draws, as lines or as a
JSON document.
-/
namespace VectorStream.Listing
open Render Text

def lines (texts : List String) : String := texts.foldl (fun out text => out ++ text ++ "\n") ""

/-- One line for each opcode, with its index in a column of six. -/
def opcodeLines (ops : List Opcode) : String :=
  lines <| ops.zipIdx.map fun (op, index) => Decimal.padded 6 index ++ " " ++ op.listing

def opcodeDocument (ops : List Opcode) : Json := .object [("opcodes", .array (ops.map Opcode.json))]

/-- The line that sums up a pass. -/
def summary (report : Report) : String :=
  let stats := report.stats
  "# " ++ Decimal.ofNat stats.opcodes ++ " opcodes (" ++ Decimal.ofNat stats.drawing ++ " draw), "
    ++ Decimal.ofNat stats.emitted ++ " drawn, " ++ Decimal.ofNat stats.suppressed ++ " hidden, "
    ++ Decimal.ofNat stats.unsupported ++ " unsupported, ends at " ++ report.point.text

/-- One line for each primitive and each diagnostic, and the summary. -/
def frameLines (frame : Frame) : String :=
  lines <| frame.primitives.map Primitive.listing
    ++ frame.report.diagnostics.map (fun d => "# " ++ d.text) ++ [summary frame.report]

def diagnosticJson (d : Diagnostic) : Json :=
  .object [("index", .number d.index), ("opcode", .string d.name)]

def frameDocument (frame : Frame) : Json :=
  .object [("current_point", frame.report.point.json),
    ("diagnostics", .array (frame.report.diagnostics.map diagnosticJson)),
    ("primitives", .array (frame.primitives.map Primitive.json))]

/-- What is listed of a stream. -/
inductive Content where
  | opcodes
  | primitives
  deriving DecidableEq

inductive Format where
  | text
  | json
  deriving DecidableEq

/-- The listing of a stream in the standard dialect and with the default settings. -/
def ofStream (content : Content) (format : Format) (data : List UInt8) :
    Except StreamError String :=
  match content, format with
  | .opcodes, .text => (Dialect.standard.decode data).map opcodeLines
  | .opcodes, .json => (Dialect.standard.decode data).map fun ops =>
      (opcodeDocument ops).pretty ++ "\n"
  | .primitives, .text => (Frame.ofStream .standard { } data).map frameLines
  | .primitives, .json => (Frame.ofStream .standard { } data).map fun frame =>
      (frameDocument frame).pretty ++ "\n"

end VectorStream.Listing
