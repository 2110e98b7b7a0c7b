import VectorStream.CommandLine.Directory
import VectorStream.CommandLine.Options
import VectorStream.Listing

/-!
# Runs

A run lists the files it is given, one after the other. A file that cannot be listed is reported and
the run goes on; a file that does not exist ends the run.
-/
namespace VectorStream.CommandLine
open Listing

namespace Options

def content (o : Options) : Content := if o.primitives then .primitives else .opcodes

def format (o : Options) : Format := if o.json then .json else .text

end Options

/-- What a file contributes: its part of the output, and an error if it cannot be listed. -/
structure Block where
  text : String := ""
  error : Option String := none
  deriving DecidableEq

def header (o : Options) (name : String) : String :=
  match o.format with
  | .text => "== " ++ name ++ "\n"
  | .json => ""

def Block.ofEntry (o : Options) (name : String) (entry : Entry) : Block :=
  match entry.content with
  | .error fault => { error := some (StreamError.io fault.message).message }
  | .ok bytes =>
    match Listing.ofStream o.content o.format bytes with
    | .ok text => { text := header o name ++ text }
    | .error e => { text := header o name, error := some e.message }

/-- What has come out of a run over files. -/
structure Dump where
  text : String := ""
  errors : Array String := #[]
  deriving DecidableEq

namespace Dump

def add (dump : Dump) (name : String) (block : Block) : Dump where
  text := dump.text ++ block.text
  errors := dump.errors ++ (block.error.map fun e => "Error: " ++ name ++ ": " ++ e).toArray

/-- The part of the output that has reached its file. The rest is held back in a buffer of 8192
bytes, and nothing of the output reaches the file before it outgrows the buffer. How much of it does
then depends on how it is cut into writes, which is left out here: of a listing that is itself to be
listed, only its first bytes decide what is said about it. -/
def flushed (dump : Dump) : List UInt8 :=
  let bytes := dump.text.toUTF8.toList
  bytes.take (8192 * ((bytes.length - 1) / 8192))

/-- The directory during a run. The file that the run writes holds nothing but what the run has put
there. -/
def directory (d : Directory) (output : Option Place) (dump : Dump) : Directory :=
  match output with
  | none => d
  | some place => d.write place dump.flushed

def filesFrom (o : Options) (d : Directory) (output : Option Place) (dump : Dump) :
    List String → Dump
  | [] => dump
  | name :: rest =>
    match (dump.directory d output).find? name with
    | none => { dump with errors := dump.errors.push ("Error: File not found: " ++ name) }
    | some entry => filesFrom o d output (dump.add name (.ofEntry o name entry)) rest

/-- The listings of the files of a run, up to one that does not exist. -/
def files (o : Options) (d : Directory) (output : Option Place) : Dump :=
  filesFrom o d output { } o.files

/-- A run succeeds if it reports no error. -/
def code (dump : Dump) : UInt32 := if dump.errors.isEmpty then 0 else 1

end Dump

/-- What a run leaves behind: its exit code, what it writes to the two standard streams, and the
file it writes. -/
structure Outcome where
  code : UInt32
  output : String := ""
  errors : List String := []
  written : Option (Place × String) := none
  deriving DecidableEq

namespace Outcome

/-- What a run reports on the standard error stream. A log that is written there too is left out. -/
def errorText (outcome : Outcome) : String := Listing.lines outcome.errors

/-- The directory when a run in it is over. -/
def leave (outcome : Outcome) (d : Directory) : Directory :=
  match outcome.written with
  | none => d
  | some (place, text) => d.write place text.toUTF8.toList

end Outcome

def versionText : String := "dumpw2d 0.3.0\n"

def helpText : String :=
  Listing.lines
    ["Dump the opcodes or rendered primitives of W2D streams",
      "",
      "Usage: dumpw2d [OPTIONS] <FILES>...",
      "",
      "Arguments:",
      "  <FILES>...  One or more paths to raw W2D stream files",
      "",
      "Options:",
      "  -d, --debug              Use debug logging level",
      "      --primitives         Print rendered primitives instead of decoded opcodes",
      "      --json               Write JSON, one document per input file",
      "  -o, --outfile <OUTFILE>  Path to file where output is written, or \"-\" for stdout "
        ++ "[default: -]",
      "  -h, --help               Print help",
      "  -V, --version            Print version"]

/-- Lists the files that the options name. A file for the output is created before any other file is
looked at. -/
def dump (o : Options) (d : Directory) : Outcome :=
  match o.output with
  | none =>
    let dump := Dump.files o d none
    { code := dump.code, output := dump.text, errors := dump.errors.toList }
  | some name =>
    match d.create name with
    | .error fault => { code := 1, errors := ["Error: " ++ fault.details] }
    | .ok place =>
      let dump := Dump.files o d (some place)
      { code := dump.code, errors := dump.errors.toList, written := some (place, dump.text) }

/-- Runs the program with arguments in a directory. -/
def run (d : Directory) (arguments : List String) : Outcome :=
  match Request.ofArguments arguments with
  | .error e => { code := 2, errors := ["error: " ++ e.message] }
  | .ok .help => { code := 0, output := helpText }
  | .ok .version => { code := 0, output := versionText }
  | .ok (.dump o) => dump o d

end VectorStream.CommandLine
