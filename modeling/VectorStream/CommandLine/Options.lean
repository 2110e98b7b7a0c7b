/-!
# Command-line arguments

Arguments are read from left to right. Options may stand before, between and behind file names, each
of them at most once, and two dashes end them. A request for help or for the version is answered as
soon as it is met.
-/
namespace VectorStream.CommandLine

/-- What a run is to do. -/
structure Options where
  debug : Bool := false
  /-- List primitives instead of opcodes. -/
  primitives : Bool := false
  json : Bool := false
  /-- The file to write, or `none` for standard output. -/
  output : Option String := none
  files : List String := []
  deriving DecidableEq

inductive Request where
  | dump (options : Options)
  | help
  | version
  deriving DecidableEq

/-- Why arguments are refused. -/
inductive UsageError where
  | unknownOption (argument : String)
  | repeated (option : String)
  | missingValue (option : String)
  | unexpectedValue (option : String)
  | emptyFileName
  | noFiles
  deriving DecidableEq

def UsageError.message : UsageError → String
  | unknownOption argument => "unexpected argument '" ++ argument ++ "' found"
  | repeated option => "the argument '" ++ option ++ "' cannot be used multiple times"
  | missingValue option => "a value is required for '" ++ option ++ "' but none was supplied"
  | unexpectedValue option => "unexpected value for '" ++ option ++ "' found"
  | emptyFileName => "a value is required for '<FILES>...' but none was supplied"
  | noFiles => "the following required arguments were not provided: <FILES>..."

/-- The options that a program understands. -/
inductive Switch where
  | debug
  | primitives
  | json
  | outfile
  | help
  | version
  deriving DecidableEq

namespace Switch

def name : Switch → String
  | debug => "--debug"
  | primitives => "--primitives"
  | json => "--json"
  | outfile => "--outfile"
  | help => "--help"
  | version => "--version"

def all : List Switch := [debug, primitives, json, outfile, help, version]

def ofLong? (text : String) : Option Switch := all.find? (·.name = text)

def ofShort? : Char → Option Switch
  | 'd' => some debug
  | 'o' => some outfile
  | 'h' => some help
  | 'V' => some version
  | _ => none

end Switch

/-- What has been read so far. The files are held in reverse. -/
structure Reading where
  seen : List Switch := []
  options : Options := { }

namespace Reading

/-- Where reading the arguments stands after one of them. -/
inductive Step where
  | more (r : Reading)
  /-- An option waits for its value in the next argument. -/
  | awaiting (r : Reading)
  | done (request : Request)

def file (r : Reading) (name : String) : Except UsageError Reading :=
  if name.isEmpty then .error .emptyFileName
  else .ok { r with options := { r.options with files := name :: r.options.files } }

def output (r : Reading) (value : String) : Except UsageError Reading :=
  if r.seen.contains .outfile then .error (.repeated Switch.outfile.name)
  else
    .ok
      { seen := .outfile :: r.seen
        options := { r.options with output := if value = "-" then none else some value } }

/-- Takes an option that has no value. -/
def flag (r : Reading) (s : Switch) : Except UsageError Step :=
  match s with
  | .help => .ok (.done .help)
  | .version => .ok (.done .version)
  | .outfile => .ok (.awaiting r)
  | _ =>
    if r.seen.contains s then .error (.repeated s.name)
    else
      let o := r.options
      .ok <| .more
        { seen := s :: r.seen
          options :=
            { o with
              debug := o.debug || s = .debug
              primitives := o.primitives || s = .primitives
              json := o.json || s = .json } }

/-- Reads an argument that starts with two dashes. -/
def long (r : Reading) (argument : List Char) : Except UsageError Step :=
  let name := argument.takeWhile (· ≠ '=')
  match Switch.ofLong? (String.ofList name), argument.drop name.length with
  | none, _ => .error (.unknownOption (String.ofList argument))
  | some s, [] => r.flag s
  | some .outfile, _ :: value => (r.output (String.ofList value)).map .more
  | some s, _ => .error (.unexpectedValue s.name)

/-- Reads the letters behind a single dash. The rest of the argument, or what follows an equals sign
there, is the value of a letter that takes one. -/
def short (r : Reading) : List Char → Except UsageError Step
  | [] => .ok (.more r)
  | c :: rest =>
    match Switch.ofShort? c with
    | none => .error (.unknownOption (String.ofList ['-', c]))
    | some s => do
      match ← r.flag s with
      | .more r => r.short rest
      | .awaiting r =>
        match rest with
        | [] => .ok (.awaiting r)
        | '=' :: value => return .more (← r.output (String.ofList value))
        | value => return .more (← r.output (String.ofList value))
      | .done request => .ok (.done request)

/-- Reads one argument. -/
def argument (r : Reading) (text : String) : Except UsageError Step :=
  match text.toList with
  | '-' :: '-' :: name => r.long ('-' :: '-' :: name)
  | '-' :: c :: rest => r.short (c :: rest)
  | _ => (r.file text).map .more

/-- An argument that cannot be the value of an option. -/
def looksLikeOption (text : String) : Bool :=
  match text.toList with
  | '-' :: _ :: _ => true
  | _ => false

def close (r : Reading) : Except UsageError Request :=
  if r.options.files.isEmpty then .error .noFiles
  else .ok (.dump { r.options with files := r.options.files.reverse })

/-- Reads arguments that are all file names. -/
def filesOnly (r : Reading) : List String → Except UsageError Request
  | [] => r.close
  | name :: rest => do
    let r ← r.file name
    r.filesOnly rest

/-- Reads arguments; `waiting` says that an option waits for its value. -/
def arguments (waiting : Bool) (r : Reading) : List String → Except UsageError Request
  | [] => if waiting then .error (.missingValue Switch.outfile.name) else r.close
  | text :: rest =>
    if waiting then
      if looksLikeOption text then .error (.missingValue Switch.outfile.name)
      else do
        let r ← r.output text
        arguments false r rest
    else if text = "--" then r.filesOnly rest
    else do
      match ← r.argument text with
      | .more r => arguments false r rest
      | .awaiting r => arguments true r rest
      | .done request => return request

end Reading

/-- What the arguments of a run ask for. -/
def Request.ofArguments (arguments : List String) : Except UsageError Request :=
  Reading.arguments false { } arguments

end VectorStream.CommandLine
