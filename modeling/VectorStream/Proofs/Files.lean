import VectorStream.CommandLine.Run

/-!
# Files in a run

A run without an output file treats each of its files on its own. It takes the files up to the
first one that does not exist. Each of them adds a part to the output that depends on its name and
its content alone, and an error if it cannot be read or decoded, whatever is listed of it.
-/
namespace VectorStream

namespace Listing
open Render

/-- The listing of a stream that holds the given opcodes. -/
def ofOpcodes (content : Content) (format : Format) (ops : List Opcode) : String :=
  match content, format with
  | .opcodes, .text => opcodeLines ops
  | .opcodes, .json => (opcodeDocument ops).pretty ++ "\n"
  | .primitives, .text => frameLines (Frame.ofOpcodes { } ops)
  | .primitives, .json => (frameDocument (Frame.ofOpcodes { } ops)).pretty ++ "\n"

/-- Whatever is listed of a stream, it is listed if and only if it can be decoded. -/
theorem ofStream_eq (content : Content) (format : Format) (data : List UInt8) :
    ofStream content format data =
      (Dialect.standard.decode data).map (ofOpcodes content format) := by
  unfold ofStream Frame.ofStream
  cases Dialect.standard.decode data <;> cases content <;> cases format <;> rfl

end Listing

namespace CommandLine
open Listing

namespace Entry

/-- The opcodes of a file, or the reason why it has none. -/
def opcodes (entry : Entry) : Except StreamError (List Opcode) :=
  match entry.content with
  | .error fault => .error (.io fault.message)
  | .ok bytes => Dialect.standard.decode bytes

/-- The error that a file is reported with. -/
def fault? (entry : Entry) : Option String :=
  match entry.opcodes with
  | .error e => some e.message
  | .ok _ => none

/-- What stands in front of a listing. -/
def heading (format : Format) (name : String) : String :=
  match format with
  | .text => "== " ++ name ++ "\n"
  | .json => ""

/-- The part of the output that a file adds. Of a file that cannot be decoded there is only the
heading, and of one that cannot be read there is nothing. -/
def part (content : Content) (format : Format) (name : String) : Entry → String
  | file bytes =>
    match Dialect.standard.decode bytes with
    | .ok ops => heading format name ++ Listing.ofOpcodes content format ops
    | .error _ => heading format name
  | directory => ""
  | unreadable _ => ""

theorem fault?_eq_none_iff {entry : Entry} : entry.fault? = none ↔
    ∃ bytes ops, entry = file bytes ∧ Dialect.standard.decode bytes = .ok ops := by
  cases entry with
  | file bytes =>
    cases h : Dialect.standard.decode bytes <;> simp [fault?, opcodes, content, h]
  | directory => simp [fault?, opcodes, content]
  | unreadable fault => simp [fault?, opcodes, content]

end Entry

theorem Block.ofEntry_eq (o : Options) (name : String) (entry : Entry) :
    ofEntry o name entry = ⟨entry.part o.content o.format name, entry.fault?⟩ := by
  cases entry with
  | file bytes =>
    simp only [ofEntry, Entry.content, Entry.part, Entry.fault?, Entry.opcodes, ofStream_eq]
    cases Dialect.standard.decode bytes <;> rfl
  | directory => rfl
  | unreadable fault => rfl

namespace Directory
variable (d : Directory)

/-- A name leads to something. -/
def has (name : String) : Bool := (d.find? name).isSome

/-- The files that a run over some names gets to: those in front of the first that is missing. -/
def reached (names : List String) : List String := names.takeWhile d.has

/-- The part of the output that stands for a name. -/
def part? (content : Content) (format : Format) (name : String) : Option String :=
  (d.find? name).map (Entry.part content format name)

/-- The line that reports a file that cannot be listed. -/
def faultLine? (name : String) : Option String :=
  (d.find? name).bind fun entry => entry.fault?.map fun e => "Error: " ++ name ++ ": " ++ e

/-- The first name that leads nowhere. -/
def missing? (names : List String) : Option String := names.find? fun name => !d.has name

/-- The line that reports the first file that is missing. -/
def missingLine? (names : List String) : Option String :=
  (d.missing? names).map ("Error: File not found: " ++ ·)

/-- All that is reported of some names. -/
def errorLines (names : List String) : List String :=
  (d.reached names).filterMap d.faultLine? ++ (d.missingLine? names).toList

variable {d} {name : String}

theorem has_of_some {entry : Entry} (h : d.find? name = some entry) : d.has name = true := by
  rw [has, h, Option.isSome_some]

theorem has_of_none (h : d.find? name = none) : d.has name = false := by
  rw [has, h, Option.isSome_none]

theorem reached_cons_of_some {entry : Entry} (h : d.find? name = some entry)
    (names : List String) : d.reached (name :: names) = name :: d.reached names :=
  List.takeWhile_cons_of_pos (has_of_some h)

theorem reached_cons_of_none (h : d.find? name = none) (names : List String) :
    d.reached (name :: names) = [] :=
  List.takeWhile_cons_of_neg (by rw [has_of_none h]; exact Bool.false_ne_true)

theorem missing?_cons_of_some {entry : Entry} (h : d.find? name = some entry)
    (names : List String) : d.missing? (name :: names) = d.missing? names :=
  List.find?_cons_of_neg (by simp [has_of_some h])

theorem missing?_cons_of_none (h : d.find? name = none) (names : List String) :
    d.missing? (name :: names) = some name :=
  List.find?_cons_of_pos (by simp [has_of_none h])

theorem errorLines_cons_of_some {entry : Entry} (h : d.find? name = some entry)
    (names : List String) :
    d.errorLines (name :: names) = (d.faultLine? name).toList ++ d.errorLines names := by
  unfold errorLines missingLine?
  rw [reached_cons_of_some h, missing?_cons_of_some h]
  cases hline : d.faultLine? name with
  | none => rw [List.filterMap_cons_none hline]; rfl
  | some line => rw [List.filterMap_cons_some hline]; rfl

theorem errorLines_cons_of_none (h : d.find? name = none) (names : List String) :
    d.errorLines (name :: names) = ["Error: File not found: " ++ name] := by
  unfold errorLines missingLine?
  rw [reached_cons_of_none h, missing?_cons_of_none h]
  rfl

/-- A name leads to a file that can be decoded. -/
def Decodes (d : Directory) (name : String) : Prop :=
  ∃ bytes ops, d.find? name = some (.file bytes) ∧ Dialect.standard.decode bytes = .ok ops

theorem faultLine?_eq_none_iff {entry : Entry} (h : d.find? name = some entry) :
    d.faultLine? name = none ↔ d.Decodes name := by
  simp [faultLine?, Decodes, h, Entry.fault?_eq_none_iff]

/-- Nothing is reported if and only if every name leads to a file that can be decoded. -/
theorem errorLines_eq_nil_iff (names : List String) :
    d.errorLines names = [] ↔ ∀ name ∈ names, d.Decodes name := by
  induction names with
  | nil => simp [errorLines, reached, missingLine?, missing?]
  | cons name names ih =>
    cases h : d.find? name with
    | none =>
      have hfails : ¬ d.Decodes name := by simp [Decodes, h]
      simp [errorLines_cons_of_none h, hfails]
    | some entry =>
      rw [errorLines_cons_of_some h, List.append_eq_nil_iff, Option.toList_eq_nil_iff, ih,
        faultLine?_eq_none_iff h, List.forall_mem_cons]

end Directory

theorem Dump.filesFrom_eq (o : Options) (d : Directory) (dump : Dump) (names : List String) :
    filesFrom o d none dump names =
      { text := dump.text ++ String.join ((d.reached names).filterMap (d.part? o.content o.format))
        errors := dump.errors ++ d.errorLines names } := by
  induction names generalizing dump with
  | nil =>
    simp [filesFrom, Directory.reached, Directory.errorLines, Directory.missingLine?,
      Directory.missing?]
  | cons name names ih =>
    cases h : d.find? name with
    | none =>
      simp [filesFrom, directory, h, Directory.reached_cons_of_none h,
        Directory.errorLines_cons_of_none h]
    | some entry =>
      have hpart : d.part? o.content o.format name = some (entry.part o.content o.format name) := by
        rw [Directory.part?, h]
        rfl
      have hadd : dump.add name (.ofEntry o name entry) =
          { text := dump.text ++ entry.part o.content o.format name
            errors := dump.errors ++ (d.faultLine? name).toArray } := by
        simp [add, Block.ofEntry_eq, Directory.faultLine?, h]
      simp only [filesFrom, directory, h]
      rw [ih, hadd, Directory.reached_cons_of_some h, Directory.errorLines_cons_of_some h,
        List.filterMap_cons_some hpart, String.join_cons]
      cases d.faultLine? name <;> simp [String.append_assoc]

theorem dump_eq {o : Options} (h : o.output = none) (d : Directory) :
    dump o d =
      { code := if d.errorLines o.files = [] then 0 else 1
        output := String.join ((d.reached o.files).filterMap (d.part? o.content o.format))
        errors := d.errorLines o.files } := by
  simp [dump, h, Dump.files, Dump.filesFrom_eq, Dump.code]

theorem run_eq_dump {arguments : List String} {o : Options}
    (h : Request.ofArguments arguments = .ok (.dump o)) (d : Directory) :
    run d arguments = dump o d := by
  rw [run, h]

/-- A run without an output file lists each file on its own. The output holds the parts of the files
in front of the first one that is missing, each made of the file's name and content alone. One line
reports each of these files that cannot be read or decoded, and then the missing file if there is
one. The code is 0 if there is nothing to report and 1 otherwise. What is listed and in which format
makes no difference to the lines and the code. -/
theorem run_lists_each_file {d : Directory} {arguments : List String} {o : Options}
    (h : Request.ofArguments arguments = .ok (.dump o)) (ho : o.output = none) :
    let outcome := run d arguments
    outcome.output = String.join ((d.reached o.files).filterMap (d.part? o.content o.format)) ∧
    outcome.errors =
      (d.reached o.files).filterMap d.faultLine? ++ (d.missingLine? o.files).toList ∧
    (outcome.code = 0 ↔ ∀ name ∈ o.files, d.Decodes name) ∧
    (outcome.code = 0 ∨ outcome.code = 1) ∧
    ∀ arguments' o', Request.ofArguments arguments' = .ok (.dump o') → o'.output = none →
      o'.files = o.files →
      (run d arguments').errors = outcome.errors ∧ (run d arguments').code = outcome.code := by
  intro outcome
  have houtcome : outcome = _ := (run_eq_dump h d).trans (dump_eq ho d)
  rw [houtcome]
  refine ⟨rfl, rfl, ?_, ?_, ?_⟩
  · rw [← Directory.errorLines_eq_nil_iff]
    split <;> simp_all
  · split <;> simp
  · intro arguments' o' h' ho' hfiles
    rw [run_eq_dump h' d, dump_eq ho' d, hfiles]
    exact ⟨rfl, rfl⟩

/-- The arguments that list some files with a choice of flags. -/
def flagged (primitives json : Bool) (names : List String) : List String :=
  (if primitives then ["--primitives"] else []) ++ (if json then ["--json"] else []) ++
    "--" :: names

theorem Reading.filesOnly_eq (r : Reading) {names : List String} (hnames : "" ∉ names)
    (hsome : r.options.files.reverse ++ names ≠ []) : r.filesOnly names =
      .ok (.dump { r.options with files := r.options.files.reverse ++ names }) := by
  induction names generalizing r with
  | nil =>
    have hfiles : r.options.files ≠ [] := by simpa using hsome
    simp [filesOnly, close, hfiles]
  | cons name names ih =>
    obtain ⟨hname, hrest⟩ := not_or.1 (mt List.mem_cons.2 hnames)
    have hfile : r.file name =
        .ok { r with options := { r.options with files := name :: r.options.files } } := by
      rw [file, if_neg]
      simpa using Ne.symm hname
    rw [filesOnly, hfile]
    change filesOnly _ names = _
    rw [ih _ hrest (by simp)]
    simp

/-- With every choice of flags a run can be asked for any files. -/
theorem ofArguments_flagged (primitives json : Bool) {names : List String} (hnames : "" ∉ names)
    (hsome : names ≠ []) : Request.ofArguments (flagged primitives json names) =
      .ok (.dump { primitives, json, files := names }) := by
  cases primitives <;> cases json
  · exact Reading.filesOnly_eq { } hnames hsome
  · exact Reading.filesOnly_eq ⟨[.json], { json := true }⟩ hnames hsome
  · exact Reading.filesOnly_eq ⟨[.primitives], { primitives := true }⟩ hnames hsome
  · exact Reading.filesOnly_eq ⟨[.json, .primitives], { primitives := true, json := true }⟩ hnames
      hsome

/-- A file that is listed, one that cannot be decoded, one that cannot be read, and a name that leads
nowhere in front of another one. -/
theorem run_lists_each_file_mixed :
    let d := Directory.ofEntries [("a", .file [0x56]), ("b", .file [0xFF]), ("c", .directory)]
    let names := ["a", "b", "c", "gone", "a"]
    let outcome := run d (flagged false false names)
    Request.ofArguments (flagged false false names) = .ok (.dump { files := names }) ∧
      outcome.output = "== a\n     0 SetVisibility true\n== b\n" ∧
      outcome.errors =
        ["Error: b: unknown opcode 0xff at byte 0",
          "Error: c: io error: Is a directory (os error 21)", "Error: File not found: gone"] ∧
      outcome.code = 1 := by
  intro d names outcome
  have hnames : "" ∉ names := by decide
  have h := ofArguments_flagged false false hnames (List.cons_ne_nil _ _)
  obtain ⟨houtput, herrors, hzero, hcode, -⟩ := run_lists_each_file (d := d) h rfl
  have hgone : d.find? "gone" = none := by decide +kernel
  refine ⟨h, houtput.trans (by decide +kernel), herrors.trans (by decide +kernel), ?_⟩
  apply hcode.resolve_left
  intro h0
  obtain ⟨bytes, ops, hfind, -⟩ := hzero.1 h0 "gone" (by decide)
  cases hgone.symm.trans hfind

end CommandLine

end VectorStream
