import VectorStream.Proofs.Files

/-!
# Redirection

A run can write its output to a file, which it creates before it looks at any other file. The file
then holds what the run would write to standard output, and all else is the same, as long as the
run does not come upon that file among its inputs. Where it does, it finds the new file there in
place of the input.
-/
namespace VectorStream.CommandLine

namespace Directory

/-- The names that a run looks at: those of the files that it gets to, and the one that is missing. -/
def visited (d : Directory) (names : List String) : List String :=
  d.reached names ++ (d.missing? names).toList

variable {d : Directory} {name : String}

theorem visited_cons_of_some {entry : Entry} (h : d.find? name = some entry) (names : List String) :
    d.visited (name :: names) = name :: d.visited names := by
  rw [visited, reached_cons_of_some h, missing?_cons_of_some h]
  rfl

theorem visited_cons_of_none (h : d.find? name = none) (names : List String) :
    d.visited (name :: names) = [name] := by
  rw [visited, reached_cons_of_none h, missing?_cons_of_none h]
  rfl

end Directory

/-- A run that does not look at the file it writes finds what it would find without that file. -/
theorem Dump.filesFrom_redirected {d : Directory} {place : Place}
    (hplace : d.at? place ≠ some .directory) (o : Options) (target : String) (dump : Dump)
    {names : List String} (h : ∀ name ∈ d.visited names, d.locate name ≠ .ok place) :
    filesFrom { o with output := some target } d (some place) dump names =
      filesFrom o d none dump names := by
  induction names generalizing dump with
  | nil => rfl
  | cons name names ih =>
    have hfind (hname : d.locate name ≠ .ok place) :
        (dump.directory d (some place)).find? name = (dump.directory d none).find? name :=
      Directory.find?_write_of_ne hplace _ hname
    cases hf : d.find? name with
    | none =>
      rw [Directory.visited_cons_of_none hf] at h
      have hname := h name (List.mem_singleton_self name)
      simp only [filesFrom, hfind hname]
      simp only [directory, hf]
    | some entry =>
      rw [Directory.visited_cons_of_some hf] at h
      obtain ⟨hname, hnames⟩ := List.forall_mem_cons.1 h
      simp only [filesFrom, hfind hname]
      simp only [directory, hf]
      exact ih (dump.add name (.ofEntry o name entry)) hnames

theorem dump_redirected {d : Directory} {o : Options} (ho : o.output = none) {target : String}
    {place : Place} (hcreate : d.create target = .ok place)
    (h : ∀ name ∈ d.visited o.files, d.locate name ≠ .ok place) :
    dump { o with output := some target } d =
      { dump o d with output := "", written := some (place, (dump o d).output) } := by
  have hplace := (Directory.locate_of_create hcreate).2
  have hfiles : Dump.files { o with output := some target } d (some place) = Dump.files o d none :=
    Dump.filesFrom_redirected hplace o target { } h
  simp only [dump, ho, hcreate, hfiles]

/-- A run that writes a file leaves in it what the run without that file writes to standard output,
with the same errors and the same code, and every other name leads to what it led to before. This
holds as long as no name that the run looks at leads to the file it writes. -/
theorem run_redirected {d : Directory} {arguments redirected : List String} {o : Options}
    {target : String} {place : Place} (h : Request.ofArguments arguments = .ok (.dump o))
    (ho : o.output = none)
    (hredirected : Request.ofArguments redirected = .ok (.dump { o with output := some target }))
    (hcreate : d.create target = .ok place)
    (hvisited : ∀ name ∈ d.visited o.files, d.locate name ≠ .ok place) :
    let plain := run d arguments
    let outcome := run d redirected
    (outcome.leave d).find? target = some (.file plain.output.toUTF8.toList) ∧
      outcome.output = "" ∧ outcome.errors = plain.errors ∧ outcome.code = plain.code ∧
      ∀ other, d.locate other ≠ .ok place → (outcome.leave d).find? other = d.find? other := by
  intro plain outcome
  obtain ⟨hlocate, hplace⟩ := Directory.locate_of_create hcreate
  have hplain : plain = dump o d := run_eq_dump h d
  have houtcome : outcome =
      { plain with output := "", written := some (place, plain.output) } := by
    rw [hplain, ← dump_redirected ho hcreate hvisited]
    exact run_eq_dump hredirected d
  rw [houtcome]
  refine ⟨Directory.find?_write_of_locate hplace _ hlocate, rfl, rfl, rfl, ?_⟩
  intro other hother
  exact Directory.find?_write_of_ne hplace _ hother

/-- The output of a run over a file and a missing one goes to a new file. -/
theorem run_redirected_new_file :
    let d := Directory.ofEntries [("a", .file [0x56])]
    let plain := run d ["a", "gone"]
    let outcome := run d ["-o", "out", "a", "gone"]
    d.create "out" = .ok ["out"] ∧ plain.output = "== a\n     0 SetVisibility true\n" ∧
      (outcome.leave d).find? "out" = some (.file plain.output.toUTF8.toList) ∧
      outcome.errors = ["Error: File not found: gone"] ∧ outcome.code = 1 := by
  intro d plain outcome
  have hcreate : d.create "out" = .ok ["out"] := by rfl
  have hvisited : ∀ name ∈ d.visited ["a", "gone"], d.locate name ≠ .ok ["out"] := by
    have ha : d.locate "a" = .ok ["a"] := by rfl
    have hgone : d.locate "gone" = .ok ["gone"] := by rfl
    have hnames : d.visited ["a", "gone"] = ["a", "gone"] := by rfl
    rw [hnames]
    simp [ha, hgone]
  let o : Options := { files := ["a", "gone"] }
  have hplain : Request.ofArguments ["a", "gone"] = .ok (.dump o) := rfl
  have hredirected : Request.ofArguments ["-o", "out", "a", "gone"] =
      .ok (.dump { o with output := some "out" }) := rfl
  obtain ⟨hfile, -, herrors, hcode, -⟩ := run_redirected hplain rfl hredirected hcreate hvisited
  exact ⟨hcreate, by decide +kernel, hfile, herrors.trans (by decide +kernel),
    hcode.trans (by decide +kernel)⟩

/-- Where the run writes the file that it is to list, it lists an empty stream. If there was no such
file, it is not reported as missing either. -/
theorem run_redirected_over_input :
    let d := Directory.ofEntries [("a", .file [0x56])]
    let plain := run d ["a"]
    let outcome := run d ["-o", "a", "a"]
    let missing := run { } ["a"]
    let created := run { } ["-o", "a", "a"]
    d.create "a" = .ok ["a"] ∧ plain.output = "== a\n     0 SetVisibility true\n" ∧
      (outcome.leave d).find? "a" = some (.file "== a\n".toUTF8.toList) ∧
      (outcome.leave d).find? "a" ≠ some (.file plain.output.toUTF8.toList) ∧
      (missing.errors = ["Error: File not found: a"] ∧ missing.code = 1) ∧
      (created.errors = [] ∧ created.code = 0) := by
  refine ⟨by rfl, ?_⟩
  decide +kernel

end VectorStream.CommandLine
