import VectorStream.CommandLine.Path
import VectorStream.Table

/-!
# Directories

The files that a run can see. A name leads through directories to a place, and a place is empty or
holds a file, a directory, or something that cannot be read. A file that is created and written is
found under its name, and the directories that lead to it stay.
-/
namespace VectorStream.CommandLine

inductive Entry where
  | file (bytes : List UInt8)
  | directory
  | unreadable (fault : FileFault)
  deriving DecidableEq

def Entry.content : Entry → Except FileFault (List UInt8)
  | .file bytes => .ok bytes
  | .directory => .error .isADirectory
  | .unreadable fault => .error fault

structure Directory where
  entries : Table Place Entry := .empty
  /-- The names for which no file can be created although the entries have room for it. -/
  refused : Table String FileFault := .empty

namespace Directory

def at? (d : Directory) (place : Place) : Option Entry :=
  if place.isAbove then some .directory else d.entries.find? place

/-- The directory that a step leads to. -/
def enter (d : Directory) (here : Place) (name : String) : Except FileFault Place := do
  let there ← here.step? name
  match d.at? there with
  | none => .error .notFound
  | some .directory => .ok there
  | some _ => .error .notADirectory

/-- The directory in which the last step of a path is taken. -/
def approach (d : Directory) (path : Path) : Except FileFault Place :=
  path.through.foldlM d.enter path.start

/-- The place that a name leads to. Everything before it has to be there. -/
def locate (d : Directory) (name : String) : Except FileFault Place := do
  let path ← Path.ofName name
  let here ← d.approach path
  if path.slash then d.enter here path.last else here.step? path.last

def find? (d : Directory) (name : String) : Option Entry :=
  (d.locate name).toOption.bind d.at?

/-- The place of a file that is created under a name, in a directory that is there. What the file
held before is lost, but a directory does not become a file. -/
def create (d : Directory) (name : String) : Except FileFault Place :=
  match d.refused.find? name with
  | some fault => .error fault
  | none => do
    let path ← Path.ofName name
    let here ← d.approach path
    if path.slash then .error .isADirectory else
      let place ← here.step? path.last
      if d.at? place = some .directory then .error .isADirectory else .ok place

def write (d : Directory) (place : Place) (bytes : List UInt8) : Directory :=
  { d with entries := d.entries.insert place (.file bytes) }

/-- Puts an entry under a name, and directories on the way to it. -/
def add (d : Directory) (name : String) (entry : Entry) : Directory :=
  match Path.ofName name with
  | .error _ => d
  | .ok path =>
    let (here, entries) := path.through.foldl
      (fun (here, entries) name => (here.step name, entries.insert (here.step name) .directory))
      (path.start, d.entries)
    { d with entries := entries.insert (here.step path.last) entry }

/-- A directory that holds the given entries and nothing else. -/
def ofEntries (entries : List (String × Entry)) : Directory :=
  entries.foldl (fun d e => d.add e.1 e.2) { }

theorem at?_write (d : Directory) {place : Place} (h : place.isAbove = false) (other : Place)
    (bytes : List UInt8) :
    (d.write place bytes).at? other =
      if other = place then some (.file bytes) else d.at? other := by
  unfold at? write
  rw [Table.find?_insert]
  by_cases ho : other = place
  · simp [ho, h]
  · simp [ho]

theorem isAbove_eq_false {d : Directory} {place : Place} (h : d.at? place ≠ some .directory) :
    place.isAbove = false := by
  cases ha : place.isAbove with
  | false => rfl
  | true => exact absurd (if_pos ha) h

theorem bind_eq_ok_iff {α β : Type} {x : Except FileFault α} {f : α → Except FileFault β} {b : β} :
    x >>= f = .ok b ↔ ∃ a, x = .ok a ∧ f a = .ok b := by
  cases x <;> simp [bind, Except.bind]

theorem enter_eq_ok_iff {d : Directory} {here there : Place} {name : String} :
    d.enter here name = .ok there ↔
      here.step? name = .ok there ∧ d.at? there = some .directory := by
  rw [enter, bind_eq_ok_iff]
  constructor
  · rintro ⟨next, hs, he⟩
    split at he
    · cases he
    · cases he
      exact ⟨hs, ‹_›⟩
    · cases he
  · rintro ⟨hs, hd⟩
    exact ⟨there, hs, by simp [hd]⟩

section write
variable {d : Directory} {place : Place} (h : d.at? place ≠ some .directory) (bytes : List UInt8)
include h

/-- A written file takes no directory away, and it is none. -/
theorem at?_write_eq_directory_iff (other : Place) :
    (d.write place bytes).at? other = some .directory ↔ d.at? other = some .directory := by
  rw [at?_write d (isAbove_eq_false h)]
  by_cases ho : other = place
  · simp [ho, h]
  · rw [if_neg ho]

theorem enter_write_iff {here there : Place} {name : String} :
    (d.write place bytes).enter here name = .ok there ↔ d.enter here name = .ok there := by
  rw [enter_eq_ok_iff, enter_eq_ok_iff, at?_write_eq_directory_iff h]

theorem approach_write_iff {path : Path} {here : Place} :
    (d.write place bytes).approach path = .ok here ↔ d.approach path = .ok here := by
  unfold approach
  generalize path.start = start, path.through = through
  induction through generalizing start with
  | nil => rfl
  | cons name rest ih =>
    simp only [List.foldlM_cons, bind_eq_ok_iff, enter_write_iff h, ih]

/-- A name leads to the same place when a file has been written. -/
theorem locate_write_iff {name : String} {there : Place} :
    (d.write place bytes).locate name = .ok there ↔ d.locate name = .ok there := by
  unfold locate
  simp only [bind_eq_ok_iff, approach_write_iff h]
  refine exists_congr fun path => and_congr_right fun _ => exists_congr fun here =>
    and_congr_right fun _ => ?_
  split
  · exact enter_write_iff h bytes
  · rfl

/-- Under a name that leads to a written file there is what was written. -/
theorem find?_write_of_locate {name : String} (hl : d.locate name = .ok place) :
    (d.write place bytes).find? name = some (.file bytes) := by
  rw [find?, (locate_write_iff h bytes).2 hl]
  simp [Except.toOption, at?_write d (isAbove_eq_false h)]

/-- Under every other name there is what was there before. -/
theorem find?_write_of_ne {name : String} (hl : d.locate name ≠ .ok place) :
    (d.write place bytes).find? name = d.find? name := by
  unfold find?
  cases hd : d.locate name with
  | ok there =>
    have hne : there ≠ place := fun k => hl (k ▸ hd)
    rw [(locate_write_iff h bytes).2 hd]
    simp [Except.toOption, at?_write d (isAbove_eq_false h), hne]
  | error fault =>
    cases hw : (d.write place bytes).locate name with
    | ok there => cases hd.symm.trans ((locate_write_iff h bytes).1 hw)
    | error fault' => rfl

end write

/-- A file is created where its name leads, and not over a directory. -/
theorem locate_of_create {d : Directory} {name : String} {place : Place}
    (h : d.create name = .ok place) :
    d.locate name = .ok place ∧ d.at? place ≠ some .directory := by
  unfold create at h
  split at h
  · cases h
  · obtain ⟨path, hp, h⟩ := bind_eq_ok_iff.1 h
    obtain ⟨here, ha, h⟩ := bind_eq_ok_iff.1 h
    split at h
    · cases h
    · rename_i hslash
      obtain ⟨there, hs, h⟩ := bind_eq_ok_iff.1 h
      split at h
      · cases h
      · cases h
        refine ⟨bind_eq_ok_iff.2 ⟨path, hp, bind_eq_ok_iff.2 ⟨here, ha, ?_⟩⟩, ‹_›⟩
        rw [if_neg hslash, hs]

end Directory

end VectorStream.CommandLine
