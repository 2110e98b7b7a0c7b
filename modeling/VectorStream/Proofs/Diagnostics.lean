import VectorStream.Proofs.Visibility

/-!
# Diagnostics

A pass reports the names that are neither known nor expected, each at the index that its opcode has
among all opcodes of the pass. The reports are in the order of the indices. They follow from the
opcodes and from the set of ignored names: nothing that is drawn or hidden has an influence on them.
-/
namespace VectorStream.Render
open Opcode

namespace Diagnostic

theorem pairwise_named (start : Nat) (ops : List Opcode) :
    (named start ops).Pairwise (·.index < ·.index) := by
  -- The names are picked from opcodes with increasing indices.
  have hindices : (ops.zipIdx start).Pairwise (·.2 < ·.2) := by
    rw [← List.pairwise_map, List.zipIdx_map_snd]
    exact List.pairwise_lt_range' 1
  apply hindices.filterMap
  intro x y hxy d hd e he
  obtain ⟨_, -, rfl⟩ := Option.map_eq_some_iff.1 hd
  obtain ⟨_, -, rfl⟩ := Option.map_eq_some_iff.1 he
  exact hxy

theorem pairwise_reports (ignored : List String) (start : Nat) (ops : List Opcode) :
    (reports ignored start ops).Pairwise (·.index < ·.index) :=
  (pairwise_named start ops).filter _

/-- It makes no difference in which order and how often names are ignored. -/
theorem reports_congr {ignored ignored' : List String}
    (h : ∀ name, name ∈ ignored' ↔ name ∈ ignored) (start : Nat) (ops : List Opcode) :
    reports ignored' start ops = reports ignored start ops := by
  apply List.filter_congr
  intro d _
  rw [decide_eq_decide, IsUnexpected, IsUnexpected, h]

/-- Names that are ignored as well have no reports, and the other reports are the same. -/
theorem reports_append_ignored (ignored extra : List String) (start : Nat) (ops : List Opcode) :
    reports (ignored ++ extra) start ops =
      (reports ignored start ops).filter (·.name ∉ extra) := by
  rw [reports, reports, List.filter_filter]
  apply List.filter_congr
  intro d _
  rw [← Bool.decide_and, decide_eq_decide, IsUnexpected, IsUnexpected, List.mem_append, not_or,
    ← and_assoc]
  exact and_comm

theorem reports_withVisibilities (ignored : List String) (start : Nat) (on : Nat → Bool)
    (ops : List Opcode) :
    reports ignored start (withVisibilities on ops) = reports ignored start ops := by
  -- With everything shown the two lists are the same.
  rw [← reports_map_reveal, map_reveal_withVisibilities, reports_map_reveal]

end Diagnostic

namespace Pass
variable {σ : Type}

theorem diagnostics_callAll_fresh (device : Device σ) (surface : σ) (state : State)
    (ignored : List String) (calls : List Call) :
    ((fresh device surface state ignored).callAll calls).diagnostics.toList =
      Diagnostic.reports ignored 0 (calls.flatMap Call.opcodes) := by
  rw [callAll_eq_behind]
  simp [behind, fresh]

/-- The diagnostics of a pass are in the order of their indices. There is one at each index at which
the opcode has a name that is neither known nor empty nor ignored, and no other one. Passes have the
same diagnostics if they meet the same opcodes, up to what these show and hide, and ignore the same
names. If more names are ignored, the diagnostics with these names are gone and the others stay. -/
theorem diagnostics_of_unexpected (device : Device σ) (surface : σ) (state : State)
    (ignored : List String) (calls : List Call) :
    let ops := calls.flatMap Call.opcodes
    let diagnostics := ((fresh device surface state ignored).callAll calls).diagnostics.toList
    diagnostics.Pairwise (·.index < ·.index) ∧
    (∀ d, d ∈ diagnostics ↔
      ops[d.index]? = some (.unrecognized d.name) ∧ d.name ≠ "" ∧ d.name ∉ ignored) ∧
    (∀ (τ : Type) (device' : Device τ) (surface' : τ) (state' : State) (ignored' : List String)
        (calls' : List Call) (on : Nat → Bool),
      (∀ name, name ∈ ignored' ↔ name ∈ ignored) →
      calls'.flatMap Call.opcodes = withVisibilities on ops →
      ((fresh device' surface' state' ignored').callAll calls').diagnostics.toList =
        diagnostics) ∧
    ∀ extra, ((fresh device surface state (ignored ++ extra)).callAll calls).diagnostics.toList =
      diagnostics.filter (·.name ∉ extra) := by
  intro ops diagnostics
  have hreports : diagnostics = Diagnostic.reports ignored 0 ops :=
    diagnostics_callAll_fresh device surface state ignored calls
  rw [hreports]
  refine ⟨Diagnostic.pairwise_reports ignored 0 ops, ?_, ?_, ?_⟩
  · intro d
    simp only [Diagnostic.mem_reports_iff, Nat.zero_le, Nat.sub_zero, true_and]
  · intro τ device' surface' state' ignored' calls' on hignored hcalls
    rw [diagnostics_callAll_fresh, hcalls, Diagnostic.reports_withVisibilities,
      Diagnostic.reports_congr hignored]
  · intro extra
    rw [diagnostics_callAll_fresh, Diagnostic.reports_append_ignored]

/-- A name that is met behind others has the same report when the drawing is hidden. -/
theorem diagnostics_of_unexpected_hidden :
    let ignored : List String := ["URL", "Ink"]
    let calls : List Call :=
      [.process (.visibility true), .execute [.unrecognized "URL", .unrecognized ""],
        .process (.unrecognized "Font")]
    let calls' : List Call :=
      [.execute [.visibility false, .unrecognized "URL"], .execute [],
        .execute [.unrecognized "", .unrecognized "Font"]]
    let blank : Device Unit :=
      { line := fun _ _ _ => id, polyline := fun _ _ => id, marker := fun _ _ => id,
        text := fun _ _ _ => id }
    calls'.flatMap Call.opcodes = withVisibilities (fun _ => false) (calls.flatMap Call.opcodes) ∧
      ((fresh recorder { } { } ignored).callAll calls).diagnostics.toList = [⟨3, "Font"⟩] ∧
      ((fresh blank () { visible := false } ["Ink", "URL", "Ink"]).callAll
        calls').diagnostics.toList = [⟨3, "Font"⟩] := by
  intro ignored calls calls' blank
  have hignored : ∀ name, name ∈ ["Ink", "URL", "Ink"] ↔ name ∈ ignored := by
    simp [ignored, or_comm]
  have hcalls : calls'.flatMap Call.opcodes =
      withVisibilities (fun _ => false) (calls.flatMap Call.opcodes) := by decide
  have hdiagnostics : ((fresh recorder { } { } ignored).callAll calls).diagnostics.toList =
      [⟨3, "Font"⟩] := by decide +kernel
  obtain ⟨-, -, hsame, -⟩ := diagnostics_of_unexpected recorder { } { } ignored calls
  refine ⟨hcalls, hdiagnostics, ?_⟩
  rw [hsame Unit blank () { visible := false } _ calls' (fun _ => false) hignored hcalls]
  exact hdiagnostics

end Pass

end VectorStream.Render
