import VectorStream.Render.Device
import VectorStream.Render.State

/-!
# Passes

A pass steps through opcodes with one device. Primitives reach the device only while the drawing is
visible; everything else is counted, and opcodes without a known meaning are reported.
-/
namespace VectorStream.Render
open Text

/-- A report that the opcode at an index was skipped. -/
structure Diagnostic where
  index : Nat
  name : String
  deriving DecidableEq

/-- The report on an opcode at an index. Only names without a known meaning are reported, except for
the empty name and the ignored ones. -/
def Diagnostic.ofOpcode? (ignored : List String) (index : Nat) (op : Opcode) : Option Diagnostic :=
  match op.unrecognized? with
  | some name => if name.isEmpty || ignored.contains name then none else some ⟨index, name⟩
  | none => none

def Diagnostic.text (d : Diagnostic) : String :=
  "unrecognized opcode " ++ Quoted.quote d.name ++ " at index " ++ Decimal.ofNat d.index

structure Stats where
  opcodes : Nat := 0
  /-- Opcodes that draw, visible or not. -/
  drawing : Nat := 0
  /-- Primitives given to the device. -/
  emitted : Nat := 0
  /-- Primitives kept from the device. -/
  suppressed : Nat := 0
  unsupported : Nat := 0
  deriving DecidableEq

/-- The counters when one more opcode has been met. -/
def Stats.count (s : Stats) : Opcode → Stats
  | .unsupported _ => { s with opcodes := s.opcodes + 1, unsupported := s.unsupported + 1 }
  | op =>
    { s with
      opcodes := s.opcodes + 1
      drawing := if op.isDrawing then s.drawing + 1 else s.drawing }

/-- The names that are not reported unless a caller says otherwise. -/
def defaultIgnored : List String := ["URL"]

structure Pass (σ : Type) where
  device : Device σ
  /-- The state of the device. -/
  surface : σ
  state : State := { }
  ignored : List String := defaultIgnored
  diagnostics : Array Diagnostic := #[]
  stats : Stats := { }

namespace Pass
variable {σ : Type}

/-- Gives primitives to the device while the drawing is visible. -/
def emit (p : Pass σ) (primitives : List Primitive) : Pass σ :=
  if p.state.visible then
    { p with
      surface := p.device.drawAll primitives p.surface
      stats := { p.stats with emitted := p.stats.emitted + primitives.length } }
  else { p with stats := { p.stats with suppressed := p.stats.suppressed + primitives.length } }

def process (p : Pass σ) (op : Opcode) : Pass σ :=
  let (state, primitives) := p.state.step op
  emit
    { p with
      state
      stats := p.stats.count op
      diagnostics :=
        p.diagnostics ++ (Diagnostic.ofOpcode? p.ignored p.stats.opcodes op).toArray }
    primitives

def execute (p : Pass σ) (ops : List Opcode) : Pass σ := ops.foldl process p

end Pass

end VectorStream.Render
