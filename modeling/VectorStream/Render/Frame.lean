import VectorStream.Decoder
import VectorStream.Render.Pass

/-!
# Frames

A frame holds what a whole stream draws. It is made before the device sees anything, so that a
stream with an error leaves the device as it was.
-/
namespace VectorStream.Render

structure Settings where
  /-- The colors that indices refer to, or `none` for the standard palette. -/
  palette : Option Palette := none
  /-- The names of opcodes that need no report. -/
  ignored : List String := defaultIgnored
  /-- Whether the drawing is visible at its start. -/
  visible : Bool := true

namespace Settings

def ignoring (settings : Settings) (name : String) : Settings :=
  { settings with ignored := settings.ignored ++ [name] }

/-- The state in which a pass starts. -/
def initial (settings : Settings) : State :=
  { palette := settings.palette.getD .standard, visible := settings.visible }

end Settings

structure Report where
  stats : Stats := { }
  diagnostics : List Diagnostic := []
  /-- The current point behind the last opcode. -/
  point : Point .long := .origin
  deriving DecidableEq

namespace Pass
variable {σ : Type}

def report (p : Pass σ) : Report := ⟨p.stats, p.diagnostics.toList, p.state.point⟩

/-- A pass with the given settings that has not seen an opcode. -/
def start (settings : Settings) (device : Device σ) (surface : σ) : Pass σ :=
  { device, surface, state := settings.initial, ignored := settings.ignored }

end Pass

structure Frame where
  primitives : List Primitive := []
  report : Report := { }
  deriving DecidableEq

namespace Frame

/-- The frame that a list of opcodes draws. -/
def ofOpcodes (settings : Settings) (ops : List Opcode) : Frame :=
  let pass := (Pass.start settings recorder { }).execute ops
  ⟨pass.surface.primitives.toList, pass.report⟩

def ofStream (dialect : Dialect) (settings : Settings) (data : List UInt8) :
    Except StreamError Frame :=
  (dialect.decode data).map (ofOpcodes settings)

/-- Draws a frame between the two calls that bound it. -/
def commit {σ : Type} (frame : Frame) (device : Device σ) (s : σ) : σ :=
  device.endFrame (device.drawAll frame.primitives (device.beginFrame s))

end Frame

/-- Renders a stream on a device. A stream that cannot be decoded leaves the device alone. -/
def render {σ : Type} (dialect : Dialect) (settings : Settings) (device : Device σ)
    (data : List UInt8) (s : σ) : Except StreamError Report × σ :=
  match Frame.ofStream dialect settings data with
  | .error e => (.error e, s)
  | .ok frame => (.ok frame.report, frame.commit device s)

end VectorStream.Render
