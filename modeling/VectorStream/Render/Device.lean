import VectorStream.Render.Primitive

/-!
# Devices

A device draws: it changes its own state at each primitive and at both ends of a frame. The recorder
is the device that keeps what it is given.
-/
namespace VectorStream.Render

/-- A device with states in `σ`. A device that does not care about frames leaves out the calls at
their ends. -/
structure Device (σ : Type) where
  beginFrame : σ → σ := id
  endFrame : σ → σ := id
  line : Point .long → Point .long → Style → σ → σ
  polyline : List (Point .long) → Style → σ → σ
  marker : Point .long → Style → σ → σ
  text : Point .long → String → Style → σ → σ

variable {σ : Type}

/-- The call of a device that a primitive stands for. -/
def Primitive.draw (device : Device σ) (s : σ) : Primitive → σ
  | line a b style => device.line a b style s
  | polyline ps style => device.polyline ps style s
  | marker p style => device.marker p style s
  | text p content style => device.text p content style s

def Device.drawAll (device : Device σ) (primitives : List Primitive) (s : σ) : σ :=
  primitives.foldl (Primitive.draw device) s

/-- The primitives that were drawn and the number of frames that were completed. -/
structure Recording where
  primitives : Array Primitive := #[]
  frames : Nat := 0

def recorder : Device Recording where
  endFrame r := { r with frames := r.frames + 1 }
  line a b style r := { r with primitives := r.primitives.push (.line a b style) }
  polyline ps style r := { r with primitives := r.primitives.push (.polyline ps style) }
  marker p style r := { r with primitives := r.primitives.push (.marker p style) }
  text p content style r := { r with primitives := r.primitives.push (.text p content style) }

theorem draw_recorder (r : Recording) (p : Primitive) :
    p.draw recorder r = { r with primitives := r.primitives.push p } := by
  cases p <;> rfl

/-- The recorder keeps all primitives in the order in which they are drawn. -/
theorem drawAll_recorder (primitives : List Primitive) (r : Recording) :
    recorder.drawAll primitives r = { r with primitives := r.primitives ++ primitives } := by
  induction primitives generalizing r with
  | nil => simp [Device.drawAll]
  | cons p rest ih =>
    rw [Device.drawAll, List.foldl_cons, draw_recorder]
    have h := ih { r with primitives := r.primitives.push p }
    rw [Device.drawAll] at h
    simp [h]

end VectorStream.Render
