import VectorStream.Proofs.Execution

/-!
# Staging

A stream is rendered by recording what it draws and replaying the record on the device. On every
device this comes to the same as interpreting its opcodes there directly, and a stream that cannot
be decoded does nothing. So of streams that are rendered one after the other each has the result
that it has alone, and the device ends where those that can be decoded take it.
-/
namespace VectorStream.Render
variable {σ : Type}

/-- Interprets opcodes on a device itself, between the two calls that bound a frame. -/
def direct (settings : Settings) (device : Device σ) (ops : List Opcode) (s : σ) : Report × σ :=
  let pass := (Pass.start settings device (device.beginFrame s)).execute ops
  (pass.report, device.endFrame pass.surface)

/-- A stream that is to be rendered, and how it is read and drawn. -/
structure Job where
  dialect : Dialect
  settings : Settings
  data : List UInt8

namespace Job

def render (job : Job) (device : Device σ) (s : σ) : Except StreamError Report × σ :=
  Render.render job.dialect job.settings device job.data s

/-- What there is to draw if the stream can be decoded. -/
def decoded? (job : Job) : Option (Settings × List Opcode) :=
  (job.dialect.decode job.data).toOption.map (job.settings, ·)

end Job

/-- Renders streams one after the other on one device. -/
def renderAll (device : Device σ) : List Job → σ → List (Except StreamError Report) × σ
  | [], s => ([], s)
  | job :: jobs, s =>
    let (result, t) := job.render device s
    let (results, u) := renderAll device jobs t
    (result :: results, u)

namespace Frame

/-- The report of a frame is the one that an interpreter makes on any device. -/
theorem report_ofOpcodes (settings : Settings) (device : Device σ) (ops : List Opcode) (s : σ) :
    (ofOpcodes settings ops).report = (direct settings device ops s).1 := by
  rw [ofOpcodes_eq, direct, Pass.execute_eq_behind]
  simp [Pass.behind, Pass.start, Pass.report]

/-- A device that replays a frame ends where an interpreter takes it. -/
theorem commit_ofOpcodes (settings : Settings) (device : Device σ) (ops : List Opcode) (s : σ) :
    (ofOpcodes settings ops).commit device s = (direct settings device ops s).2 := by
  rw [ofOpcodes_eq, direct, Pass.execute_eq_behind]
  rfl

end Frame

namespace Job
variable {job : Job}

theorem render_of_error {e : StreamError} (h : job.dialect.decode job.data = .error e)
    (device : Device σ) (s : σ) : job.render device s = (.error e, s) := by
  simp [render, Render.render, Frame.ofStream, h, Except.map]

theorem render_of_ok {ops : List Opcode} (h : job.dialect.decode job.data = .ok ops)
    (device : Device σ) (s : σ) :
    job.render device s =
      (.ok (direct job.settings device ops s).1, (direct job.settings device ops s).2) := by
  simp only [render, Render.render, Frame.ofStream, h, Except.map]
  rw [Frame.commit_ofOpcodes, Frame.report_ofOpcodes job.settings device ops s]

/-- What a device went through before makes no difference to a result. -/
theorem fst_render (job : Job) (device : Device σ) (s t : σ) :
    (job.render device s).1 = (job.render device t).1 := by
  cases h : job.dialect.decode job.data with
  | error e => rw [render_of_error h, render_of_error h]
  | ok ops =>
    rw [render_of_ok h, render_of_ok h, ← Frame.report_ofOpcodes, ← Frame.report_ofOpcodes]

theorem snd_render (job : Job) (device : Device σ) (s : σ) : (job.render device s).2 =
    job.decoded?.toList.foldl (fun t d => (direct d.1 device d.2 t).2) s := by
  cases h : job.dialect.decode job.data with
  | error e => rw [render_of_error h, decoded?, h]; rfl
  | ok ops => rw [render_of_ok h, decoded?, h]; rfl

end Job

theorem fst_renderAll (device : Device σ) (jobs : List Job) (s t : σ) :
    (renderAll device jobs s).1 = jobs.map fun job => (job.render device t).1 := by
  induction jobs generalizing s with
  | nil => rfl
  | cons job jobs ih =>
    rw [renderAll, List.map_cons, job.fst_render device t s]
    exact congrArg _ (ih _)

theorem snd_renderAll (device : Device σ) (jobs : List Job) (s : σ) :
    (renderAll device jobs s).2 =
      (jobs.filterMap Job.decoded?).foldl (fun t d => (direct d.1 device d.2 t).2) s := by
  induction jobs generalizing s with
  | nil => rfl
  | cons job jobs ih =>
    have hjob := job.snd_render device s
    rw [renderAll, List.filterMap_cons]
    cases hd : job.decoded? with
    | none =>
      rw [hd] at hjob
      simpa [hjob] using ih s
    | some d =>
      rw [hd] at hjob
      simpa [hjob] using ih (direct d.1 device d.2 s).2

/-- Rendering a stream does to a device what interpreting its opcodes does there, with the same
report, and a stream with an error returns that error and leaves the device as it was. Over several
streams the device is taken through those that can be decoded, and each result is the one that the
stream has on its own, in whatever state the device is. -/
theorem renderAll_eq_direct (device : Device σ) (jobs : List Job) (s : σ) :
    (∀ (job : Job) (t : σ), job.render device t =
      match job.dialect.decode job.data with
      | .error e => (.error e, t)
      | .ok ops =>
        (.ok (direct job.settings device ops t).1, (direct job.settings device ops t).2)) ∧
    (renderAll device jobs s).2 =
      (jobs.filterMap Job.decoded?).foldl (fun t d => (direct d.1 device d.2 t).2) s ∧
    ∀ t, (renderAll device jobs s).1 = jobs.map fun job => (job.render device t).1 := by
  refine ⟨?_, snd_renderAll device jobs s, fst_renderAll device jobs s⟩
  intro job t
  cases h : job.dialect.decode job.data with
  | error e => exact Job.render_of_error h device t
  | ok ops => exact Job.render_of_ok h device t

end VectorStream.Render
