import VectorStream.Scan

/-!
# Languages of words

A language says which words stand for which value. A scan reads a language if it takes a word of
the language off its data whatever follows, succeeds on nothing else, and calls its data truncated
exactly if they are the beginning of a word. Scans that are put together read the words put
together, so that every layout of a stream can be described field by field.
-/
namespace VectorStream

/-- Which words stand for a value. -/
abbrev Language (α : Type) := α → List UInt8 → Prop

namespace Language
variable {α β : Type}

/-- The empty word, which stands for one value. -/
def only (a : α) : Language α := fun b w => b = a ∧ w = []

/-- The word that an encoding gives to a value. -/
def encoded (bytes : α → List UInt8) : Language α := fun a w => w = bytes a

/-- A word of the first language and behind it one of the language that its value selects. -/
def followed (G : Language α) (H : α → Language β) : Language β :=
  fun b w => ∃ a u v, G a u ∧ H a b v ∧ w = u ++ v

/-- The bytes are the beginning of some word. -/
def Begins (G : Language α) (bytes : List UInt8) : Prop := ∃ a w, G a w ∧ bytes <+: w

/-- There is a word. -/
def Inhabited (G : Language α) : Prop := ∃ a w, G a w

theorem begins_nil {G : Language α} (h : G.Inhabited) : G.Begins [] := by
  obtain ⟨a, w, hw⟩ := h
  exact ⟨a, w, hw, w.nil_prefix⟩

end Language

namespace Scan
variable {α β : Type} {s : Scan α} {f : α → Scan β} {G : Language α} {H : α → Language β}

theorem bind_of_ok {c d : Cursor} {a : α} (h : s c = .ok a d) : (s >>= f) c = f a d := by
  change EStateM.bind s f c = f a d
  rw [EStateM.bind, h]

theorem bind_of_error {c d : Cursor} {e : StreamError} (h : s c = .error e d) :
    (s >>= f) c = .error e d := by
  change EStateM.bind s f c = .error e d
  rw [EStateM.bind, h]

structure Reads (s : Scan α) (G : Language α) : Prop where
  accepts : ∀ {a w}, G a w → ∀ offset rest,
    s ⟨offset, w ++ rest⟩ = .ok a ⟨offset + w.length, rest⟩
  sound : ∀ {c a d}, s c = .ok a d → ∃ w, G a w ∧ c.rest = w ++ d.rest
  stuck : ∀ {c e d}, s c = .error e d → (e.isTruncated ↔ G.Begins c.rest)

namespace Reads

theorem congr {G' : Language α} (h : s.Reads G) (hG : ∀ a w, G a w ↔ G' a w) : s.Reads G' := by
  have he : G = G' := funext fun a => funext fun w => propext (hG a w)
  exact he ▸ h

/-- No word is the beginning of another one. -/
theorem unique (h : s.Reads G) {a b : α} {u v p q : List UInt8} (hu : G a u) (hv : G b v)
    (he : u ++ p = v ++ q) : a = b ∧ u = v ∧ p = q := by
  have ha := h.accepts hu 0 p
  rw [he, h.accepts hv 0 q] at ha
  simp only [EStateM.Result.ok.injEq, Cursor.mk.injEq] at ha
  obtain ⟨hab, -, hpq⟩ := ha
  subst hpq
  exact ⟨hab.symm, List.append_cancel_right he, rfl⟩

theorem cursor_eq (h : s.Reads G) {c d : Cursor} {a : α} (hs : s c = .ok a d) :
    ∃ w, G a w ∧ c = ⟨c.offset, w ++ d.rest⟩ ∧ d.offset = c.offset + w.length := by
  obtain ⟨w, hw, hc⟩ := h.sound hs
  have hc' : c = ⟨c.offset, w ++ d.rest⟩ := by rw [← hc]
  rw [hc', h.accepts hw] at hs
  simp only [EStateM.Result.ok.injEq] at hs
  exact ⟨w, hw, hc', by rw [← hs.2]⟩

/-- A scan that fails has no word in front of it. -/
theorem not_word_prefix (h : s.Reads G) {c d : Cursor} {e : StreamError} (hs : s c = .error e d)
    {a : α} {w : List UInt8} (hw : G a w) : ¬ w <+: c.rest := by
  rintro ⟨rest, hr⟩
  have hc : c = ⟨c.offset, w ++ rest⟩ := by rw [hr]
  rw [hc, h.accepts hw] at hs
  cases hs

protected theorem pure (a : α) : Reads (pure a) (Language.only a) where
  accepts := by
    rintro b w ⟨rfl, rfl⟩ offset rest
    rfl
  sound := by
    intro c b d hs
    cases hs
    exact ⟨[], ⟨rfl, rfl⟩, rfl⟩
  stuck := by
    intro c e d hs
    cases hs

/-- A scan that gives up at once has no words. -/
protected theorem throw {e : StreamError} (he : e.isTruncated = false) :
    Reads (throw e : Scan α) fun _ _ => False where
  accepts := fun h => h.elim
  sound := fun hs => by cases hs
  stuck := by
    intro c e' d hs
    cases hs
    constructor
    · intro ht
      exact absurd ht (by simp [he])
    · rintro ⟨a, w, hw, -⟩
      exact hw.elim

/-- The rule for scans in a row. If the data end inside a word of the first language, then this
word may be a dead end for the second one, but there has to be another word that is none. -/
theorem bind_of_begins (hs : s.Reads G) (hf : ∀ a, (f a).Reads (H a))
    (hG : ∀ a u p, G a u → p <+: u → p ≠ u →
      ∃ a' u', G a' u' ∧ p <+: u' ∧ (H a').Inhabited) :
    (s >>= f).Reads (G.followed H) where
  accepts := by
    rintro b w ⟨a, u, v, hu, hv, rfl⟩ offset rest
    rw [List.append_assoc, bind_of_ok (hs.accepts hu offset (v ++ rest)),
      (hf a).accepts hv, List.length_append, Nat.add_assoc]
  sound := by
    intro c b d h
    cases hc : s c with
    | error e c' => rw [bind_of_error hc] at h; cases h
    | ok a c' =>
      rw [bind_of_ok hc] at h
      obtain ⟨u, hu, hr⟩ := hs.sound hc
      obtain ⟨v, hv, hr'⟩ := (hf a).sound h
      exact ⟨u ++ v, ⟨a, u, v, hu, hv, rfl⟩, by rw [hr, hr', List.append_assoc]⟩
  stuck := by
    intro c e d h
    cases hc : s c with
    | error e' c' =>
      rw [bind_of_error hc] at h
      cases h
      rw [hs.stuck hc]
      constructor
      · rintro ⟨a, u, hu, hp⟩
        have hne : c.rest ≠ u := fun k => hs.not_word_prefix hc hu (k ▸ List.prefix_rfl)
        obtain ⟨a', u', hu', hp', b, v, hv⟩ := hG a u c.rest hu hp hne
        exact ⟨b, u' ++ v, ⟨a', u', v, hu', hv, rfl⟩, hp'.trans (List.prefix_append u' v)⟩
      · rintro ⟨b, w, ⟨a, u, v, hu, -, rfl⟩, hp⟩
        rcases List.prefix_or_prefix_of_prefix hp (List.prefix_append u v) with hpu | hup
        · exact ⟨a, u, hu, hpu⟩
        · exact absurd hup (hs.not_word_prefix hc hu)
    | ok a c' =>
      rw [bind_of_ok hc] at h
      obtain ⟨u, hu, hr⟩ := hs.sound hc
      rw [(hf a).stuck h, hr]
      constructor
      · rintro ⟨b, v, hv, hp⟩
        exact ⟨b, u ++ v, ⟨a, u, v, hu, hv, rfl⟩, (List.prefix_append_right_inj u).2 hp⟩
      · rintro ⟨b, w, ⟨a', u', v, hu', hv, rfl⟩, t, ht⟩
        rw [List.append_assoc] at ht
        obtain ⟨rfl, -, hp⟩ := hs.unique hu hu' ht
        exact ⟨b, v, hv, t, hp⟩

protected theorem bind (hs : s.Reads G) (hf : ∀ a, (f a).Reads (H a))
    (hH : ∀ a u, G a u → (H a).Inhabited) : (s >>= f).Reads (G.followed H) :=
  hs.bind_of_begins hf fun a u _ hu hp _ => ⟨a, u, hu, hp, hH a u hu⟩

/-- A value that is computed from the one read has the words of the latter. -/
protected theorem map (hs : s.Reads G) (g : α → β) :
    (s >>= fun a => pure (g a)).Reads fun b w => ∃ a, g a = b ∧ G a w := by
  have h := hs.bind (fun a => Reads.pure (g a)) fun a _ _ => ⟨g a, [], rfl, rfl⟩
  apply h.congr
  intro b w
  constructor
  · rintro ⟨a, u, v, hu, ⟨rfl, rfl⟩, rfl⟩
    exact ⟨a, rfl, by simpa using hu⟩
  · rintro ⟨a, rfl, hw⟩
    exact ⟨a, w, [], hw, ⟨rfl, rfl⟩, by simp⟩

/-- A condition that does not hold leaves no words. -/
theorem guard {p : Prop} [Decidable p] {e : StreamError} (hs : p → s.Reads G)
    (he : e.isTruncated = false) : Reads (if p then s else throw e) fun a w => p ∧ G a w := by
  by_cases hp : p
  · rw [if_pos hp]
    exact (hs hp).congr fun a w => (and_iff_right hp).symm
  · rw [if_neg hp]
    exact (Reads.throw he).congr fun a w => by simp [hp]

/-- Looking at the cursor reads nothing. -/
theorem get_bind {f : Cursor → Scan β} {G : Language β} (h : ∀ c, (f c).Reads G) :
    (get >>= f : Scan β).Reads G where
  accepts := fun hw offset rest => (h ⟨offset, _ ++ rest⟩).accepts hw offset rest
  sound := fun {c} _ _ hs => (h c).sound hs
  stuck := fun {c} _ _ hs => (h c).stuck hs

theorem takeWhile_append_cons {p : UInt8 → Bool} {run v : List UInt8} {x : UInt8}
    (hr : ∀ y ∈ run, p y) (hx : ¬ p x) : (run ++ x :: v).takeWhile p = run := by
  rw [List.takeWhile_append_of_pos hr, List.takeWhile_cons_of_neg hx, List.append_nil]

theorem takeWhile_bind_apply {p : UInt8 → Bool} {f : List UInt8 → Scan β} {run rest : List UInt8}
    (hr : ∀ y ∈ run, p y) (hx : ∀ x v, rest = x :: v → ¬ p x) (offset : Nat) :
    (Scan.takeWhile p >>= f) ⟨offset, run ++ rest⟩ = f run ⟨offset + run.length, rest⟩ := by
  have hrun : (run ++ rest).takeWhile p = run := by
    cases rest with
    | nil => rw [List.takeWhile_append_of_pos hr, List.takeWhile_nil, List.append_nil]
    | cons x v => exact takeWhile_append_cons hr (hx x v rfl)
  change f ((run ++ rest).takeWhile p) (Cursor.skipWhile p ⟨offset, run ++ rest⟩) = _
  rw [hrun, Cursor.skipWhile_append hr, Cursor.skipWhile_of_head hx]

/-- A run of bytes in a class, read as far as it goes, and behind it a word that does not start
in the class. The run alone is the beginning of a word since some word can follow it. -/
theorem takeWhile_bind {p : UInt8 → Bool} {f : List UInt8 → Scan β} {H : List UInt8 → Language β}
    (hf : ∀ run, (f run).Reads (H run)) (hne : ∀ run b, ¬ H run b [])
    (hH : ∀ run, ∃ b x v, H run b (x :: v) ∧ ¬ p x) :
    (Scan.takeWhile p >>= f).Reads fun b w => ∃ run x v,
      (∀ y ∈ run, p y) ∧ ¬ p x ∧ H run b (x :: v) ∧ w = run ++ x :: v where
  accepts := by
    rintro b w ⟨run, x, v, hr, hx, hv, rfl⟩ offset rest
    have hhead (y u) (h : x :: v ++ rest = y :: u) : ¬ p y := by cases h; exact hx
    rw [List.append_assoc, takeWhile_bind_apply hr hhead, (hf run).accepts hv, List.length_append,
      Nat.add_assoc]
  sound := by
    rintro ⟨offset, bytes⟩ b d h
    obtain ⟨run, rest, rfl, hr, hx⟩ := Cursor.exists_run p bytes
    rw [takeWhile_bind_apply hr hx] at h
    obtain ⟨w, hw, hrest⟩ := (hf run).sound h
    cases w with
    | nil => exact absurd hw (hne run b)
    | cons x v =>
      refine ⟨run ++ x :: v, ⟨run, x, v, hr, hx x _ hrest, hw, rfl⟩, ?_⟩
      rw [List.append_assoc, ← hrest]
  stuck := by
    rintro ⟨offset, bytes⟩ e d h
    obtain ⟨run, rest, rfl, hr, hx⟩ := Cursor.exists_run p bytes
    rw [takeWhile_bind_apply hr hx] at h
    rw [(hf run).stuck h]
    obtain ⟨b₀, x₀, v₀, hv₀, hx₀⟩ := hH run
    cases rest with
    | nil =>
      refine iff_of_true (Language.begins_nil ⟨b₀, _, hv₀⟩) ?_
      exact ⟨b₀, _, ⟨run, x₀, v₀, hr, hx₀, hv₀, rfl⟩, x₀ :: v₀, by simp⟩
    | cons x rest =>
      have hxp := hx x rest rfl
      constructor
      · rintro ⟨b, w, hw, v, rfl⟩
        exact ⟨b, _, ⟨run, x, rest ++ v, hr, hxp, hw, rfl⟩, v, by simp⟩
      · rintro ⟨b, w, ⟨run', y, v, hr', hy, hv, rfl⟩, t, ht⟩
        rw [List.append_assoc, List.cons_append] at ht
        have hrun := congrArg (List.takeWhile p) ht
        rw [takeWhile_append_cons hr hxp, takeWhile_append_cons hr' hy] at hrun
        subst hrun
        exact ⟨b, _, hv, t, List.append_cancel_left ht⟩

end Reads

end Scan

end VectorStream
