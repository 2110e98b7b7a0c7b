import VectorStream.Proofs.Progress

/-!
# Registering more layouts

A decoder looks up the ids that it meets at the front of items, and no others. Ids that are entered
into a dialect in addition make no difference unless the decoder stops at one of them for want of a
layout, and an id that is entered again makes none unless the decoder meets it.
-/
namespace VectorStream
open Text

namespace Decoder

/-- The same decoder with another dialect. -/
def withDialect (s : Decoder) (e : Dialect) : Decoder := { s with dialect := e }

variable {s : Decoder} {e : Dialect}

theorem next_withDialect
    (h : s.halted = false → s.dialect.item s.place = e.item s.place) :
    (s.withDialect e).next = (s.next.1, s.next.2.withDialect e) := by
  cases hs : s.halted with
  | true => rw [next_of_halted hs, next_of_halted (s := s.withDialect e) hs]
  | false =>
    have hitem := h hs
    by_cases hrest : s.place.rest = []
    · rw [next_of_finish hs hrest, next_of_finish (s := s.withDialect e) hs hrest]
      rfl
    · cases hi : s.dialect.item s.place with
      | ok op c =>
        rw [next_of_item hs hi, next_of_item (s := s.withDialect e) hs (hitem.symm.trans hi)]
        rfl
      | error fault c =>
        rw [next_of_fail hs hrest hi,
          next_of_fail (s := s.withDialect e) hs hrest (hitem.symm.trans hi)]
        rfl

/-- Where another dialect reads the same items, the decoder goes the same way. -/
theorem after_withDialect (h : ∀ n, (s.after n).halted = false →
    (s.after n).dialect.item (s.after n).place = e.item (s.after n).place) (n : Nat) :
    (s.withDialect e).after n = (s.after n).withDialect e := by
  induction n with
  | zero => rfl
  | succ n ih => rw [after, ih, next_withDialect (h n), after]

theorem items_withDialect (h : ∀ n, (s.after n).halted = false →
    (s.after n).dialect.item (s.after n).place = e.item (s.after n).place) :
    (s.withDialect e).items.1 = s.items.1 := by
  apply List.ext_getElem?
  intro n
  rw [getElem?_items, getElem?_items, item?, item?, after_withDialect h, after_withDialect h,
    next_withDialect (h n)]
  rfl

end Decoder

namespace Dialect

/-- On its way through the data a decoder looks for the layout of the id. -/
def Dispatches (d : Dialect) (data : List UInt8) (id : UInt8) : Prop :=
  ∃ n, ((Decoder.start d data).after n).halted = false ∧
    ((Decoder.start d data).after n).place.peek = some id

/-- The dialect with several layouts entered one after the other. -/
def registerAll (d : Dialect) (entries : List (UInt8 × Layout)) : Dialect :=
  entries.foldl (fun d entry => d.register entry.1 entry.2) d

variable {d e : Dialect} {data : List UInt8} {id : UInt8}

theorem layout?_register (d : Dialect) (id other : UInt8) (layout : Layout) :
    (d.register id layout).layout? other = if other = id then some layout else d.layout? other :=
  Table.find?_insert d.layouts id other layout

theorem keywords_registerAll (d : Dialect) (entries : List (UInt8 × Layout)) :
    (d.registerAll entries).keywords = d.keywords := by
  induction entries generalizing d with
  | nil => rfl
  | cons entry entries ih => exact ih (d.register entry.1 entry.2)

theorem layout?_registerAll_of_notMem {entries : List (UInt8 × Layout)}
    (h : id ∉ entries.map (·.1)) : (d.registerAll entries).layout? id = d.layout? id := by
  induction entries generalizing d with
  | nil => rfl
  | cons entry entries ih =>
    rw [List.map_cons, List.mem_cons, not_or] at h
    exact (ih h.2).trans ((layout?_register d entry.1 id entry.2).trans (if_neg h.1))

/-- An item depends on the layout of the id in front and on the keywords. -/
theorem item_congr (hkeywords : d.keywords = e.keywords) {c : Cursor}
    (h : ∀ id, c.peek = some id → d.layout? id = e.layout? id) : d.item c = e.item c := by
  obtain ⟨offset, rest⟩ := c
  cases rest with
  | nil => rfl
  | cons id rest => simp only [item, h id rfl, hkeywords]

/-- Layouts that are not looked for make no difference. -/
theorem decode_congr (hkeywords : d.keywords = e.keywords)
    (h : ∀ id, d.Dispatches data id → d.layout? id = e.layout? id) :
    e.decode data = d.decode data := by
  have hitem (n : Nat) (hn : ((Decoder.start d data).after n).halted = false) :
      ((Decoder.start d data).after n).dialect.item ((Decoder.start d data).after n).place =
        e.item ((Decoder.start d data).after n).place := by
    rw [Decoder.dialect_after]
    exact item_congr hkeywords fun id hid => h id ⟨n, hn, hid⟩
  exact congrArg (·.mapM (·.result)) (Decoder.items_withDialect hitem)

/-- A decoder that looks for a layout in vain reports the id. -/
theorem decode_of_dispatches (h : d.Dispatches data id) (hid : d.layout? id = none) :
    ∃ offset, d.decode data = .error (.unknownOpcode id offset) := by
  obtain ⟨n, hn, hpeek⟩ := h
  let s := (Decoder.start d data).after n
  obtain ⟨rest, hrest⟩ : ∃ rest, s.place.rest = id :: rest := List.head?_eq_some_iff.1 hpeek
  have hplace : s.place = ⟨s.place.offset, id :: rest⟩ := by rw [← hrest]
  have hitem : s.dialect.item s.place = .error (.unknownOpcode id s.place.offset) s.place := by
    rw [Decoder.dialect_after, hplace]
    exact item_of_layout?_none hid _ _
  have hnext := Decoder.next_of_fail hn (by simp [s, hrest]) hitem
  exact ⟨s.place.offset, decode_eq_error_iff_next.2 ⟨n, congrArg Prod.fst hnext⟩⟩

/-- Entering ids that a dialect does not have changes nothing but streams at which it stops with one
of them as unknown. Entering an id again changes nothing but streams in which it is met. -/
theorem decode_registerAll (d : Dialect) (data : List UInt8) :
    (∀ entries, (∀ entry ∈ entries, d.layout? entry.1 = none) →
      (d.registerAll entries).decode data = d.decode data ∨
        ∃ entry ∈ entries, d.Dispatches data entry.1 ∧
          ∃ offset, d.decode data = .error (.unknownOpcode entry.1 offset)) ∧
    ∀ id layout, (d.register id layout).decode data ≠ d.decode data → d.Dispatches data id := by
  constructor
  · intro entries habsent
    by_cases hmet : ∃ entry ∈ entries, d.Dispatches data entry.1
    · obtain ⟨entry, hentry, hmet⟩ := hmet
      exact .inr ⟨entry, hentry, hmet, decode_of_dispatches hmet (habsent entry hentry)⟩
    · left
      apply decode_congr (keywords_registerAll d entries).symm
      intro id hid
      refine (layout?_registerAll_of_notMem fun hmem => ?_).symm
      obtain ⟨entry, hentry, rfl⟩ := List.mem_map.1 hmem
      exact hmet ⟨entry, hentry, hid⟩
  · intro id layout hne
    have hkeywords : d.keywords = (d.register id layout).keywords := rfl
    refine Classical.byContradiction fun hmet => hne (decode_congr hkeywords ?_)
    intro other hother
    have hdiffers : other ≠ id := fun k => hmet (k ▸ hother)
    rw [layout?_register, if_neg hdiffers]

/-- A new id that stands in a payload stays data, and alone it was unknown. -/
theorem decode_registerAll_payload :
    let more := standard.registerAll [(0x41, Form.weight.layout)]
    standard.layout? 0x41 = none ∧ more.decode [0x63, 0x41] = .ok [.colorIndex 0x41] ∧
      standard.decode [0x41, 0x63] = .error (.unknownOpcode 0x41 0) := by
  intro more
  have habsent : ∀ entry ∈ [(0x41, Form.weight.layout)], standard.layout? entry.1 = none := by
    rintro entry hentry
    obtain rfl := List.mem_singleton.1 hentry
    rfl
  have hpayload : Run .standard (.start [0x63, 0x41]) [.colorIndex 0x41] none ⟨2, []⟩ :=
    .item_of_head (by decide) rfl (.finish rfl)
  have hfront : Run .standard (.start [0x41, 0x63]) [] (some (.unknownOpcode 0x41 0))
      ⟨0, [0x41, 0x63]⟩ := .halt_of_head (by decide) rfl
  refine ⟨habsent _ (List.mem_singleton_self _), ?_, decode_of_run hfront⟩
  rcases (decode_registerAll standard [0x63, 0x41]).1 _ habsent with hsame | ⟨_, _, _, _, hfail⟩
  · exact hsame.trans (decode_of_run hpayload)
  · cases (decode_of_run hpayload).symm.trans hfail

end Dialect

end VectorStream
