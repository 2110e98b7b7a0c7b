import VectorStream.Text.Character

/-!
# Payloads of extended opcodes

An extended opcode has a name and then a payload up to the parenthesis that closes it. Parentheses
inside the payload have to balance; those between two equal quotes do not count.
-/
namespace VectorStream.Payload
open Text

def opening : UInt8 := 0x28

def closing : UInt8 := 0x29

/-- A name ends at a separator or a parenthesis. -/
def endsName (b : UInt8) : Bool := Blank.isSeparator b || b = opening || b = closing

def isQuote (b : UInt8) : Bool := b = 0x27 || b = 0x22

/-- Splits the bytes at the closing parenthesis, given the number of open parentheses and the quote
that is open. -/
def splitFrom (depth : Nat) (quote : Option UInt8) (payload : List UInt8) :
    List UInt8 → Option (List UInt8 × List UInt8)
  | [] => none
  | b :: rest =>
    match quote with
    | some q => splitFrom depth (if b = q then none else some q) (b :: payload) rest
    | none =>
      if isQuote b then splitFrom depth (some b) (b :: payload) rest
      else if b = opening then splitFrom (depth + 1) none (b :: payload) rest
      else if b = closing then
        match depth with
        | 0 => some (payload.reverse, rest)
        | depth + 1 => splitFrom depth none (b :: payload) rest
      else splitFrom depth none (b :: payload) rest

/-- The payload at the front and what follows its closing parenthesis, or `none` if there is no
such parenthesis. -/
def split (bytes : List UInt8) : Option (List UInt8 × List UInt8) := splitFrom 0 none [] bytes

theorem splitFrom_eq_some {depth : Nat} {quote : Option UInt8}
    {read bytes payload rest : List UInt8}
    (h : splitFrom depth quote read bytes = some (payload, rest)) :
    ∃ p, payload = read.reverse ++ p ∧ bytes = p ++ closing :: rest := by
  induction bytes generalizing depth quote read with
  | nil => simp [splitFrom] at h
  | cons b bytes ih =>
    have step {d : Nat} {q : Option UInt8}
        (h : splitFrom d q (b :: read) bytes = some (payload, rest)) :
        ∃ p, payload = read.reverse ++ p ∧ b :: bytes = p ++ closing :: rest := by
      obtain ⟨p, hp, hb⟩ := ih h
      exact ⟨b :: p, by simp [hp], by simp [hb]⟩
    unfold splitFrom at h
    cases quote with
    | some q => exact step h
    | none =>
      simp only at h
      split at h
      · exact step h
      · split at h
        · exact step h
        · split at h
          · rename_i hb
            cases depth with
            | zero =>
              simp only [Option.some.injEq, Prod.mk.injEq] at h
              exact ⟨[], by simp [h.1], by simp [hb, h.2]⟩
            | succ depth => exact step h
          · exact step h

/-- A split loses nothing but the closing parenthesis. -/
theorem split_eq_some {bytes payload rest : List UInt8} (h : split bytes = some (payload, rest)) :
    bytes = payload ++ closing :: rest := by
  obtain ⟨p, hp, hb⟩ := splitFrom_eq_some h
  simp_all

end VectorStream.Payload
