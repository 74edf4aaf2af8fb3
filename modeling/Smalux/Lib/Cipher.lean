/-
  Subject:   An ideal authenticated cipher for one direction of a channel.

  A cipher is a key and a nonce. What is sealed can be opened by the cipher that sealed it, and by
  no other.

  * `Aligned` -- a receiver that opens the sealed bodies in turn, and switches keys after those
    that tell it to, opens every one of them.
-/
import Mathlib.Data.List.Basic

namespace Lib

/-- The key in use (how often it has been replaced) and the number of the next body. -/
structure Cipher where
  key : Nat
  nonce : Nat
  deriving DecidableEq, Repr

structure Sealed (α : Type) where
  cipher : Cipher
  body : α
  deriving DecidableEq, Repr

namespace Cipher

def next (c : Cipher) : Cipher := { c with nonce := c.nonce + 1 }

/-- The next key. The nonce is not reset. -/
def rekey (c : Cipher) : Cipher := { c with key := c.key + 1 }

def encrypt {α : Type} (c : Cipher) (body : α) : Sealed α × Cipher := (⟨c, body⟩, c.next)

/-- A failed attempt does not use up the nonce. -/
def decrypt {α : Type} (c : Cipher) (s : Sealed α) : Option α × Cipher :=
  if s.cipher = c then (some s.body, c.next) else (none, c)

/-- The receiver's cipher after a body, if it switches keys after those `switches` picks. -/
def after {α : Type} (switches : α → Bool) (c : Cipher) (body : α) : Cipher :=
  if switches body then c.next.rekey else c.next

end Cipher

/-- Opened in turn from the first cipher on, the bodies leave the receiver with the second. -/
def Aligned {α : Type} (switches : α → Bool) : Cipher → List (Sealed α) → Cipher → Prop
  | c, [], c' => c = c'
  | c, s :: rest, c' => s.cipher = c ∧ Aligned switches (c.after switches s.body) rest c'

section Aligned

variable {α : Type} {switches : α → Bool} {c c' : Cipher} {frames : List (Sealed α)}

/-- One more body, sealed with the cipher the others lead to. -/
theorem Aligned.snoc (h : Aligned switches c frames c') (body : α) :
    Aligned switches c (frames ++ [⟨c', body⟩]) (c'.after switches body) := by
  induction frames generalizing c with
  | nil =>
    cases h
    exact ⟨rfl, rfl⟩
  | cons s rest ih => exact ⟨h.1, ih h.2⟩

/-- The bodies before one of them lead to the cipher it is sealed with. -/
theorem Aligned.before {rest : List (Sealed α)} {s : Sealed α}
    (h : Aligned switches c (frames ++ s :: rest) c') : Aligned switches c frames s.cipher := by
  induction frames generalizing c with
  | nil => exact h.1.symm
  | cons _ _ ih => exact ⟨h.1, ih h.2⟩

theorem Aligned.unique {c'' : Cipher} (h : Aligned switches c frames c')
    (h' : Aligned switches c frames c'') : c' = c'' := by
  induction frames generalizing c with
  | nil => exact h.symm.trans h'
  | cons _ _ ih => exact ih h.2 h'.2

end Aligned

end Lib
