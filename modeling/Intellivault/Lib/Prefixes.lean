import Mathlib.Logic.Basic

/-!
# Prefixes of fixed-width addresses

A `Prefix` stands for the addresses that share its leading bits.  Two prefixes are nested or
have no address in common, so which of them meet is decided on their base addresses.
-/

namespace Intellivault.Lib

variable {w : Nat}

/-- The mask that keeps the leading `n` bits. -/
def leading (w n : Nat) : BitVec w := BitVec.allOnes w <<< (w - n)

/-- A base address and how many of its leading bits count; the other bits of it are clear. -/
structure Prefix (w : Nat) where
  base : BitVec w
  length : Nat
  clear : base &&& leading w length = base

instance : Membership (BitVec w) (Prefix w) where
  mem p a := a &&& leading w p.length = p.base

instance (a : BitVec w) (p : Prefix w) : Decidable (a ∈ p) :=
  inferInstanceAs (Decidable (a &&& leading w p.length = p.base))

namespace Prefix

variable {p q : Prefix w} {a : BitVec w}

theorem mem_iff : a ∈ p ↔ a &&& leading w p.length = p.base := Iff.rfl

/-- The base address of the shorter of two prefixes holds the longer one, or neither. -/
def Meets (p q : Prefix w) : Prop :=
  if p.length ≤ q.length then q.base ∈ p else p.base ∈ q

instance (p q : Prefix w) : Decidable (p.Meets q) := by
  unfold Meets
  infer_instance

end Prefix

/-- Fewer leading bits are left of more. -/
theorem leading_and_leading {m n : Nat} (le : m ≤ n) :
    leading w n &&& leading w m = leading w m := by
  apply BitVec.eq_of_getLsbD_eq
  intro i below
  simp only [leading, BitVec.getLsbD_and, BitVec.getLsbD_shiftLeft, BitVec.getLsbD_allOnes]
  by_cases kept : w - m ≤ i
  · have kept' : w - n ≤ i := by omega
    have within : ∀ k, i - k < w := fun k => Nat.lt_of_le_of_lt (Nat.sub_le i k) below
    simp [within, Nat.not_lt.mpr kept, Nat.not_lt.mpr kept']
  · simp [Nat.not_le.mp kept]

namespace Prefix

variable {p q : Prefix w} {a : BitVec w}

/-- An address of a longer prefix is in a shorter one if and only if the base address is. -/
theorem mem_iff_base (shorter : p.length ≤ q.length) (inside : a ∈ q) : a ∈ p ↔ q.base ∈ p := by
  have same : q.base &&& leading w p.length = a &&& leading w p.length := by
    rw [← mem_iff.mp inside, BitVec.and_assoc, leading_and_leading shorter]
  rw [mem_iff, mem_iff, same]

/-- Prefixes with an address in common are nested. -/
theorem meets_of_mem (left : a ∈ p) (right : a ∈ q) : p.Meets q := by
  unfold Meets
  split
  · rename_i shorter
    exact (mem_iff_base shorter right).mp left
  · rename_i longer
    exact (mem_iff_base (Nat.le_of_not_le longer) left).mp right

/-- An address of a prefix that meets none of a list is in none of them. -/
theorem not_mem_of_apart {ps : List (Prefix w)} (apart : ∀ q ∈ ps, ¬p.Meets q) (inside : a ∈ p) :
    ∀ q ∈ ps, a ∉ q :=
  fun q mem also => apart q mem (meets_of_mem inside also)

end Prefix

end Intellivault.Lib
