/-!
# Sets of code points

A property that Unicode gives to characters changes at few code points. A set is
given by the code points at which membership changes, in order: a character belongs
to it when an odd number of them are not above it. All tables hold the properties as
Unicode 17.0 defines them.
-/
namespace StyledMarkup

structure CodePointSet where
  /-- Where membership begins and ends by turns, in increasing order. -/
  changes : List Nat
  deriving DecidableEq, Repr

namespace CodePointSet

def contains (set : CodePointSet) (c : Char) : Bool :=
  (set.changes.takeWhile (· ≤ c.toNat)).length % 2 == 1

@[simp] theorem contains_nil (c : Char) : contains ⟨[]⟩ c = false := rfl

/-- Membership, one change after the other: the changes behind a change say the
opposite of what they would say alone. -/
theorem contains_cons (change : Nat) (rest : List Nat) (c : Char) :
    contains ⟨change :: rest⟩ c = (decide (change ≤ c.toNat) && !contains ⟨rest⟩ c) := by
  by_cases h : change ≤ c.toNat
  · have parity : ∀ n : Nat, ((n + 1) % 2 == 1) = !(n % 2 == 1) := by
      intro n
      rcases Nat.mod_two_eq_zero_or_one n with hn | hn <;> simp [Nat.add_mod, hn]
    simp [contains, h, parity]
  · simp [contains, h]

end CodePointSet

end StyledMarkup
