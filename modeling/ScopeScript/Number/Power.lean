/-!
# Powers of two and ten

The two powers that number formats are made of.
-/

namespace ScopeScript

def twoPow (n : Nat) : Nat := Nat.pow 2 n

def tenPow (n : Nat) : Nat := Nat.pow 10 n

@[simp] theorem tenPow_zero : tenPow 0 = 1 := rfl

theorem twoPow_succ (n : Nat) : twoPow (n + 1) = twoPow n * 2 := rfl

theorem twoPow_pos : ∀ n, 0 < twoPow n
  | 0 => Nat.one_pos
  | n + 1 => Nat.mul_pos (twoPow_pos n) (by decide)

theorem tenPow_pos : ∀ n, 0 < tenPow n
  | 0 => Nat.one_pos
  | n + 1 => Nat.mul_pos (tenPow_pos n) (by decide)

end ScopeScript
