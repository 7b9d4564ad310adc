/-!
# Byte offsets into a text

Positions in a text are counted in bytes of its UTF-8 form. `splitAtByte` cuts a text at an offset,
or at the last character boundary before it.
-/

namespace ScopeScript.Text

def byteLength : List Char → Nat
  | [] => 0
  | c :: cs => c.utf8Size + byteLength cs

/-- Cuts a text after the longest prefix of at most `n` bytes. -/
def splitAtByte : Nat → List Char → List Char × List Char
  | _, [] => ([], [])
  | n, c :: cs =>
    if c.utf8Size ≤ n then
      let (before, after) := splitAtByte (n - c.utf8Size) cs
      (c :: before, after)
    else ([], c :: cs)

@[simp] theorem byteLength_nil : byteLength [] = 0 := rfl

@[simp] theorem byteLength_cons (c : Char) (cs : List Char) :
    byteLength (c :: cs) = c.utf8Size + byteLength cs := rfl

@[simp] theorem byteLength_append (cs ds : List Char) :
    byteLength (cs ++ ds) = byteLength cs + byteLength ds := by
  induction cs with
  | nil => simp
  | cons c cs ih => simp [ih, Nat.add_assoc]

/-- The two parts are the text. -/
theorem splitAtByte_append : ∀ (n : Nat) (cs : List Char),
    (splitAtByte n cs).1 ++ (splitAtByte n cs).2 = cs
  | _, [] => rfl
  | n, c :: cs => by
    simp only [splitAtByte]
    split
    · simp [splitAtByte_append (n - c.utf8Size) cs]
    · rfl

/-- The first part is not longer than asked for. -/
theorem byteLength_splitAtByte_le : ∀ (n : Nat) (cs : List Char),
    byteLength (splitAtByte n cs).1 ≤ n
  | _, [] => Nat.zero_le _
  | n, c :: cs => by
    simp only [splitAtByte]
    split
    · have := byteLength_splitAtByte_le (n - c.utf8Size) cs
      simp only [byteLength_cons]
      omega
    · exact Nat.zero_le _

end ScopeScript.Text
