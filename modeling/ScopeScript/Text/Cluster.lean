import ScopeScript.Text.Conjunct
import ScopeScript.Text.Width

/-!
# Clusters

What a reader takes for one character can be several: a letter with its marks, a flag, a family of
emoji, a conjunct. `clusters` cuts text into the extended grapheme clusters of the Unicode standard,
as far as a row can show them. It reads the text once; what decides whether the next character joins
is the `Tail` of what was read.
-/

namespace ScopeScript.Text

def controlRanges : List (Nat × Nat) := [
  (0x0, 0x9), (0xB, 0xC), (0xE, 0x1F), (0x7F, 0x9F), (0xAD, 0xAD), (0x61C, 0x61C), (0x180E, 0x180E),
  (0x200B, 0x200B), (0x200E, 0x200F), (0x2028, 0x202E), (0x2060, 0x206F), (0xFEFF, 0xFEFF),
  (0xFFF0, 0xFFFB), (0x13430, 0x1343F), (0x1BCA0, 0x1BCA3), (0x1D173, 0x1D17A), (0xE0000, 0xE001F),
  (0xE0080, 0xE00FF), (0xE01F0, 0xE0FFF)]

/-- What a character does at the edge of a cluster. A Hangul letter or syllable joins those that
complete it. -/
inductive Joining where
  | other | carriageReturn | lineFeed | control
  | extender | joiner | spacing | prepended
  | consonant | pictograph | region
  | leading | vowel | trailing | openSyllable | closedSyllable
  deriving DecidableEq, Repr

namespace Joining

/-- The Hangul letters and syllables. Some vowels of Kirat Rai join like those of Hangul. -/
def ofHangul? (n : Nat) : Option Joining :=
  if n < 0x1100 then none
  else if inRanges [(0x1100, 0x115F), (0xA960, 0xA97C)] n then some .leading
  else if inRanges [(0x1160, 0x11A7), (0xD7B0, 0xD7C6), (0x16D63, 0x16D63), (0x16D67, 0x16D6A)] n
    then some .vowel
  else if inRanges [(0x11A8, 0x11FF), (0xD7CB, 0xD7FB)] n then some .trailing
  else if 0xAC00 ≤ n && n ≤ 0xD7A3 then
    some (if (n - 0xAC00) % 28 = 0 then .openSyllable else .closedSyllable)
  else none

/-- The part that a character from U+00A9 on plays. -/
def ofHigh (c : Char) : Joining :=
  let n := c.toNat
  if n = 0x200D then .joiner
  else if inRanges controlRanges n then .control
  else if isExtender c || isModifier c || n == 0xFF9E || n == 0xFF9F then .extender
  else if isSpacing c then .spacing
  else if isPrepended c then .prepended
  else if isConsonant c then .consonant
  else if isRegion c then .region
  else if isPictograph c then .pictograph
  else (ofHangul? n).getD .other

def ofChar (c : Char) : Joining :=
  if c = '\r' then .carriageReturn
  else if c = '\n' then .lineFeed
  else if c.toNat < 0xA9 then
    if c.toNat < 0x20 || (0x7F ≤ c.toNat && c.toNat < 0xA0) then .control else .other
  else ofHigh c

end Joining

/-- The end of the text read so far, as far as the next character can tell. -/
structure Tail where
  /-- The part of the last character. -/
  last : Joining
  /-- A pictograph and combining characters, then perhaps a joiner. -/
  pictograph : Bool
  /-- A consonant and marks; `some true` when a linker is among the marks. -/
  conjunct : Option Bool
  /-- A flag of which only the first half is there. -/
  halfFlag : Bool
  deriving DecidableEq, Repr

namespace Tail

/-- The start of the text. -/
def start : Tail := ⟨.control, false, none, false⟩

def push (t : Tail) (c : Char) : Tail :=
  let part := Joining.ofChar c
  { last := part
    pictograph :=
      part == .pictograph ||
        ((part == .extender || part == .joiner) && t.pictograph && t.last != .joiner)
    conjunct :=
      if part = .consonant then some false
      else if part = .extender && isLinker c then t.conjunct.map fun _ => true
      else if part = .joiner ∨ (part = .extender ∧ c.toNat ≠ 0x200C) then t.conjunct
      else none
    halfFlag := part == .region && !t.halfFlag }

/-- Whether a character of this part belongs to the cluster at the end. -/
def joins (t : Tail) (part : Joining) : Bool :=
  match t.last, part with
  | .carriageReturn, .lineFeed => true
  | .carriageReturn, _ | .lineFeed, _ | .control, _ => false
  | _, .carriageReturn | _, .lineFeed | _, .control => false
  | _, .extender | _, .joiner | _, .spacing => true
  | .prepended, _ => true
  | .leading, .leading | .leading, .vowel | .leading, .openSyllable
  | .leading, .closedSyllable => true
  | .openSyllable, .vowel | .openSyllable, .trailing | .vowel, .vowel | .vowel, .trailing => true
  | .closedSyllable, .trailing | .trailing, .trailing => true
  | _, .consonant => t.conjunct == some true
  | .joiner, .pictograph => t.pictograph
  | .region, .region => t.halfFlag
  | _, _ => false

end Tail

/-- The clusters of the rest of a text, when the current one holds `read` (in reverse) and a row of
`columns` columns has `room` left. A cluster that is wider than the row does not count. -/
def clustersFrom (columns room : Nat) (t : Tail) (read : List Char) :
    List Char → List (List Char)
  | [] => [read.reverse]
  | c :: cs =>
    if t.joins (.ofChar c) then clustersFrom columns room (t.push c) (c :: read) cs
    else
      let own := width read.reverse
      if columns < own then read.reverse :: clustersFrom columns room (t.push c) [c] cs
      else if room < own then [read.reverse]
      else read.reverse :: clustersFrom columns (room - own) (t.push c) [c] cs

def clusters (columns : Nat) : List Char → List (List Char)
  | [] => []
  | c :: cs => clustersFrom columns columns (Tail.start.push c) [c] cs

end ScopeScript.Text
