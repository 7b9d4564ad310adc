import ScopeScript.Text.CharWidth
import ScopeScript.Text.Pictograph

/-!
# Columns of a text

How many columns of a terminal a piece of text takes. A character may lose its columns to what
follows it: emoji that a joiner or a skin tone ties together take the columns of one, a selector
asks for the picture or for plain text, and a Khmer letter below another takes none. So the text is
read from its end, and each character knows what it is followed by.
-/

namespace ScopeScript.Text

/-- An emoji without being asked to be one. -/
def isEmoji (c : Char) : Bool := isWide c && isPictograph c && !isEmojiOnRequest c

/-- A Khmer letter that can stand below another. -/
def isSubscriptLetter (c : Char) : Bool :=
  inRanges [(0x1780, 0x1782), (0x1784, 0x1787), (0x1789, 0x178C), (0x178E, 0x1793),
    (0x1795, 0x1798), (0x179B, 0x179D), (0x17A0, 0x17A0), (0x17A2, 0x17A2), (0x17A7, 0x17A7),
    (0x17AB, 0x17AC), (0x17AF, 0x17AF)] c.toNat

/-- A joiner or a mark that is ignored where it is not supported. -/
def isTransparent (c : Char) : Bool :=
  inRanges [(0x34F, 0x34F), (0x17B4, 0x17B5), (0x180B, 0x180D), (0x180F, 0x180F),
    (0x200D, 0x200D), (0xFE00, 0xFE0F), (0xE0100, 0xE01EF)] c.toNat

def isTagLetter (c : Char) : Bool := 0xE0061 ≤ c.toNat && c.toNat ≤ 0xE007A

def isTagDigit (c : Char) : Bool := 0xE0030 ≤ c.toNat && c.toNat ≤ 0xE0039

/-- What a character is followed by, as far as its own columns hang on it. -/
inductive Follower where
  | plain
  | lineFeed
  | emoji
  /-- A skin tone. -/
  | modifier
  /-- A Khmer letter that can stand below another. -/
  | subscript
  /-- One regional indicator. -/
  | region
  /-- Several regional indicators. -/
  | regions
  /-- A joiner before an emoji. -/
  | joined
  /-- A keycap before `joined`. -/
  | joinedKeycap
  /-- One regional indicator before `joined`. -/
  | joinedRegion
  /-- Several regional indicators before `joined`. -/
  | joinedRegions (even : Bool)
  /-- The letters that end the tags before `joined`. -/
  | tagLetters (count : Nat)
  /-- Digits in front of such letters. -/
  | tagDigits (count : Nat)
  /-- The selector of the picture, and what it leaves in sight. -/
  | pictureStyle (behind : Follower)
  /-- The selector of plain text, and what it leaves in sight. -/
  | textStyle (behind : Follower)
  deriving DecidableEq, Repr

namespace Follower

/-- A joiner before an emoji, perhaps with a keycap. -/
def isJoined : Follower → Bool
  | .joined | .joinedKeycap => true
  | _ => false

/-- What a selector of plain text leaves in sight, and both selectors where they have no effect. -/
def lasting : Follower → Follower
  | .subscript => .subscript
  | _ => .plain

/-- What the selector of the picture leaves in sight. -/
def behindPicture (f : Follower) : Follower := if f.isJoined then f else f.lasting

/-- The tags of a whole region: three to six letters, or letters and three digits in front. -/
def namesRegion : Follower → Bool
  | .tagLetters n => 3 ≤ n && n ≤ 6
  | .tagDigits n => n == 3
  | _ => false

end Follower

/-- The columns that a character adds to those of what follows it, and what it is itself as a
follower. -/
abbrev Step := Int × Follower

/-- A character that nothing after it changes. -/
def stepAlone (c : Char) : Step :=
  if c = '\n' then (0, .lineFeed)
  else
    (charWidth c,
      if isModifier c then .modifier
      else if isRegion c then .region
      else if isSubscriptLetter c then .subscript
      else if isEmoji c then .emoji
      else .plain)

/-- A character before a joiner and an emoji. -/
def stepJoined (c : Char) : Step :=
  if c.toNat = 0x20E3 then (0, .joinedKeycap)
  else if c.toNat = 0xE007F then (0, .tagLetters 0)
  else if isRegion c then (1, .joinedRegion)
  else if isModifier c then (0, .modifier)
  else if isEmoji c then (0, .emoji)
  else stepAlone c

/-- A character before regional indicators that come before a joiner and an emoji. A flag joins like
an emoji, and an indicator that has no other half stays apart. -/
def stepRegion (even : Bool) (c : Char) : Step :=
  if isRegion c then (if even then 3 else -1, .joinedRegions !even) else stepAlone c

/-- A character before tags that come before a joiner and an emoji. -/
def stepTag (f : Follower) (c : Char) : Step :=
  if c.toNat = 0x1F3F4 && f.namesRegion then (0, .emoji)
  else
    match f with
    | .tagLetters n =>
      if isTagLetter c && n < 6 then (0, .tagLetters (n + 1))
      else if isTagDigit c && n < 5 then (0, .tagDigits 1)
      else stepAlone c
    | .tagDigits n => if isTagDigit c && n < 3 then (0, .tagDigits (n + 1)) else stepAlone c
    | _ => stepAlone c

/-- A character other than a selector before a follower without one. -/
def stepBefore (c : Char) (f : Follower) : Step :=
  let joiner := c.toNat = 0x200D
  match f with
  | .lineFeed => if c = '\r' then (0, .plain) else stepAlone c
  | .emoji => if joiner then (0, .joined) else stepAlone c
  | .modifier =>
    if joiner then (0, .joined) else if isModifierBase c then (0, .emoji) else stepAlone c
  | .subscript =>
    if c.toNat = 0x17D2 then (-1, .plain)
    else if isTransparent c then (0, .subscript)
    else stepAlone c
  | .region => if isRegion c then (1, .regions) else stepAlone c
  | .regions =>
    if joiner then (0, .joined) else if isRegion c then (1, .regions) else stepAlone c
  | .joined => stepJoined c
  | .joinedRegion => stepRegion false c
  | .joinedRegions even => if joiner then (0, .joined) else stepRegion even c
  | .tagLetters _ | .tagDigits _ => stepTag f c
  | .plain | .joinedKeycap | .pictureStyle _ | .textStyle _ => stepAlone c

/-- A character before a follower that has no selector in front. -/
def stepUnstyled (c : Char) (f : Follower) : Step :=
  if c.toNat = 0xFE0F then (0, .pictureStyle f.behindPicture)
  else if c.toNat = 0xFE0E then (0, .textStyle f.lasting)
  else stepBefore c f

/-- A character before a follower. -/
def step (c : Char) : Follower → Step
  | .pictureStyle behind =>
    if takesPicture c then (if behind.isJoined then 0 else 2, .emoji)
    else stepUnstyled c behind.lasting
  | .textStyle behind =>
    if isTextOnRequest c then (1, .plain) else stepUnstyled c behind
  | f => stepUnstyled c f

/-- The columns of a text, and what its first character is as a follower. -/
def widthFrom (cs : List Char) : Step :=
  cs.foldr (fun c rest => let own := step c rest.2; (own.1 + rest.1, own.2)) (0, .plain)

def width (cs : List Char) : Nat := (widthFrom cs).1.toNat

end ScopeScript.Text
