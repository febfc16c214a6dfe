import LogicLess.Text.WidthClass

/-!
# Display width

The number of terminal columns that a text takes. Most characters take one column, East Asian wide
characters two, marks and joiners none. Some sequences are drawn as one shape and take less than
their characters do: emoji sequences, and ligatures of a few scripts. Whether a character belongs to
such a sequence is decided by what stands to its right, so a text is measured from its end.
-/

namespace LogicLess.Text

/-- The two forms that a variation selector asks for. -/
inductive Style
  | text
  | emoji
  deriving DecidableEq

/-- The tag characters read so far of a flag's region code, from its right end. -/
inductive RegionTags
  | letters (count : Nat)
  | digits (count : Nat)
  deriving DecidableEq

/--
What the text to the right of a character starts with, as far as the width of the character depends
on it.
-/
inductive Start
  | other
  | lineFeed
  | emoji
  | tone
  | flagLetter
  /-- At least two letters of flags. -/
  | flagLetters
  | joinedEmoji
  | joinedKeycap
  | joinedFlagLetter
  /-- Whole flags before a joined emoji. -/
  | joinedFlags
  /-- Whole flags and a letter on their left, before a joined emoji. -/
  | joinedFlagsAndLetter
  /-- The end of a flag's region code before a joined emoji. -/
  | joinedRegion (tags : RegionTags)
  | alef
  /-- A Hebrew lamed, with a joiner before it or not. -/
  | lamed (joined : Bool)
  /-- A Buginese ya, with a joiner before it or not. -/
  | ya (joined : Bool)
  /-- A Buginese vowel sign i before a joined ya. -/
  | vowelBeforeYa
  /-- A Tifinagh consonant, with U+200D before it or not. -/
  | tifinagh (joined : Bool)
  /-- The Tifinagh consonant joiner before a consonant. -/
  | tifinaghJoiner
  | lisuTone
  /-- An Old Turkic orkhon i, with a joiner before it or not. -/
  | orkhonI (joined : Bool)
  | khmerLetter
  deriving DecidableEq

structure RightContext where
  start : Start
  /-- The variation selector before `start`. -/
  style : Option Style
  deriving DecidableEq

namespace Start

/-- The start of an emoji sequence that another emoji may still join from the left. -/
def awaitsEmoji : Start → Bool
  | joinedEmoji | joinedKeycap => true
  | _ => false

/-- The end of a ligature that is drawn across joiners and selectors; not an Arabic one. -/
def endsLigature : Start → Bool
  | lamed _ | ya _ | vowelBeforeYa | tifinagh _ | tifinaghJoiner | lisuTone | orkhonI _
  | khmerLetter => true
  | _ => false

/-- Whether a variation selector leaves the start as it is. -/
def keepsBehindStyle (s : Start) : Bool := s.endsLigature || s = alef

/-- The end of a ligature behind a joiner. -/
def join : Start → Start
  | lamed _ => lamed true
  | ya _ => ya true
  | tifinagh _ => tifinagh true
  | orkhonI _ => orkhonI true
  | s => s

end Start

namespace RightContext

def plain : RightContext := ⟨.other, none⟩

def emojiStyled (r : RightContext) : RightContext :=
  ⟨if r.start.keepsBehindStyle || r.start.awaitsEmoji then r.start else .other, some .emoji⟩

def textStyled (r : RightContext) : RightContext :=
  ⟨if r.start.keepsBehindStyle then r.start else .other, some .text⟩

/-- The start that a character without two forms meets: it makes the selector before it void. -/
def unstyled (r : RightContext) : Start :=
  if r.style = none || r.start.keepsBehindStyle then r.start else .other

end RightContext

def isTone (c : Char) : Bool := inRanges [(0x1F3FB, 0x1F3FF)] c

def isFlagLetter (c : Char) : Bool := inRanges [(0x1F1E6, 0x1F1FF)] c

def isTagLetter (c : Char) : Bool := inRanges [(0xE0061, 0xE007A)] c

def isTagDigit (c : Char) : Bool := inRanges [(0xE0030, 0xE0039)] c

def isLam (c : Char) : Bool :=
  inRanges [(0x644, 0x644), (0x6B5, 0x6B8), (0x76A, 0x76A), (0x8A6, 0x8A6), (0x8C7, 0x8C7)] c

def isAlef (c : Char) : Bool :=
  inRanges [(0x622, 0x623), (0x625, 0x625), (0x627, 0x627), (0x671, 0x673), (0x675, 0x675),
    (0x773, 0x774), (0x870, 0x882)] c

def isTifinaghConsonant (c : Char) : Bool := inRanges [(0x2D31, 0x2D65), (0x2D6F, 0x2D6F)] c

/-- The Khmer letters with a subscript form of no width. -/
def isKhmerLetter (c : Char) : Bool :=
  inRanges [(0x1780, 0x1782), (0x1784, 0x1787), (0x1789, 0x178C), (0x178E, 0x1793),
    (0x1795, 0x1798), (0x179B, 0x179D), (0x17A0, 0x17A0), (0x17A2, 0x17A2), (0x17A7, 0x17A7),
    (0x17AB, 0x17AC), (0x17AF, 0x17AF)] c

/-- Joiners and default-ignorable marks, which a ligature is drawn across. -/
def isLigatureFiller (c : Char) : Bool :=
  inRanges [(0x34F, 0x34F), (0x17B4, 0x17B5), (0x180B, 0x180D), (0x180F, 0x180F),
    (0x200D, 0x200D), (0xFE00, 0xFE0F), (0xE0100, 0xE01EF)] c

/-- Zero-width characters that two Arabic letters join across. -/
def isArabicFiller (c : Char) : Bool :=
  inRanges zeroWidthRanges c && !inRanges joinBreakingRanges c

/-- Characters that the text selector makes narrow. -/
def isNarrowInTextStyle (c : Char) : Bool :=
  inRanges twoStyleRanges c && inRanges emojiRanges c && !inRanges [(0x1F200, 0x1F2FF)] c

/-- What a character of one column that stands on its own is to its left neighbour. -/
def narrowStart (c : Char) : Start :=
  if isAlef c then .alef
  else if c = '\u05DC' then .lamed false
  else if c = '\u1A10' then .ya false
  else if isTifinaghConsonant c then .tifinagh false
  else if c = '\uA4FC' || c = '\uA4FD' then .lisuTone
  else if c.toNat = 0x10C03 then .orkhonI false
  else if isKhmerLetter c then .khmerLetter
  else .other

/-- The columns of a character on its own, and what it is to its left neighbour. -/
def isolatedWidth (c : Char) : Int × Start :=
  if isFlagLetter c then (1, .flagLetter)
  else if isTone c then (2, .tone)
  else if inRanges emojiRanges c then (2, .emoji)
  else if inRanges zeroWidthRanges c then (0, .other)
  else if inRanges wideRanges c then (2, .other)
  else if c = '\u17D8' then (3, .other)
  else (1, narrowStart c)

def RegionTags.extend (tags : RegionTags) (c : Char) : Option RegionTags :=
  match tags with
  | letters n =>
    if isTagLetter c && n < 6 then some (letters (n + 1))
    else if isTagDigit c && n ≤ 4 then some (digits 1)
    else none
  | digits n => if isTagDigit c && n < 3 then some (digits (n + 1)) else none

def RegionTags.isComplete : RegionTags → Bool
  | letters n => 3 ≤ n && n ≤ 6
  | digits n => n = 3

/--
The columns that a character adds to a sequence which it forms with what stands to its right, and
what they are together. A part that is drawn inside another adds nothing; a negative number takes
back columns that were counted for a part before it was known to be drawn inside another.
-/
def sequenceWidth (c : Char) (right : Start) : Option (Int × Start) :=
  match right with
  | .emoji => if c = '\u200D' then some (0, .joinedEmoji) else none
  | .tone =>
    if inRanges toneBaseRanges c then some (0, .emoji)
    else if c = '\u200D' then some (0, .joinedEmoji)
    else none
  | .flagLetter => if isFlagLetter c then some (1, .flagLetters) else none
  | .flagLetters =>
    if isFlagLetter c then some (1, .flagLetters)
    else if c = '\u200D' then some (0, .joinedEmoji)
    else none
  | .joinedEmoji =>
    if c = '\u20E3' then some (0, .joinedKeycap)
    else if isFlagLetter c then some (1, .joinedFlagLetter)
    else if isTone c then some (0, .tone)
    else if c.toNat = 0xE007F then some (0, .joinedRegion (.letters 0))
    else if inRanges emojiRanges c then some (0, .emoji)
    else none
  | .joinedFlagLetter => if isFlagLetter c then some (-1, .joinedFlags) else none
  | .joinedFlags =>
    if isFlagLetter c then some (3, .joinedFlagsAndLetter)
    else if c = '\u200D' then some (0, .joinedEmoji)
    else none
  | .joinedFlagsAndLetter =>
    if isFlagLetter c then some (-1, .joinedFlags)
    else if c = '\u200D' then some (0, .joinedEmoji)
    else none
  | .joinedRegion tags =>
    if c.toNat = 0x1F3F4 && tags.isComplete then some (0, .emoji)
    else (tags.extend c).map fun tags => (0, .joinedRegion tags)
  | .alef =>
    if isLam c then some (0, .other)
    else if isArabicFiller c then some (0, .alef)
    else none
  | .lamed joined => if joined && c = '\u05D0' then some (0, .other) else none
  | .ya joined => if joined && c = '\u1A17' then some (0, .vowelBeforeYa) else none
  | .vowelBeforeYa => if c = '\u1A15' then some (0, .other) else none
  | .tifinagh joined =>
    if c = '\u2D7F' then some (1, .tifinaghJoiner)
    else if joined && isTifinaghConsonant c then some (0, .other)
    else none
  | .tifinaghJoiner => if isTifinaghConsonant c then some (-1, .other) else none
  | .lisuTone => if inRanges [(0xA4F8, 0xA4FB)] c then some (0, .other) else none
  | .orkhonI joined => if joined && c.toNat = 0x10C32 then some (0, .other) else none
  | .khmerLetter => if c = '\u17D2' then some (-1, .other) else none
  | .other | .lineFeed | .joinedKeycap => none

/-- The columns that a character adds before a context, and the context that both are together. -/
def charWidth (c : Char) (right : RightContext) : Int × RightContext :=
  if right.style = some .emoji && inRanges twoStyleRanges c then
    (if right.start.awaitsEmoji then 0 else 2, ⟨.emoji, none⟩)
  else if c.toNat ≤ 0xA0 then
    if c = '\n' then (0, ⟨.lineFeed, none⟩)
    else if c = '\r' && right = ⟨.lineFeed, none⟩ then (0, .plain)
    else (1, .plain)
  else if c = '\uFE0F' then
    (0, (if right.style = some .emoji then ⟨right.unstyled, none⟩ else right).emojiStyled)
  else if c = '\uFE0E' then
    (0, (if right.style = some .emoji then ⟨right.unstyled, none⟩ else right).textStyled)
  else if right.style = some .text && isNarrowInTextStyle c then (1, .plain)
  else
    let start := right.unstyled
    if start.endsLigature && isLigatureFiller c then
      (0, ⟨if c = '\u200D' then start.join else start, none⟩)
    else
      let (columns, start) := (sequenceWidth c start).getD (isolatedWidth c)
      (columns, ⟨start, none⟩)

def displayWidth (s : List Char) : Nat :=
  (s.foldr
    (fun c (total, right) => ((charWidth c right).1 + total, (charWidth c right).2))
    ((0 : Int), RightContext.plain)).1.toNat

end LogicLess.Text
