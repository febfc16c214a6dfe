/-!
# Identifier characters

The Unicode property `XID_Continue`: letters, digits, marks and connectors that may stand inside an
identifier. Its members below `0x80` are fixed. From there on every version of Unicode adds to them,
so they are a parameter of all that reads keys.
-/

namespace LogicLess

/-- The members of `XID_Continue` from `0x80` on. -/
class Alphabet where
  contains : Char → Bool

namespace Text

/-- The members of `XID_Continue` below `0x80`: letters, digits and the low line. -/
def isAsciiIdentifier (c : Char) : Bool := c.isAlphanum || c == '_'

/-- The Unicode property `XID_Continue`. -/
def isIdentifier [Alphabet] (c : Char) : Bool :=
  if c.toNat < 0x80 then isAsciiIdentifier c else Alphabet.contains c

end Text

end LogicLess
