import LogicLess.Text.CodePoints

/-!
# Blanks, white space and line breaks

Three classes that template text is cut by: blanks stand around a tag on its own line, white space
separates the delimiters in a delimiter tag, and a line break ends a line.
-/

namespace LogicLess.Text

/-- A space or a tab. -/
def isBlank (c : Char) : Bool := c == ' ' || c == '\t'

def isLineBreak (c : Char) : Bool := c == '\n' || c == '\r'

/-- The Unicode property `White_Space`. -/
def isWhitespace (c : Char) : Bool :=
  inRanges
    [(0x09, 0x0D), (0x20, 0x20), (0x85, 0x85), (0xA0, 0xA0), (0x1680, 0x1680), (0x2000, 0x200A),
      (0x2028, 0x2029), (0x202F, 0x202F), (0x205F, 0x205F), (0x3000, 0x3000)] c

theorem isBlank_iff {c : Char} : isBlank c = true ↔ c = ' ' ∨ c = '\t' := by
  simp [isBlank]

theorem isWhitespace_of_isBlank {c : Char} (h : isBlank c = true) : isWhitespace c = true := by
  rcases isBlank_iff.1 h with rfl | rfl <;> decide

end LogicLess.Text
