import LogicLess.Text.Bytes

/-!
# Regions of a source

A region is a pair of byte offsets into a source text. It need not fit any particular source; its
literal text is empty where it does not.
-/

namespace LogicLess

/-- The bytes from `start` up to, not including, `stop`. -/
structure Region where
  start : Nat
  stop : Nat
  deriving DecidableEq, Repr, Inhabited

namespace Region

/-- The number of bytes covered; none if the offsets are reversed. -/
def length (r : Region) : Nat := r.stop - r.start

def isEmpty (r : Region) : Bool := r.length == 0

/-- The least region from the earlier start to the later stop. -/
def join (r s : Region) : Region :=
  ⟨min r.start s.start, max r.stop s.stop⟩

/-- The text of the region, if its offsets are in order, in range and on character boundaries. -/
def slice? (r : Region) (source : List Char) : Option (List Char) := do
  let (_, rest) ← Text.splitAtByte? r.start source
  if r.start ≤ r.stop then
    let (text, _) ← Text.splitAtByte? (r.stop - r.start) rest
    some text
  else none

/-- The text of the region, or nothing if the region does not fit the source. -/
def literal (r : Region) (source : List Char) : List Char :=
  (r.slice? source).getD []

theorem slice?_append (before text after : List Char) :
    slice? ⟨Text.byteSize before, Text.byteSize before + Text.byteSize text⟩
      (before ++ (text ++ after)) = some text := by
  simp [slice?, Text.splitAtByte?_append]

end Region

end LogicLess
