import LogicLess.Proofs.Tag.Scan

/-!
# Nested tags

The tags of a template form a word in which the tags of sections have to match. What is wrong with a word
that is not properly nested is told by the longest part of it that could still be completed.
-/

namespace LogicLess

def Sigil.opensSection : Sigil → Bool
  | pound | caret => true
  | _ => false

namespace Tag

/-- A word of tags in which every section is closed, under the key that it is opened under, after all
sections inside it. -/
inductive Nested : List Tag → Prop
  | nil : Nested []
  | leaf {tag rest} (hopen : tag.sigil.opensSection = false) (hclose : tag.sigil ≠ .slash)
    (h : Nested rest) : Nested (tag :: rest)
  | block {first last body rest} (hopen : first.sigil.opensSection = true)
    (hclose : last.sigil = .slash) (hkey : last.content = first.content) (hbody : Nested body)
    (h : Nested rest) : Nested (first :: (body ++ last :: rest))

/-- A word of tags that is properly nested but for some sections, innermost first, that are open at its
end. -/
inductive Pending : List Tag → List Tag → Prop
  | nested {tags} (h : Nested tags) : Pending tags []
  | opened {front first body outer} (h : Pending front outer)
    (hopen : first.sigil.opensSection = true) (hbody : Nested body) :
    Pending (front ++ first :: body) (first :: outer)

theorem Pending.nested_of_nil {tags : List Tag} (h : Pending tags []) : Nested tags := by
  cases h with
  | nested h => exact h

/-- The fault of a word of tags that comes first in the source, if the source ends as told after the
tags: a close tag that matches no section, or only after that the way in which the source ends. -/
inductive FirstFault : List Tag → Ending → Fault → Prop
  | unopened {front tag rest ending} (h : Nested front) (hclose : tag.sigil = .slash) :
    FirstFault (front ++ tag :: rest) ending (.unopenedSection tag.region tag.content)
  | mismatched {front first outer tag rest ending} (h : Pending front (first :: outer))
    (hclose : tag.sigil = .slash) (hkey : tag.content ≠ first.content) :
    FirstFault (front ++ tag :: rest) ending
      (.mismatchedSection tag.region first.content tag.delimiters)
  | unreadable {tags opened fault} (h : Pending tags opened) :
    FirstFault tags (.broken fault) fault
  | unclosed {tags first outer text d} (h : Pending tags (first :: outer)) :
    FirstFault tags (.complete text d) (.unclosedSection first.region first.content d)

theorem firstFault_dense_iff {tags : List Tag} {ending : Ending} {fault : Fault} :
    FirstFault tags ending.dense fault ↔ FirstFault tags ending fault := by
  cases ending with
  | broken => rfl
  | complete text d =>
    rw [Ending.dense]
    constructor <;> intro h <;> cases h with
    | unopened h hclose => exact .unopened h hclose
    | mismatched h hclose hkey => exact .mismatched h hclose hkey
    | unclosed h => exact .unclosed h

/-- Tags that stand one behind the other. -/
structure Ordered (tags : List Tag) : Prop where
  start_le : ∀ tag ∈ tags, tag.region.start ≤ tag.region.stop
  pairwise : tags.Pairwise fun s t => s.region.stop ≤ t.region.start

theorem Ordered.sublist {tags tags' : List Tag} (h : Ordered tags) (hs : tags'.Sublist tags) :
    Ordered tags' :=
  ⟨fun tag htag => h.start_le tag (hs.subset htag), h.pairwise.sublist hs⟩

theorem Ordered.inside {first last : Tag} {body rest : List Tag}
    (h : Ordered (first :: (body ++ last :: rest))) : Ordered body :=
  h.sublist ((List.sublist_append_left _ _).trans (List.sublist_cons_self _ _))

theorem Ordered.behind {first last : Tag} {body rest : List Tag}
    (h : Ordered (first :: (body ++ last :: rest))) : Ordered (last :: rest) :=
  h.sublist ((List.sublist_append_right _ _).trans (List.sublist_cons_self _ _))

theorem Ordered.join_eq {first last : Tag} {body rest : List Tag}
    (h : Ordered (first :: (body ++ last :: rest))) :
    first.region.join last.region = ⟨first.region.start, last.region.stop⟩ ∧
      ∀ tag ∈ body, first.region.start ≤ tag.region.start ∧ tag.region.stop ≤ last.region.stop := by
  obtain ⟨hfirst, hpairwise⟩ := List.pairwise_cons.1 h.pairwise
  have hbetween := (List.pairwise_append.1 hpairwise).2.2
  have hstart := h.start_le first (by simp)
  have hstop := h.start_le last (by simp)
  refine ⟨?_, fun tag htag => ?_⟩
  · have hlast := hfirst last (by simp)
    rw [Region.join, Region.mk.injEq]
    omega
  · have hbefore := hfirst tag (by simp [htag])
    have hafter := hbetween tag htag last (by simp)
    omega

end Tag

end LogicLess
