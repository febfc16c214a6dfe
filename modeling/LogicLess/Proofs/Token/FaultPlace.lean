import LogicLess.Proofs.Diagnostic.Pointer
import LogicLess.Proofs.Tag.InForce
import LogicLess.Proofs.Token.Structure
import LogicLess.Template
import LogicLess.Text.IdentifierTable

/-!
# Where faults are reported

A template text that is refused is reported at its first fault. The report points at the tag that is at
fault, which begins with the opening delimiter in force there.
-/

namespace LogicLess

namespace Tag

theorem FirstFault.region_eq {tags : List Tag} {ending : Ending} {fault : Fault}
    (h : FirstFault tags ending fault) :
    (∃ tag ∈ tags, fault.region = tag.region) ∨ ending = .broken fault := by
  cases h with
  | @unopened front tag rest _ _ _ => exact .inl ⟨tag, by simp, rfl⟩
  | @mismatched front first outer tag rest _ _ _ _ => exact .inl ⟨tag, by simp, rfl⟩
  | unreadable _ => exact .inr rfl
  | @unclosed _ first outer text d h =>
    cases h with
    | opened _ _ _ => exact .inl ⟨first, by simp, rfl⟩

theorem FirstFault.exists_slice? [Alphabet] {d : Delimiters} {source : List Char} {fault : Fault}
    (h : FirstFault ((scan (.start d source)).1.map Prod.snd) (scan (.start d source)).2 fault) :
    ∃ inner, fault.region.slice? source =
      some ((delimitersAt d source fault.region.start).opening ++ inner) := by
  rcases h.region_eq with ⟨tag, htag, hregion⟩ | hbroken
  · obtain ⟨hdelimiters, inner, hslice⟩ := exists_slice?_of_mem_scan htag
    refine ⟨inner ++ tag.delimiters.closing, ?_⟩
    rw [hregion, ← hdelimiters, hslice, List.append_assoc]
  · exact exists_slice?_of_broken hbroken

end Tag

/-- The report is about the part `text` of the source, which begins with the given delimiter. It shows the
line that this part begins on. -/
structure Diagnostic.PointsAt (report : Diagnostic) (opening source before text after : List Char) :
    Prop where
  source_eq : source = before ++ (text ++ after)
  region_eq : report.region =
    some ⟨Text.byteSize before, Text.byteSize before + Text.byteSize text⟩
  start_lt : Text.byteSize before < Text.byteSize before + Text.byteSize text
  stop_le : Text.byteSize before + Text.byteSize text ≤ Text.byteSize source
  opens : opening <+: text
  line_eq : report.pointer.map Pointer.line = some (before.count '\n')

theorem Diagnostic.exists_pointsAt {report : Diagnostic} {source opening inner : List Char}
    {region : Region} (hregion : report.region = some region)
    (hpointer : report.pointer = some (Pointer.ofRegion source region)) (hopening : opening ≠ [])
    (h : region.slice? source = some (opening ++ inner)) :
    ∃ before text after, report.PointsAt opening source before text after := by
  obtain ⟨before, after, rfl, rfl⟩ := Region.slice?_eq_some_iff.1 h
  have hne : opening ++ inner ≠ [] := by simp [hopening]
  refine ⟨before, opening ++ inner, after, {
    source_eq := rfl
    region_eq := hregion
    start_lt := Nat.lt_add_of_pos_right (Text.byteSize_pos hne)
    stop_le := by simp only [Text.byteSize_append]; omega
    opens := List.prefix_append opening inner
    line_eq := ?_ }⟩
  rw [hpointer, Option.map_some, Pointer.ofRegion, Pointer.line_measure _ _ rfl]
  simp [hopening]

theorem Token.parse_eq_error_iff [Alphabet] {d : Delimiters} {source : List Char} {fault : Fault} :
    parse d source = .error fault ↔ Tag.FirstFault ((Tag.scan (.start d source)).1.map Prod.snd)
      (Tag.scan (.start d source)).2 fault := by
  obtain ⟨htags, hending⟩ := map_tag_readAll d source
  refine ofLexemes_eq_error_iff.trans ?_
  rw [← Tag.firstFault_dense_iff, htags, hending, Tag.firstFault_dense_iff]

namespace Template

/-- A text that is refused is reported under the given name for the fault that comes first in it. The
report points at the tag at fault, which begins with the opening delimiter in force there. -/
theorem points_at_fault [Alphabet] {d : Delimiters} {source : List Char} {name : Option String}
    {report : Diagnostic} (h : compile d source name = .error report) :
    let stream := Tag.scan (.start d source)
    ∃ fault, Tag.FirstFault (stream.1.map Prod.snd) stream.2 fault ∧
      report.kind = some fault.kind ∧ report.reason = fault.kind.reason ∧ report.name = name ∧
      report.region = some fault.region ∧ ∃ before text after,
        report.PointsAt (Tag.delimitersAt d source fault.region.start).opening source before text
          after := by
  intro stream
  unfold compile at h
  split at h
  · cases h
  · next fault hfault =>
    rw [← Except.error.inj h]
    have hfirst := Token.parse_eq_error_iff.1 hfault
    obtain ⟨inner, hslice⟩ := hfirst.exists_slice?
    exact ⟨fault, hfirst, rfl, rfl, rfl, rfl,
      Diagnostic.exists_pointsAt rfl rfl (Delimiters.opening_ne_nil _) hslice⟩

/-- A section that is closed under another key, after a change of delimiters. -/
theorem points_at_fault_mismatched :
    let d : Delimiters := ⟨['<', '%'], ['%', '>'], by decide, by decide⟩
    let source := "a\n<%=[[ ]]=%>\nx\n[[#s]] [[/t]]".toList
    let stream := Tag.scan (.start d source)
    (Tag.delimitersAt d source 23).opening = ['[', '['] ∧
      ∃ report, compile d source (some "page") = .error report ∧
        report.kind = some .mismatchedSection ∧ report.region = some ⟨23, 29⟩ ∧
        ∃ fault, Tag.FirstFault (stream.1.map Prod.snd) stream.2 fault ∧
          report.kind = some fault.kind ∧ report.reason = fault.kind.reason ∧
          report.name = some "page" ∧ report.region = some fault.region ∧ ∃ before text after,
            report.PointsAt (Tag.delimitersAt d source fault.region.start).opening source before text
              after := by
  intro d source stream
  have hreport : (match compile d source (some "page") with
      | .error report => (report.kind, report.region)
      | .ok _ => (none, none)) = (some .mismatchedSection, some ⟨23, 29⟩) := by decide +kernel
  refine ⟨by decide +kernel, ?_⟩
  rcases h : compile d source (some "page") with report | template
  · rw [h] at hreport
    obtain ⟨hkind, hregion⟩ := Prod.mk.inj hreport
    exact ⟨report, rfl, hkind, hregion, points_at_fault h⟩
  · rw [h] at hreport
    cases hreport

end Template

end LogicLess
