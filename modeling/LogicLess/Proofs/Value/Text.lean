import LogicLess.Proofs.Value.Parts

/-!
# What the text of a value is made of

The pieces of a value join up to its text. Outside of the strings and names in a value, its text holds
nothing but the characters of numbers, words and separators.
-/

namespace LogicLess

namespace Number

def isNumeral (c : Char) : Bool :=
  c.isDigit || c == '-' || c == '+' || c == '.' || c == 'e'

private theorem isNumeral_of_mem_toDigits {n : Nat} {c : Char} (h : c ∈ Nat.toDigits 10 n) :
    isNumeral c = true := by
  simp [isNumeral, Nat.isDigit_of_mem_toDigits (by decide) (by decide) h]

theorem isNumeral_of_mem_integerText {n : Int} {c : Char} (h : c ∈ integerText n) :
    isNumeral c = true := by
  simp only [integerText] at h
  split at h
  · rcases List.mem_cons.1 h with rfl | h
    · rfl
    · exact isNumeral_of_mem_toDigits h
  · exact isNumeral_of_mem_toDigits h

private theorem isNumeral_of_mem_positional {digits : List Char} {exponent : Int}
    (hd : ∀ c ∈ digits, isNumeral c = true) : ∀ c ∈ positional digits exponent,
      isNumeral c = true := by
  have hzeros : ∀ n, ∀ c ∈ List.replicate n '0', isNumeral c = true := by
    intro n c hc
    rw [List.eq_of_mem_replicate hc]
    rfl
  intro c hc
  simp only [positional] at hc
  split at hc
  · simp only [List.mem_append, List.mem_cons, List.not_mem_nil, or_false] at hc
    rcases hc with (hc | hc) | rfl | rfl
    · exact hd c hc
    · exact hzeros _ c hc
    · rfl
    · rfl
  · have hpadded : ∀ n, ∀ c ∈ List.replicate n '0' ++ digits, isNumeral c = true := by
      intro n c hc
      rcases List.mem_append.1 hc with hc | hc
      · exact hzeros _ c hc
      · exact hd c hc
    rcases List.mem_append.1 hc with hc | hc
    · exact hpadded _ c (List.mem_of_mem_take hc)
    · rcases List.mem_cons.1 hc with rfl | hc
      · rfl
      · exact hpadded _ c (List.mem_of_mem_drop hc)

private theorem isNumeral_of_mem_scientific {digits : List Char} {magnitude : Int}
    (hd : ∀ c ∈ digits, isNumeral c = true) : ∀ c ∈ scientific digits magnitude,
      isNumeral c = true := by
  have hsign : ∀ c ∈ if 0 ≤ magnitude then ['+'] else [], isNumeral c = true := by
    intro c hc
    split at hc
    · rw [List.mem_singleton.1 hc]
      rfl
    · simp at hc
  intro c hc
  simp only [scientific, List.mem_append, List.mem_cons] at hc
  rcases hc with (hc | rfl | hc) | hc
  · split at hc
    · simp only [List.mem_cons] at hc
      rcases hc with rfl | rfl | hc
      · exact hd c (by simp)
      · rfl
      · exact hd c (by simp [hc])
    · exact hd c hc
  · rfl
  · exact hsign c hc
  · exact isNumeral_of_mem_integerText hc

private theorem isNumeral_of_mem_bitsText {bits : Nat} : ∀ c ∈ bitsText bits,
    isNumeral c = true := by
  have hmagnitude : ∀ c ∈ if bits % Nat.pow 2 63 = 0 then ['0', '.', '0']
      else decimalText (Decimal.shortest (.ofBits (bits % Nat.pow 2 63))),
      isNumeral c = true := by
    intro c hc
    split at hc
    · simp only [List.mem_cons, List.not_mem_nil, or_false] at hc
      rcases hc with rfl | rfl | rfl <;> rfl
    · simp only [decimalText] at hc
      split at hc
      · exact isNumeral_of_mem_positional (fun _ => isNumeral_of_mem_toDigits) c hc
      · exact isNumeral_of_mem_scientific (fun _ => isNumeral_of_mem_toDigits) c hc
  intro c hc
  simp only [bitsText] at hc
  split at hc
  · exact hmagnitude c hc
  · rcases List.mem_cons.1 hc with rfl | hc
    · rfl
    · exact hmagnitude c hc

theorem isNumeral_of_mem_text {n : Number} {c : Char} (h : c ∈ n.text) : isNumeral c = true := by
  cases n with
  | integer n => exact isNumeral_of_mem_integerText h
  | real x => exact isNumeral_of_mem_bitsText c h

end Number

namespace Value

private theorem flatten_intercalate (sep : List (List Char)) (xss : List (List (List Char))) :
    (sep.intercalate xss).flatten = sep.flatten.intercalate (xss.map List.flatten) := by
  induction xss with
  | nil => rfl
  | cons xs xss ih =>
    cases xss with
    | nil => simp [List.intercalate]
    | cons ys xss =>
      rw [List.intercalate_cons_cons, List.flatten_append, List.flatten_append, ih]
      simp only [List.map_cons, List.intercalate_cons_cons]

private theorem map_sortEntries {α β : Type} (f : α → β) (entries : List (String × α)) :
    (sortEntries entries).map (fun e => (e.1, f e.2)) =
      sortEntries (entries.map fun e => (e.1, f e.2)) :=
  List.map_mergeSort fun _ _ _ _ => rfl

mutual

theorem flatten_pieces : ∀ v : Value, v.pieces.flatten = v.text
  | .list items => by
    rw [pieces, text, flatten_intercalate, map_flatten_itemPieces items]
    rfl
  | .map entries => by
    have hshown : ((sortEntries (entryPieces entries)).map fun (key, ps) =>
          key.toList :: [':', ' '] :: ps).map List.flatten =
        (sortEntries (entryTexts entries)).map fun (key, t) => key.toList ++ [':', ' '] ++ t := by
      rw [← map_flatten_entryPieces entries, ← map_sortEntries, List.map_map, List.map_map]
      simp [Function.comp_def]
    rw [pieces, text, List.flatten_append, List.flatten_cons, flatten_intercalate, hshown]
    rfl
  | .null | .lambda _ => rfl
  | .bool _ | .number _ | .string _ => by simp [pieces, text]
termination_by structural v => v

private theorem map_flatten_itemPieces :
    ∀ items : List Value, (itemPieces items).map List.flatten = itemTexts items
  | [] => rfl
  | v :: rest => by
    rw [itemPieces, itemTexts, List.map_cons, flatten_pieces v, map_flatten_itemPieces rest]
termination_by structural items => items

private theorem map_flatten_entryPieces : ∀ entries : List (String × Value),
    (entryPieces entries).map (fun e => (e.1, e.2.flatten)) = entryTexts entries
  | [] => rfl
  | (_, v) :: rest => by
    rw [entryPieces, entryTexts, List.map_cons, flatten_pieces v, map_flatten_entryPieces rest]
termination_by structural entries => entries

end

/-- The characters that stand in the text of a value outside of strings and names. -/
def isNotation (c : Char) : Bool :=
  Number.isNumeral c || c.isAlpha || c == ',' || c == ':' || c == ' ' || c == '{' || c == '}'

private theorem mem_intercalate {c : Char} {sep : List Char} {xs : List (List Char)}
    (h : c ∈ sep.intercalate xs) : c ∈ sep ∨ ∃ x ∈ xs, c ∈ x := by
  induction xs with
  | nil => simp at h
  | cons x xs ih =>
    cases xs with
    | nil => exact .inr ⟨x, by simp, by simpa using h⟩
    | cons y xs =>
      rw [List.intercalate_cons_cons, List.mem_append, List.mem_append] at h
      rcases h with (h | h) | h
      · exact .inr ⟨x, by simp, h⟩
      · exact .inl h
      · rcases ih h with h | ⟨z, hz, hc⟩
        · exact .inl h
        · exact .inr ⟨z, List.mem_cons_of_mem _ hz, hc⟩

private theorem mem_names_of_mem_entryTexts {key : String} {t : List Char}
    {entries : List (String × Value)} (h : (key, t) ∈ entryTexts entries) :
    key.toList ∈ (map entries).ownTexts := by
  induction entries with
  | nil => simp [entryTexts] at h
  | cons entry rest ih =>
    simp only [entryTexts, List.mem_cons, Prod.mk.injEq] at h
    rcases h with ⟨rfl, -⟩ | h
    · exact List.mem_cons_self
    · exact List.mem_cons_of_mem _ (ih h)

mutual

/-- What is not notation in the text of a value comes from the strings and names inside it. -/
theorem isNotation_of_mem_text {c : Char} :
    ∀ v : Value, c ∈ v.text → isNotation c = true ∨ ∃ t ∈ v.texts, c ∈ t
  | .list items, h => by
    rcases mem_intercalate h with h | ⟨t, ht, hc⟩
    · rw [List.mem_singleton.1 h]
      exact .inl rfl
    · exact isNotation_of_mem_itemTexts items ht hc
  | .map entries, h => by
    rw [text, List.mem_append, List.mem_cons, List.mem_singleton] at h
    rcases h with (rfl | h) | rfl
    · exact .inl rfl
    · rcases mem_intercalate h with h | ⟨shown, hshown, hc⟩
      · refine .inl ?_
        rcases List.mem_cons.1 h with rfl | h
        · rfl
        · rw [List.mem_singleton.1 h]
          rfl
      · obtain ⟨⟨key, t⟩, hentry, rfl⟩ := List.mem_map.1 hshown
        have hentry := List.mem_mergeSort.1 hentry
        simp only [List.mem_append, List.mem_cons, List.not_mem_nil, or_false] at hc
        rcases hc with (hc | rfl | rfl) | hc
        · refine .inr ⟨key.toList, ?_, hc⟩
          exact List.mem_append_left _ (mem_names_of_mem_entryTexts hentry)
        · exact .inl rfl
        · exact .inl rfl
        · rcases isNotation_of_mem_entryTexts entries hentry hc with h | ⟨u, hu, hc⟩
          · exact .inl h
          · exact .inr ⟨u, List.mem_append_right _ hu, hc⟩
    · exact .inl rfl
  | .string s, h => .inr ⟨s.toList, by simp [texts, parts, ownTexts], h⟩
  | .number n, h => .inl (by simp [isNotation, Number.isNumeral_of_mem_text h])
  | .bool b, h => by
    refine .inl ?_
    cases b <;> simp [text] at h <;> rcases h with rfl | rfl | rfl | rfl | rfl <;> rfl
  | .null, h | .lambda _, h => by simp [text] at h
termination_by structural v => v

private theorem isNotation_of_mem_itemTexts {c : Char} {t : List Char} : ∀ items : List Value,
    t ∈ itemTexts items → c ∈ t →
      isNotation c = true ∨ ∃ u ∈ (itemParts items).flatMap ownTexts, c ∈ u
  | [], h, _ => by simp [itemTexts] at h
  | v :: rest, h, hc => by
    rw [itemParts, List.flatMap_append]
    rcases List.mem_cons.1 h with rfl | h
    · rcases isNotation_of_mem_text v hc with h | ⟨u, hu, hc⟩
      · exact .inl h
      · exact .inr ⟨u, List.mem_append_left _ hu, hc⟩
    · rcases isNotation_of_mem_itemTexts rest h hc with h | ⟨u, hu, hc⟩
      · exact .inl h
      · exact .inr ⟨u, List.mem_append_right _ hu, hc⟩
termination_by structural items => items

private theorem isNotation_of_mem_entryTexts {c : Char} {entry : String × List Char} :
    ∀ entries : List (String × Value), entry ∈ entryTexts entries → c ∈ entry.2 →
      isNotation c = true ∨ ∃ u ∈ (entryParts entries).flatMap ownTexts, c ∈ u
  | [], h, _ => by simp [entryTexts] at h
  | (key, v) :: rest, h, hc => by
    rw [entryParts, List.flatMap_append]
    rcases List.mem_cons.1 h with rfl | h
    · rcases isNotation_of_mem_text v hc with h | ⟨u, hu, hc⟩
      · exact .inl h
      · exact .inr ⟨u, List.mem_append_left _ hu, hc⟩
    · rcases isNotation_of_mem_entryTexts rest h hc with h | ⟨u, hu, hc⟩
      · exact .inl h
      · exact .inr ⟨u, List.mem_append_right _ hu, hc⟩
termination_by structural entries => entries

end

end Value

end LogicLess
