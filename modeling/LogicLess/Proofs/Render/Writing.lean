import LogicLess.Proofs.Render.Escaping

/-!
# Ways of writing

A text may reach an output in pieces, with entities, or as the text of a value. Each way leaves the output
as one write of the finished text does: the indentation of a line is decided by the first character that is
written, wherever the pieces are cut. No text is lost in its entities, which read back to it.
-/

namespace LogicLess

namespace Text

/-- The text with the characters themselves in place of their entities, read from the left. -/
def decode : List Char → List Char
  | '&' :: 'a' :: 'm' :: 'p' :: ';' :: rest => '&' :: decode rest
  | '&' :: 'q' :: 'u' :: 'o' :: 't' :: ';' :: rest => '"' :: decode rest
  | '&' :: 'l' :: 't' :: ';' :: rest => '<' :: decode rest
  | '&' :: 'g' :: 't' :: ';' :: rest => '>' :: decode rest
  | c :: rest => c :: decode rest
  | [] => []

theorem decode_entity_append (c : Char) (rest : List Char) :
    decode ((entity? c).getD [c] ++ rest) = c :: decode rest := by
  unfold entity?
  split
  case h_5 hampersand _ _ _ =>
    rw [Option.getD_none, List.singleton_append, decode]
    all_goals rintro _ rfl
    all_goals exact absurd rfl hampersand
  all_goals rfl

theorem decode_encode (s : List Char) : decode (encode s) = s := by
  induction s with
  | nil => rfl
  | cons c s ih =>
    have hencode : encode (c :: s) = (entity? c).getD [c] ++ encode s := List.flatMap_cons
    rw [hencode, decode_entity_append, ih]

theorem encode_injective : Function.Injective encode :=
  Function.LeftInverse.injective decode_encode

theorem not_markup_of_mem_encode {s : List Char} {c : Char} (h : c ∈ encode s) :
    c ≠ '"' ∧ c ≠ '<' ∧ c ≠ '>' := by
  have hnot : ∀ d, d = '<' ∨ d = '>' ∨ d = '"' → c ≠ d := by
    rintro d hd rfl
    exact (escaped_not_mem hd).encode s h
  exact ⟨hnot '"' (by simp), hnot '<' (by simp), hnot '>' (by simp)⟩

end Text

namespace Output

/-- Every way of writing leaves the output as one write of the finished text: several writes, writing with
entities, and writing a value, whatever the pieces that its text is made of. The finished text of a value
with entities has no character in it that begins or ends a tag or a quotation, and tells the value's text. -/
theorem writing_agrees (o : Output) :
    (∀ s t, (o.write s).write t = o.write (s ++ t)) ∧
    (∀ pieces, o.writePieces pieces = o.write pieces.flatten) ∧
    (∀ t, o.writeText t true = o.write (Text.encode t)) ∧
    (∀ v : Value, v.isTruthy = true → o.writeValue v false = o.write v.text ∧
      o.writeValue v true = o.write (Text.encode v.text)) ∧
    Function.Injective Text.encode ∧
    (∀ t, ∀ c ∈ Text.encode t, c ≠ '"' ∧ c ≠ '<' ∧ c ≠ '>') ∧
    ∀ t, Text.decode (Text.encode t) = t := by
  have htext : ∀ t, o.writeText t true = o.write (Text.encode t) := fun t => o.writeText_eq t true
  refine ⟨fun s t => (o.write_append s t).symm, o.writePieces_eq, htext, ?_, Text.encode_injective,
    fun t c => Text.not_markup_of_mem_encode, Text.decode_encode⟩
  intro v hv
  rw [writeValue_eq, if_pos hv, writeValue_eq, if_pos hv]
  exact ⟨rfl, htext v.text⟩

/-- A list that begins with an empty text and has a map in it, on a line that is to be indented. -/
theorem writing_agrees_list :
    let o : Output := ⟨['\n', 'é'], [' ', '\t'], true⟩
    let v : Value :=
      .list [.string "", .map [("", .list [.string "<é", .null])], .string "&lt;\""]
    v.isTruthy = true ∧ '&' ∈ Text.encode v.text ∧
      o.writeValue v false = o.write v.text ∧
      o.writeValue v true = o.write (Text.encode v.text) ∧
      (o.write (Text.encode v.text)).text =
        "é\n \t,\x7b: &lt;é,\x7d,&amp;lt;&quot;".toList ∧
      ('&' ≠ '"' ∧ '&' ≠ '<' ∧ '&' ≠ '>') ∧ Text.decode (Text.encode v.text) = v.text := by
  intro o v
  obtain ⟨-, -, -, hvalue, -, hmarkup, hdecode⟩ := writing_agrees o
  have htruthy : v.isTruthy = true := rfl
  have hmem : '&' ∈ Text.encode v.text := by decide +kernel
  obtain ⟨hplain, hescaped⟩ := hvalue v htruthy
  exact ⟨htruthy, hmem, hplain, hescaped, by decide +kernel, hmarkup v.text '&' hmem,
    hdecode v.text⟩

end Output

end LogicLess
