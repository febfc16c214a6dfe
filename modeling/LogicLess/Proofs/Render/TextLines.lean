import LogicLess.Proofs.Program.Meaning
import LogicLess.Proofs.Render.Termination
import LogicLess.Proofs.Token.Sections

/-!
# Writing text line by line

A text in a template is a token for every line, with a mark where the next line starts. To run its tokens
is to write its lines, and without an indentation that is to write the text.
-/

namespace LogicLess

namespace Output

/-- Writes a line and, if a line feed ends it, marks the start of the next one. -/
def writeLine (o : Output) (line : List Char) : Output :=
  if line.getLast? = some '\n' then (o.write line).startLine else o.write line

theorem indent_writeLine (o : Output) (line : List Char) : (o.writeLine line).indent = o.indent := by
  unfold writeLine
  split <;> simp

theorem text_write_of_indent_eq_nil {o : Output} (h : o.indent = []) (s : List Char) :
    (o.write s).text = o.text ++ s := by
  cases s <;> simp [write, text, h]

theorem text_writeLine {o : Output} (h : o.indent = []) (line : List Char) :
    (o.writeLine line).text = o.text ++ line := by
  unfold writeLine
  split
  · rw [text_startLine, text_write_of_indent_eq_nil h]
  · rw [text_write_of_indent_eq_nil h]

def writeLines (o : Output) (s : List Char) : Output := (Text.splitLines s).foldl writeLine o

@[simp] theorem indent_writeLines (o : Output) (s : List Char) :
    (o.writeLines s).indent = o.indent := by
  unfold writeLines
  induction Text.splitLines s generalizing o with
  | nil => rfl
  | cons line lines ih => rw [List.foldl_cons, ih, indent_writeLine]

theorem text_writeLines {o : Output} (h : o.indent = []) (s : List Char) :
    (o.writeLines s).text = o.text ++ s := by
  have hfold : ∀ (lines : List (List Char)) (o : Output), o.indent = [] →
      (lines.foldl writeLine o).text = o.text ++ lines.flatten := by
    intro lines
    induction lines with
    | nil => simp
    | cons line lines ih =>
      intro o h
      rw [List.foldl_cons, ih _ ((o.indent_writeLine line).trans h), text_writeLine h,
        List.flatten_cons, List.append_assoc]
  rw [writeLines, hfold _ o h, Text.flatten_splitLines]

end Output

namespace Run

variable [Alphabet] (env : Environment) (templates : ScopeRunner) (run : TreeRunner)
  (delimiters : Delimiters) (context : Context)

private theorem forM_extendText (tokens : List Token) (line : List Char) :
    (Nesting.extendText tokens line).reverse.forM
        (Token.step env templates run delimiters context) =
      (do tokens.reverse.forM (Token.step env templates run delimiters context)
          onOutput (·.write line)) := by
  rw [Nesting.extendText.eq_def]
  split
  · next previous rest =>
    have hwrite : Token.step env templates run delimiters context (.text (previous ++ line)) =
        (do Token.step env templates run delimiters context (.text previous)
            onOutput (·.write line)) := by
      simp only [Token.step, onOutput_bind, Output.write_append]
    simp [hwrite]
  · simp [Token.step]

private theorem forM_addLine (tokens : List Token) (line : List Char) :
    (Nesting.addLine tokens line).reverse.forM
        (Token.step env templates run delimiters context) =
      (do tokens.reverse.forM (Token.step env templates run delimiters context)
          onOutput (·.writeLine line)) := by
  rw [Nesting.addLine_eq]
  unfold Output.writeLine
  split
  · have hstart : onOutput (fun o => (o.write line).startLine) =
        (do onOutput (·.write line); onOutput Output.startLine) := rfl
    rw [hstart, List.reverse_cons, List.forM_eq_forM, List.forM_append, ← List.forM_eq_forM,
      forM_extendText]
    simp [Token.step]
  · exact forM_extendText env templates run delimiters context tokens line

theorem forM_addLines (tokens : List Token) (text : List Char) :
    (Nesting.addLines tokens text).reverse.forM
        (Token.step env templates run delimiters context) =
      (do tokens.reverse.forM (Token.step env templates run delimiters context)
          onOutput (·.writeLines text)) := by
  unfold Nesting.addLines Output.writeLines
  induction Text.splitLines text generalizing tokens with
  | nil =>
    simp only [List.foldl_nil, onOutput_self]
    simp
  | cons line lines ih =>
    rw [List.foldl_cons, ih, forM_addLine]
    simp only [bind_assoc, onOutput_bind, List.foldl_cons]

end Run

end LogicLess
