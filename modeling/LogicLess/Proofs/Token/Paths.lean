import LogicLess.Proofs.Token.Structure

/-!
# The paths that a template names

Every path of a template that was read from a text is the path of a key in one of its tags, so it is a
dot or has a first key.
-/

namespace LogicLess

theorem Path.ofKey_ne_keys_nil (key : List Char) : ofKey key ≠ .keys [] := by
  have hsplit : Text.splitOn (· == '.') key ≠ [] := by
    cases key with
    | nil => simp [Text.splitOn]
    | cons c rest =>
      rw [Text.splitOn]
      split
      · simp
      · split <;> simp
  unfold ofKey
  split
  · simp
  · simpa using hsplit

def Mark.path? : Mark → Option Path
  | .value path _ | .opens path _ _ => some path
  | .embed _ | .closes _ _ => none

theorem Mark.exists_key_of_mark? {tag : Tag} {mark : Mark} {path : Path} (h : tag.mark? = some mark)
    (hpath : mark.path? = some path) : ∃ key, path = .ofKey key := by
  unfold Tag.mark? at h
  cases hsigil : tag.sigil <;> rw [hsigil] at h
  case plain | brace | ampersand | pound | caret =>
    obtain rfl := Option.some.inj h
    exact ⟨tag.content, (Option.some.inj hpath).symm⟩
  case angle | slash =>
    obtain rfl := Option.some.inj h
    cases hpath
  case equals | bang => cases h

def Instruction.path? : Instruction → Option Path
  | .value path _ | .block path _ _ _ | .inverted path _ => some path
  | .text _ | .lineStart | .embed _ _ => none

namespace Token

variable {node : Token} {index : Nat} {path : Path}

mutual

private theorem exists_mark_of_mem_nodes (hpath : (compile index node).1.path? = some path) :
    ∀ token : Token, node ∈ nodes token → ∃ mark ∈ marks token, mark.path? = some path
  | .block path' inverted body raw delimiters region, h => by
    rcases List.mem_cons.1 h with rfl | h
    · refine ⟨.opens path' inverted region.start, List.mem_cons_self, ?_⟩
      cases inverted <;> exact hpath
    · obtain ⟨mark, hmark, hp⟩ := exists_mark_of_mem_allNodes hpath body h
      exact ⟨mark, by simp [marks, hmark], hp⟩
  | .value path' escaped, h => by
    obtain rfl := List.mem_singleton.1 h
    exact ⟨.value path' escaped, List.mem_cons_self, hpath⟩
  | .text _, h | .lineStart, h | .embed _ _, h => by
    obtain rfl := List.mem_singleton.1 h
    cases hpath
termination_by structural token => token

theorem exists_mark_of_mem_allNodes (hpath : (compile index node).1.path? = some path) :
    ∀ tokens : List Token, node ∈ allNodes tokens →
      ∃ mark ∈ allMarks tokens, mark.path? = some path
  | [], h => by cases h
  | token :: rest, h => by
    rcases List.mem_append.1 h with h | h
    · obtain ⟨mark, hmark, hp⟩ := exists_mark_of_mem_nodes hpath token h
      exact ⟨mark, List.mem_append_left _ hmark, hp⟩
    · obtain ⟨mark, hmark, hp⟩ := exists_mark_of_mem_allNodes hpath rest h
      exact ⟨mark, List.mem_append_right _ hmark, hp⟩
termination_by structural tokens => tokens

end

end Token

namespace Template

variable {t : Template} {path : Path}

def paths (t : Template) : List Path := t.instructions.filterMap Instruction.path?

theorem mem_paths {i : Instruction} (hi : i ∈ t.instructions) (hpath : i.path? = some path) :
    path ∈ t.paths :=
  List.mem_filterMap.2 ⟨i, hi, hpath⟩

theorem exists_key_of_compile [Alphabet] {delimiters : Delimiters} {source : List Char}
    {label : Option String} (h : compile delimiters source label = .ok t) (hpath : path ∈ t.paths) :
    ∃ key, path = .ofKey key := by
  obtain ⟨tokens, hparse, rfl⟩ := exists_of_compile h
  obtain ⟨i, hi, hpath⟩ := List.mem_filterMap.1 hpath
  obtain ⟨node, hnode, index, rfl⟩ := exists_node_of_mem (by rintro s rfl; cases hpath) hi
  obtain ⟨mark, hmark, hpath⟩ := Token.exists_mark_of_mem_allNodes hpath tokens hnode
  have hordered := Token.ordered_tags delimiters source
  rw [← (Token.map_tag_readAll delimiters source).1] at hordered
  rw [Token.allMarks_ofLexemes hparse hordered] at hmark
  obtain ⟨tag, -, htag⟩ := List.mem_filterMap.1 hmark
  exact Mark.exists_key_of_mark? htag hpath

end Template

namespace Environment

variable {env : Environment} {template : Template}

/-- The paths that a run of a template may look up. -/
def Names (env : Environment) (template : Template) (path : Path) : Prop :=
  ∃ t, env.Reaches template t ∧ path ∈ t.paths

/-- Where templates are read from texts, every path but a dot has a first key. -/
theorem Names.exists_cons [Alphabet] {names : List String}
    (hcompiled : ∀ t, env.Reaches template t →
      ∃ delimiters source label, Template.compile delimiters source label = .ok t)
    (h : env.Names template (.keys names)) : ∃ first rest, names = first :: rest := by
  obtain ⟨t, ht, hmem⟩ := h
  obtain ⟨delimiters, source, label, hcompile⟩ := hcompiled t ht
  obtain ⟨key, hkey⟩ := Template.exists_key_of_compile hcompile hmem
  apply List.exists_cons_of_ne_nil
  rintro rfl
  exact Path.ofKey_ne_keys_nil key hkey.symm

theorem mem_of_names_ofSources [Alphabet] {delimiters : Delimiters}
    {sources : List (String × String)} {lambdas : Lambdas} {name : String} {path : Path}
    {listed : List Path} (hcheck : sources.all (fun entry =>
      (Template.compile delimiters entry.2.toList none).toOption.all fun t =>
        t.paths.all fun path => decide (path ∈ listed)) = true)
    (htemplate : (ofSources delimiters sources lambdas).partials name = some template)
    (h : (ofSources delimiters sources lambdas).Names template path) : path ∈ listed := by
  obtain ⟨t, ht, hmem⟩ := h
  have hpaths := forall_reaches_ofSources hcheck htemplate ht
  exact of_decide_eq_true (List.all_eq_true.1 hpaths path hmem)

end Environment

end LogicLess
