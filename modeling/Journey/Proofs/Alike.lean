import Journey.Proofs.Substitution

/-!
The ways to write one placeholder. Two spellings of a name in the same place of a text are as good as each
other: the texts have the same names and resolve to the same value or fail with the same error, whatever
stands around the placeholder. Which spellings there are is told elsewhere.
-/

namespace Journey

open Text Placeholder

namespace Text

theorem trimLeft_append_of_head {cs tail : List Char} (solid : ∃ c ∈ tail.head?, isBlank c = false) :
    trimLeft (cs ++ tail) = trimLeft cs ++ tail := by
  obtain ⟨c, first, solid⟩ := solid
  obtain ⟨rest, rfl⟩ := List.head?_eq_some_iff.mp first
  rw [trimLeft_append]
  split
  case isTrue none => rw [none, trimLeft_of_head solid, List.nil_append]
  case isFalse => rfl

theorem trimRight_append_of_getLast {cs tail : List Char}
    (solid : ∃ c ∈ cs.getLast?, isBlank c = false) : trimRight (cs ++ tail) = cs ++ trimRight tail := by
  have left : trimLeft (tail.reverse ++ cs.reverse) = trimLeft tail.reverse ++ cs.reverse :=
    trimLeft_append_of_head (by rwa [List.head?_reverse])
  rw [trimRight, List.reverse_append, show (tail.reverse ++ cs.reverse).dropWhile isBlank = _ from left,
    List.reverse_append, List.reverse_reverse]
  rfl

/-- Trimming takes nothing away from what stands between the ends of a text, if that is tight. -/
theorem Tight.trim_between {cs : List Char} (h : Tight cs) (before after : List Char) :
    Text.trim (before ++ (cs ++ after)) = trimLeft before ++ (cs ++ trimRight after) := by
  have starts : ∃ c ∈ (cs ++ after).head?, isBlank c = false := by
    obtain ⟨c, first, solid⟩ := h.starts
    exact ⟨c, by rw [List.head?_append, Option.mem_def.mp first]; rfl, solid⟩
  have ends : ∃ c ∈ (trimLeft before ++ cs).getLast?, isBlank c = false := by
    obtain ⟨c, last, solid⟩ := h.ends
    exact ⟨c, by rw [List.getLast?_append, Option.mem_def.mp last]; rfl, solid⟩
  rw [Text.trim, trimLeft_append_of_head starts, ← List.append_assoc, trimRight_append_of_getLast ends,
    List.append_assoc]

end Text

namespace Placeholder

namespace Spells

variable {name spelling rest : List Char}

/-- Trimming a text that has a placeholder in it trims what stands before and behind that. -/
theorem pieces_trim_around (h : Spells name spelling rest) (before : List Char) :
    Placeholder.pieces (trim (before ++ (spelling ++ rest))) =
      Placeholder.pieces (trimLeft before) ++
        .hole (String.ofList name) :: Placeholder.pieces (trimRight rest) := by
  obtain ⟨blanks, whole⟩ := List.rdropWhile_prefix isBlank rest
  have shorter : Spells name spelling (trimRight rest) := .of_append (whole.symm ▸ h)
  rw [h.tight.trim_between, shorter.pieces_around]

end Spells

/-- The placeholder with a name between double braces, with a blank on either side of the name. -/
def spaced (name : String) : String := "\x7b\x7b " ++ name ++ " \x7d\x7d"

def dollarBraced (name : String) : String := "$\x7b" ++ name ++ "\x7d"

def dollared (name : String) : String := "$" ++ name

section Ways

variable {name : String} (h : DottedName name.toList)

include h

theorem spells_spaced (rest : List Char) : Spells name.toList (spaced name).toList rest := by
  refine .braces ⟨h, [' '], [' '], ?_, ?_, by simp [spaced]⟩
  · exact List.forall_mem_singleton.mpr rfl
  · exact List.forall_mem_singleton.mpr rfl

theorem spells_dollarBraced (rest : List Char) :
    Spells name.toList (dollarBraced name).toList rest := by
  refine .dollarBraces ⟨h, [], [], List.forall_mem_nil _, List.forall_mem_nil _, ?_⟩
  simp [dollarBraced]

theorem spells_dollared {rest : List Char} (ends : Ends rest) :
    Spells name.toList (dollared name).toList rest := by
  have text : (dollared name).toList = '$' :: name.toList := by simp [dollared]
  exact text ▸ .bare h ends

end Ways

end Placeholder

namespace Scope

/-- The two texts have the same names, and resolve to the same value of the same type, or fail with the same
error, also where all placeholders are to be rendered. -/
structure ReadsAlike (s : Scope) (text text' : String) : Prop where
  names : names text = names text'
  resolves : s.resolve (.str text) = s.resolve (.str text')
  interpolates : s.interpolate text = s.interpolate text'

variable {s : Scope}

theorem readsAlike_of_pieces {text text' : String} (same : pieces text.toList = pieces text'.toList)
    (trimmed : pieces (trim text.toList) = pieces (trim text'.toList)) : s.ReadsAlike text text' where
  names := by rw [Placeholder.names, Placeholder.names, same]
  resolves := by
    rw [resolve, resolve, resolveText, resolveText, interpolate, interpolate, sole?, sole?, same, trimmed]
  interpolates := by rw [interpolate, interpolate, same]

/-- Which spelling of a name stands in a place of a text makes no difference. -/
theorem readsAlike_of_spells {name : List Char} {spelling spelling' before after : String}
    (h : Spells name spelling.toList after.toList) (h' : Spells name spelling'.toList after.toList) :
    s.ReadsAlike (before ++ spelling ++ after) (before ++ spelling' ++ after) := by
  have text (middle : String) : (before ++ middle ++ after).toList =
      before.toList ++ (middle.toList ++ after.toList) := by simp
  refine readsAlike_of_pieces ?_ ?_
  · rw [text, text, h.pieces_around, h'.pieces_around]
  · rw [text, text, h.pieces_trim_around, h'.pieces_trim_around]

/-- The spellings of a dotted name are interchangeable in any text. The bare one is, too, where what follows
does not make the name longer. -/
theorem readsAlike_spellings (s : Scope) {name : String} (named : DottedName name.toList)
    (before after : String) :
    s.ReadsAlike (before ++ braced name ++ after) (before ++ spaced name ++ after) ∧
      s.ReadsAlike (before ++ braced name ++ after) (before ++ dollarBraced name ++ after) ∧
      (Placeholder.Ends after.toList →
        s.ReadsAlike (before ++ braced name ++ after) (before ++ dollared name ++ after)) := by
  have first := spells_braced named after.toList
  refine ⟨?_, ?_, fun ends => ?_⟩
  · exact readsAlike_of_spells first (spells_spaced named _)
  · exact readsAlike_of_spells first (spells_dollarBraced named _)
  · exact readsAlike_of_spells first (spells_dollared named ends)

/-- Stray signs on both sides of a placeholder, the first of which could open another one. -/
theorem readsAlike_stray : DottedName "user.id".toList ∧ Placeholder.Ends "\x7d.".toList ∧
    ReadsAlike ⟨none, .empty, Template.empty.set "user" (.obj [("id", .int 7)])⟩
      ("$\x7b" ++ braced "user.id" ++ "\x7d.") ("$\x7b" ++ dollared "user.id" ++ "\x7d.") := by
  have spelled : "id".toList.all isWord = true := by decide
  have words : Words ".id".toList :=
    @Words.next "id".toList [] (by decide) (List.all_eq_true.mp spelled) .none
  have first : isIdentifier "user".toList = true := by decide
  have named : DottedName "user.id".toList := .mk first words
  have ends : Placeholder.Ends "\x7d.".toList := .of_head fun c first => Option.some.inj first ▸ by decide
  exact ⟨named, ends, (readsAlike_spellings _ named _ _).2.2 ends⟩

end Scope
end Journey
