import Journey.Text.Blank

/-!
The lines of a text. They are what stands in front of its line endings, of which there are two, and
behind the last of them. Joined again by line feeds, lines give a text that tells them all, whichever
endings they had before. Nothing is said here about what stands in a line.
-/

namespace Journey.Text

/-- The text as its lines without their endings. A line ends with a line feed or with a carriage return
and a line feed; what follows the last ending is a line unless it is empty. -/
inductive Lined : List Char → List (List Char) → Prop
  | nil : Lined [] []
  | last {line : List Char} (filled : line ≠ []) (whole : '\n' ∉ line) : Lined line [line]
  | lf {line rest : List Char} {lines : List (List Char)} (whole : '\n' ∉ line)
      (bare : line.getLast? ≠ some '\r') (more : Lined rest lines) :
      Lined (line ++ '\n' :: rest) (line :: lines)
  | crlf {line rest : List Char} {lines : List (List Char)} (whole : '\n' ∉ line)
      (more : Lined rest lines) : Lined (line ++ '\r' :: '\n' :: rest) (line :: lines)

theorem closeLine_of_bare {held : List Char} (bare : held.head? ≠ some '\r') :
    closeLine held = held.reverse := by
  cases held with
  | nil => rfl
  | cons c held =>
      have other : c ≠ '\r' := fun same => bare (congrArg some same)
      simp [closeLine, other]

theorem lined_linesFrom (held : List Char) (whole : '\n' ∉ held) (cs : List Char) :
    Lined (held.reverse ++ cs) (linesFrom held cs) := by
  induction cs generalizing held with
  | nil =>
      cases held with
      | nil => exact .nil
      | cons c held =>
          rw [List.append_nil]
          exact .last (by simp) (mt List.mem_reverse.mp whole)
  | cons c cs ih =>
      by_cases ends : c = '\n'
      · subst ends
        have rest : Lined cs (linesFrom [] cs) := ih [] List.not_mem_nil
        by_cases returned : held.head? = some '\r'
        · obtain ⟨held, rfl⟩ := List.head?_eq_some_iff.mp returned
          have inner : '\n' ∉ held.reverse := by simpa using whole
          simpa [linesFrom, closeLine] using Lined.crlf inner rest
        · rw [linesFrom, closeLine_of_bare returned]
          exact .lf (by simpa using whole) (by simpa using returned) rest
      · have more := ih (c :: held) (by simp [whole, Ne.symm ends])
        rw [linesFrom]
        · simpa using more
        · exact ends

theorem lined_lines (cs : List Char) : Lined cs (lines cs) := lined_linesFrom [] List.not_mem_nil cs

theorem linesFrom_append_of_whole {line : List Char} (whole : '\n' ∉ line) (held rest : List Char) :
    linesFrom held (line ++ rest) = linesFrom (line.reverse ++ held) rest := by
  induction line generalizing held with
  | nil => rfl
  | cons c line ih =>
      obtain ⟨other, inner⟩ := not_or.mp (mt List.mem_cons.mpr whole)
      rw [List.cons_append, linesFrom, ih inner, List.reverse_cons, List.append_assoc]
      · rfl
      · exact Ne.symm other

namespace Lined

variable {cs : List Char} {ls : List (List Char)}

/-- A text has its lines in one way only. -/
theorem eq_lines (h : Lined cs ls) : ls = lines cs := by
  induction h with
  | nil => rfl
  | @last line filled whole =>
      have read := linesFrom_append_of_whole whole [] []
      rw [List.append_nil, List.append_nil] at read
      rw [lines, read, linesFrom]
      simp [filled]
  | @lf line rest ls whole bare more ih =>
      rw [lines, linesFrom_append_of_whole whole, List.append_nil, linesFrom,
        closeLine_of_bare (by simpa using bare), List.reverse_reverse, ih]
      rfl
  | @crlf line rest ls whole more ih =>
      have read := linesFrom_append_of_whole whole [] ('\r' :: '\n' :: rest)
      rw [lines, read, ih]
      simp [linesFrom, closeLine, lines]

theorem whole (h : Lined cs ls) : ∀ line ∈ ls, '\n' ∉ line := by
  induction h with
  | nil => exact List.forall_mem_nil _
  | last filled whole => exact List.forall_mem_singleton.mpr whole
  | lf whole bare more ih | crlf whole more ih => exact List.forall_mem_cons.mpr ⟨whole, ih⟩

end Lined

def joined (lines : List (List Char)) : String := "\n".intercalate (lines.map String.ofList)

theorem toList_joined (lines : List (List Char)) : (joined lines).toList = ['\n'].intercalate lines := by
  rw [joined, String.toList_intercalate, List.map_map]
  simp [Function.comp_def]

theorem splitOn_joined {lines : List (List Char)} (whole : ∀ line ∈ lines, '\n' ∉ line)
    (filled : lines ≠ []) : (joined lines).toList.splitOn '\n' = lines := by
  rw [toList_joined]
  exact List.splitOn_intercalate '\n' whole filled

theorem joined_inj {lines others : List (List Char)} (whole : ∀ line ∈ lines, '\n' ∉ line)
    (filled : lines ≠ []) (wholeOthers : ∀ line ∈ others, '\n' ∉ line) (filledOthers : others ≠ [])
    (same : joined lines = joined others) : lines = others := by
  rw [← splitOn_joined whole filled, same, splitOn_joined wholeOthers filledOthers]

end Journey.Text
