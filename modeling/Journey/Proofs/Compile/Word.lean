import Journey.ActionLine
import Journey.Proofs.Except
import Journey.Proofs.Text

/-!
The value of a variable line. It can be read exactly if it is one word without blanks that does not
read as a parameter, or one quoted text with nothing behind it. Which number or truth value a bare
word stands for is left to the definitions.
-/

namespace Journey

open Text

namespace Text

theorem head_trim {cs rest : List Char} {c : Char} (h : trim cs = c :: rest) :
    isBlank c = false := by
  cases left : trimLeft cs with
  | nil =>
      rw [trim, left] at h
      cases h
  | cons d tail =>
      have solid := head_trimLeft left
      rw [trim, left, trimRight_cons solid] at h
      exact (List.cons.inj h).1 ▸ solid

/-- Nothing but blanks can only be the end of a trimmed text if it is nothing at all. -/
theorem eq_nil_of_trim {cs before after : List Char} (whole : trim cs = before ++ after)
    (blank : trimLeft after = []) : after = [] := by
  have kept : trimRight (before ++ after) = before ++ after := by
    rw [← whole, trim, trimRight_idem]
  have gone : after.reverse.dropWhile isBlank = [] := by
    rw [trimLeft, List.dropWhile_eq_nil_iff] at blank
    simpa [List.dropWhile_eq_nil_iff] using blank
  have short : trimRight (before ++ after) = trimRight before := by
    simp [trimRight, List.dropWhile_append, gone]
  have bound : (trimRight before).length ≤ before.length := by
    simpa [trimRight] using (List.dropWhile_sublist (p := isBlank) (l := before.reverse)).length_le
  rw [← short, kept, List.length_append] at bound
  exact List.length_eq_zero_iff.mp (by omega)

end Text

namespace Token

theorem suffix_of_quoted {cs text after : List Char} (h : quoted cs = .ok (text, after)) :
    ∃ before, cs = before ++ after := by
  induction cs using quoted.induct generalizing text with
  | case1 => cases h
  | case2 => cases h
  | case3 c rest ih =>
      obtain ⟨⟨inner, end_⟩, closed, same⟩ := Except.ok_of_map h
      obtain ⟨-, rfl⟩ := Prod.mk.inj same
      obtain ⟨before, rfl⟩ := ih closed
      exact ⟨'\\' :: c :: before, rfl⟩
  | case4 rest notEscape notLast =>
      simp only [quoted, if_true] at h
      obtain ⟨-, rfl⟩ := Prod.mk.inj (Except.ok.inj h)
      exact ⟨['"'], rfl⟩
  | case5 c rest notEscape notLast open_ ih =>
      rw [quoted] at h
      · simp only [open_, if_false] at h
        obtain ⟨⟨inner, end_⟩, closed, same⟩ := Except.ok_of_map h
        obtain ⟨-, rfl⟩ := Prod.mk.inj same
        obtain ⟨before, rfl⟩ := ih closed
        exact ⟨c :: before, rfl⟩
      · exact notEscape
      · exact notLast

theorem listFrom_succ_eq_nil {fuel : Nat} {cs : List Char} :
    listFrom (fuel + 1) cs = .ok [] ↔ trimLeft cs = [] := by
  cases left : trimLeft cs with
  | nil => simp [listFrom, left]
  | cons c rest =>
      refine ⟨fun h => ?_, nofun⟩
      simp only [listFrom, left] at h
      split at h
      case h_1 => cases h
      case h_2 =>
        obtain ⟨_, _, none⟩ := Except.ok_of_map h
        cases none

/-- A text that does not begin with a blank is one word if its first token is one that leaves
nothing but blanks. -/
theorem list_eq_word_iff {c : Char} {cs : List Char} (solid : isBlank c = false) {word : String} :
    list (c :: cs) = .ok [.word word] ↔
      ∃ after, next (c :: cs) = .ok (.word word, after) ∧ trimLeft after = [] := by
  rw [list, List.length_cons, listFrom, trimLeft_of_head solid]
  dsimp only
  cases first : next (c :: cs) with
  | error e => simp
  | ok found =>
      obtain ⟨token, after⟩ := found
      simp only [Except.ok.injEq, Prod.mk.injEq]
      constructor
      · intro h
        obtain ⟨rest, none, same⟩ := Except.ok_of_map h
        obtain ⟨rfl, rfl⟩ := List.cons.inj same
        exact ⟨after, ⟨rfl, rfl⟩, listFrom_succ_eq_nil.mp none⟩
      · rintro ⟨_, ⟨rfl, rfl⟩, blank⟩
        rw [listFrom_succ_eq_nil.mpr blank]
        rfl

/-- A token that does not begin with a quote is a word if it does not read as a parameter. -/
theorem next_eq_word_iff {c : Char} {cs after : List Char} (unquoted : c ≠ '"') {word : String} :
    next (c :: cs) = .ok (.word word, after) ↔
      key? (c :: cs) = none ∧ String.ofList ((c :: cs).takeWhile fun d => !isBlank d) = word ∧
        (c :: cs).dropWhile (fun d => !isBlank d) = after := by
  rw [next]
  · cases key? (c :: cs) with
    | none => simp [untilBlank]
    | some found =>
        obtain ⟨key, rest⟩ := found
        simp only [reduceCtorEq, false_and, iff_false]
        split
        case h_1 =>
          intro h
          obtain ⟨_, _, same⟩ := Except.ok_of_map h
          cases same
        case h_2 => nofun
        case h_3 none => cases none
  · intro rest same
    exact unquoted (List.cons.inj same).1

end Token

namespace Variable

/-- One word without blanks that is no parameter, or one quoted text. -/
inductive OneWord : List Char → Prop
  | bare {text : List Char} (filled : text ≠ []) (unquoted : text.head? ≠ some '"')
      (noKey : Token.key? text = none) (solid : ∀ c ∈ text, isBlank c = false) : OneWord text
  | quoted {inner text : List Char} (closes : Token.quoted inner = .ok (text, [])) :
      OneWord ('"' :: inner)

theorem oneWord_of_list {raw : List Char} {word : String}
    (h : Token.list (trim raw) = .ok [.word word]) : OneWord (trim raw) := by
  cases whole : trim raw with
  | nil =>
      rw [whole] at h
      cases h
  | cons c cs =>
      rw [whole] at h
      obtain ⟨after, first, blank⟩ := (Token.list_eq_word_iff (head_trim whole)).mp h
      by_cases quote : c = '"'
      · subst quote
        obtain ⟨⟨text, after'⟩, closes, same⟩ := Except.ok_of_map first
        obtain ⟨-, rfl⟩ := Prod.mk.inj same
        obtain ⟨before, rfl⟩ := Token.suffix_of_quoted closes
        obtain rfl := eq_nil_of_trim (List.cons_append ▸ whole) blank
        exact .quoted closes
      · obtain ⟨noKey, -, rest⟩ := (Token.next_eq_word_iff quote).mp first
        have none : after = [] := by
          have split : trim raw = (c :: cs).takeWhile (fun d => !isBlank d) ++ after := by
            rw [whole, ← rest, List.takeWhile_append_dropWhile]
          exact eq_nil_of_trim split blank
        refine .bare (by simp) (by simpa using quote) noKey ?_
        rw [none, List.dropWhile_eq_nil_iff] at rest
        simpa using rest

theorem list_of_oneWord {raw : List Char} (h : OneWord (trim raw)) :
    ∃ word, Token.list (trim raw) = .ok [.word word] := by
  generalize whole : trim raw = text at h
  cases h with
  | @quoted inner text closes =>
      have first : Token.next ('"' :: inner) = .ok (.word (String.ofList text), []) := by
        rw [Token.next, closes]
        rfl
      exact ⟨_, (Token.list_eq_word_iff (head_trim whole)).mpr ⟨[], first, rfl⟩⟩
  | bare filled unquoted noKey solid =>
      cases text with
      | nil => exact absurd rfl filled
      | cons c cs =>
          have rest : (c :: cs).dropWhile (fun d => !isBlank d) = [] := by
            rw [List.dropWhile_eq_nil_iff]
            simpa using solid
          have first := (Token.next_eq_word_iff (by simpa using unquoted)).mpr ⟨noKey, rfl, rest⟩
          exact ⟨_, (Token.list_eq_word_iff (head_trim whole)).mpr ⟨[], first, rfl⟩⟩

theorem parseValue_ok_iff {raw : List Char} :
    (∃ value, parseValue raw = .ok value) ↔ OneWord (trim raw) := by
  constructor
  · rintro ⟨value, h⟩
    simp only [parseValue] at h
    split at h
    case h_1 => cases h
    case h_2 word read => exact oneWord_of_list read
    case h_3 => cases h
  · intro h
    obtain ⟨word, read⟩ := list_of_oneWord h
    simp only [parseValue, read]
    exact ⟨_, rfl⟩

theorem parseLine_value {raw : List Char} {name : String} {result : Except TokenError Value}
    (h : parseLine raw = some (name, result)) : ∃ value, result = parseValue value := by
  simp only [parseLine] at h
  split at h
  case h_1 => cases h
  case h_2 =>
    split at h
    case h_1 =>
      split at h
      case isTrue => cases h
      case isFalse => exact ⟨_, (Prod.mk.inj (Option.some.inj h)).2.symm⟩
    case h_2 => cases h

end Variable
end Journey
