import Journey.Text.Word
import Mathlib.Data.List.DropRight

/-!
Laws of blanks, leads and separators: a trimmed text has no blanks left to trim, a text starts with what was
put in front of it, and what is put between two pieces takes them apart again. Splitting into words is a
matter of the modules that read words.
-/

namespace Journey.Text

/-- The characters that are blank. -/
def blanks : List Nat :=
  [0x09, 0x0A, 0x0B, 0x0C, 0x0D, 0x20, 0x85, 0xA0, 0x1680, 0x2000, 0x2001, 0x2002, 0x2003, 0x2004,
    0x2005, 0x2006, 0x2007, 0x2008, 0x2009, 0x200A, 0x2028, 0x2029, 0x202F, 0x205F, 0x3000]

theorem mem_blanks {c : Char} (h : isBlank c = true) : c.toNat ∈ blanks := by
  simp only [isBlank, Bool.or_eq_true, Bool.and_eq_true, decide_eq_true_eq, beq_iff_eq] at h
  simp only [blanks, List.mem_cons, List.not_mem_nil, or_false]
  omega

/-- No blank is part of a name or of the signs around one. -/
theorem plain_of_mem_blanks : ∀ n ∈ blanks, isWord (Char.ofNat n) = false ∧
    isNameStart (Char.ofNat n) = false ∧ Char.ofNat n ∉ ['.', '$', '\x7b', '\x7d'] := by
  decide +kernel

theorem plain_of_isBlank {c : Char} (h : isBlank c = true) :
    isWord c = false ∧ isNameStart c = false ∧ c ∉ ['.', '$', '\x7b', '\x7d'] := by
  have plain := plain_of_mem_blanks c.toNat (mem_blanks h)
  rwa [Char.ofNat_toNat] at plain

theorem isBlank_of_isWord {c : Char} (h : isWord c = true) : isBlank c = false := by
  cases blank : isBlank c with
  | false => rfl
  | true => exact absurd ((plain_of_isBlank blank).1.symm.trans h) Bool.false_ne_true

theorem isWord_of_isNameStart {c : Char} (h : isNameStart c = true) : isWord c = true := by
  have ascii : c.toNat < 0x80 := by
    simp only [isNameStart, isAsciiLetter, Bool.or_eq_true, Bool.and_eq_true, decide_eq_true_eq,
      beq_iff_eq, Char.le_def, UInt32.le_iff_toNat_le] at h
    rcases h with (⟨-, below⟩ | ⟨-, below⟩) | rfl
    · exact Nat.lt_of_le_of_lt below (by decide)
    · exact Nat.lt_of_le_of_lt below (by decide)
    · decide
  rw [isNameStart, Bool.or_eq_true] at h
  rw [isWord, if_pos ascii, Bool.or_eq_true, Bool.or_eq_true]
  exact h.imp .inl id

theorem isWord_of_isIdentifier {cs : List Char} (h : isIdentifier cs = true) :
    ∀ c ∈ cs, isWord c = true := by
  cases cs with
  | nil => exact List.forall_mem_nil _
  | cons c rest =>
      rw [isIdentifier, Bool.and_eq_true, List.all_eq_true] at h
      exact List.forall_mem_cons.mpr ⟨isWord_of_isNameStart h.1, h.2⟩

theorem drop_takeWhile (p : Char → Bool) (cs : List Char) :
    cs.drop (cs.takeWhile p).length = cs.dropWhile p := by
  induction cs with
  | nil => rfl
  | cons c cs ih => cases h : p c <;> simp [h, ih]

theorem head_dropWhile (p : Char → Bool) (cs : List Char) :
    ∀ c ∈ (cs.dropWhile p).head?, p c = false := by
  intro c first
  have stop := List.head?_dropWhile_not p cs
  rwa [Option.mem_def.mp first] at stop

section Stop

variable {p : Char → Bool} {cs tail : List Char}

/-- What is taken while a test holds is taken whole if the test fails on what comes next. -/
theorem takeWhile_append_stop (all : ∀ c ∈ cs, p c = true) (stop : ∀ c ∈ tail.head?, p c = false) :
    (cs ++ tail).takeWhile p = cs := by
  rw [List.takeWhile_append_of_pos all]
  cases tail with
  | nil => rw [List.takeWhile_nil, List.append_nil]
  | cons c rest => rw [List.takeWhile_cons_of_neg (by simp [stop c rfl]), List.append_nil]

theorem dropWhile_append_stop (all : ∀ c ∈ cs, p c = true) (stop : ∀ c ∈ tail.head?, p c = false) :
    (cs ++ tail).dropWhile p = tail := by
  rw [List.dropWhile_append_of_pos all]
  cases tail with
  | nil => rfl
  | cons c rest => rw [List.dropWhile_cons_of_neg (by simp [stop c rfl])]

end Stop

theorem head_trimLeft {cs : List Char} {c : Char} {rest : List Char}
    (h : trimLeft cs = c :: rest) : isBlank c = false :=
  head_dropWhile isBlank cs c (congrArg List.head? h)

theorem trimLeft_of_head {c : Char} (h : isBlank c = false) (rest : List Char) :
    trimLeft (c :: rest) = c :: rest := by
  simp [trimLeft, h]

theorem trimRight_cons {c : Char} (h : isBlank c = false) (rest : List Char) :
    trimRight (c :: rest) = c :: trimRight rest := by
  rw [trimRight, trimRight, List.reverse_cons, List.dropWhile_append]
  split
  case isTrue none =>
    have gone : rest.reverse.dropWhile isBlank = [] := by simpa using none
    simp [gone, h]
  case isFalse => simp

theorem trimRight_idem (cs : List Char) : trimRight (trimRight cs) = trimRight cs := by
  rw [trimRight, trimRight, List.reverse_reverse, List.dropWhile_idempotent]

theorem trim_idem (cs : List Char) : trim (trim cs) = trim cs := by
  cases h : trimLeft cs with
  | nil =>
      rw [trim, trim, h]
      rfl
  | cons c rest =>
      -- What is left after trimming begins with no blank, and trimming its end keeps that.
      have solid := head_trimLeft h
      rw [trim, trim, h, trimRight_cons solid, trimLeft_of_head solid, trimRight_cons solid,
        trimRight_idem]

theorem solid_of_all {cs : List Char} (h : (cs.all fun c => !isBlank c) = true) :
    ∀ c ∈ cs, isBlank c = false := fun c mem => by
  simpa using List.all_eq_true.mp h c mem

/-- A text with no blank at either end. -/
structure Tight (cs : List Char) : Prop where
  starts : ∃ c ∈ cs.head?, isBlank c = false
  ends : ∃ c ∈ cs.getLast?, isBlank c = false

namespace Tight

variable {cs ds : List Char}

theorem of_solid (filled : cs ≠ []) (solid : ∀ c ∈ cs, isBlank c = false) : Tight cs :=
  ⟨⟨cs.head filled, List.head?_eq_some_head filled, solid _ (List.head_mem filled)⟩,
    ⟨cs.getLast filled, List.getLast?_eq_some_getLast filled, solid _ (List.getLast_mem filled)⟩⟩

theorem around (h : Tight cs) (h' : Tight ds) (between : List Char) :
    Tight (cs ++ (between ++ ds)) := by
  obtain ⟨c, first, start⟩ := h.starts
  obtain ⟨d, last, stop⟩ := h'.ends
  refine ⟨⟨c, ?_, start⟩, ⟨d, ?_, stop⟩⟩
  · rw [Option.mem_def] at first ⊢
    rw [List.head?_append, first]
    rfl
  · rw [Option.mem_def] at last ⊢
    rw [List.getLast?_append, List.getLast?_append, last]
    rfl

theorem eq_cons (h : Tight cs) : ∃ c rest, cs = c :: rest ∧ isBlank c = false := by
  obtain ⟨c, first, solid⟩ := h.starts
  obtain ⟨rest, whole⟩ := List.head?_eq_some_iff.mp first
  exact ⟨c, rest, whole, solid⟩

/-- Trimming takes away what blanks there are around a text, and no more. -/
theorem trim_around (h : Tight cs) {before after : List Char} (blank : ∀ b ∈ before, isBlank b = true)
    (blank' : ∀ b ∈ after, isBlank b = true) : Text.trim (before ++ (cs ++ after)) = cs := by
  obtain ⟨c, rest, rfl, solid⟩ := h.eq_cons
  obtain ⟨d, last, stop⟩ := h.ends
  have left : trimLeft (before ++ (c :: rest ++ after)) = c :: rest ++ after :=
    dropWhile_append_stop blank fun d first => Option.some.inj first ▸ solid
  have right : ((c :: rest) ++ after).reverse.dropWhile isBlank = (c :: rest).reverse := by
    rw [List.reverse_append]
    refine dropWhile_append_stop (fun b mem => blank' b (List.mem_reverse.mp mem)) fun e first => ?_
    rw [List.head?_reverse, Option.mem_def.mp last] at first
    exact Option.some.inj first ▸ stop
  rw [Text.trim, left, trimRight, right, List.reverse_reverse]

theorem trim (h : Tight cs) : Text.trim cs = cs := by
  have whole := h.trim_around (List.forall_mem_nil _) (List.forall_mem_nil _)
  rwa [List.nil_append, List.append_nil] at whole

end Tight

theorem eq_append_of_after? {lead cs rest : List Char} (h : after? lead cs = some rest) :
    cs = lead ++ rest := by
  induction lead generalizing cs with
  | nil => exact Option.some.inj h
  | cons l lead ih =>
      cases cs with
      | nil => cases h
      | cons c cs =>
          simp only [after?] at h
          split at h
          case isTrue same => rw [ih h, same, List.cons_append]
          case isFalse => cases h

theorem after?_append (lead rest : List Char) : after? lead (lead ++ rest) = some rest := by
  induction lead with
  | nil => rfl
  | cons l lead ih => simpa [after?] using ih

theorem startsWith_iff {lead cs : List Char} :
    startsWith lead cs = true ↔ ∃ rest, cs = lead ++ rest := by
  rw [startsWith, Option.isSome_iff_exists]
  constructor
  · rintro ⟨rest, found⟩
    exact ⟨rest, eq_append_of_after? found⟩
  · rintro ⟨rest, rfl⟩
    exact ⟨rest, after?_append lead rest⟩

theorem eq_append_of_splitAtBlank {cs before after : List Char}
    (h : splitAtBlank cs = some (before, after)) :
    ∃ c, isBlank c = true ∧ cs = before ++ c :: after := by
  induction cs generalizing before with
  | nil => cases h
  | cons c cs ih =>
      simp only [splitAtBlank] at h
      split at h
      case isTrue blank =>
        obtain ⟨rfl, rfl⟩ := Prod.mk.inj (Option.some.inj h)
        exact ⟨c, blank, rfl⟩
      case isFalse =>
        obtain ⟨⟨inner, rest⟩, split, same⟩ := Option.map_eq_some_iff.mp h
        obtain ⟨rfl, rfl⟩ := Prod.mk.inj same
        obtain ⟨d, blank, rfl⟩ := ih split
        exact ⟨d, blank, rfl⟩

theorem splitOn_of_not_mem {separator : Char} {cs : List Char} (h : separator ∉ cs) :
    splitOn separator cs = [cs] := by
  induction cs with
  | nil => rfl
  | cons c rest ih =>
      rw [List.mem_cons, not_or] at h
      rw [splitOn, if_neg (Ne.symm h.1), ih h.2]

theorem splitOn_append {separator : Char} {cs : List Char} (h : separator ∉ cs)
    (rest : List Char) :
    splitOn separator (cs ++ separator :: rest) = cs :: splitOn separator rest := by
  induction cs with
  | nil => rw [List.nil_append, splitOn, if_pos rfl]
  | cons c cs ih =>
      rw [List.mem_cons, not_or] at h
      rw [List.cons_append, splitOn, if_neg (Ne.symm h.1), ih h.2]

end Journey.Text
