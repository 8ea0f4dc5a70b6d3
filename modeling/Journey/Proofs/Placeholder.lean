import Journey.Proofs.Spelling

/-!
Placeholders and what stands around them. Nothing that begins with a blank or with another placeholder
changes how the text before it is read, so that the pieces of a text with a placeholder in the middle are
those of its parts, and the placeholder that a text consists of, blanks aside, is the only one it has. What
the placeholders stand for is a matter of scopes.
-/

namespace Journey

open Text

namespace Text

theorem trimLeft_append (cs tail : List Char) :
    trimLeft (cs ++ tail) = if trimLeft cs = [] then trimLeft tail else trimLeft cs ++ tail := by
  rw [trimLeft, trimLeft, List.dropWhile_append]
  exact if_congr List.isEmpty_iff rfl rfl

theorem after?_append_of_head {lead tail : List Char} (apart : ∀ l ∈ lead, tail.head? ≠ some l)
    (cs : List Char) : after? lead (cs ++ tail) = (after? lead cs).map (· ++ tail) := by
  induction lead generalizing cs with
  | nil => rfl
  | cons l lead ih =>
      obtain ⟨first, others⟩ := List.forall_mem_cons.mp apart
      cases cs with
      | cons c cs =>
          simp only [List.cons_append, after?]
          split
          case isTrue => exact ih others cs
          case isFalse => rfl
      | nil =>
          cases tail with
          | nil => rfl
          | cons d tail =>
              have other : l ≠ d := fun same => first (congrArg some same.symm)
              simp [after?, other]

/-- A text is blanks, then what is left of it when they are trimmed, then blanks. -/
theorem eq_trim (cs : List Char) : ∃ before after, cs = before ++ (trim cs ++ after) ∧
    (∀ b ∈ before, isBlank b = true) ∧ ∀ b ∈ after, isBlank b = true := by
  refine ⟨cs.takeWhile isBlank, ((trimLeft cs).reverse.takeWhile isBlank).reverse, ?_, ?_, ?_⟩
  · have tail : trim cs ++ ((trimLeft cs).reverse.takeWhile isBlank).reverse = trimLeft cs := by
      rw [trim, trimRight, ← List.reverse_append, List.takeWhile_append_dropWhile,
        List.reverse_reverse]
    rw [tail, trimLeft, List.takeWhile_append_dropWhile]
  · exact fun b mem => List.mem_takeWhile_imp mem
  · exact fun b mem => List.mem_takeWhile_imp (List.mem_reverse.mp mem)

end Text

namespace Placeholder

variable {cs tail : List Char}

theorem leadingName_eq_nil_iff : leadingName cs = [] ↔ ∀ c ∈ cs.head?, isNameStart c = false := by
  refine ⟨fun none c first => ?_, leadingName_of_head⟩
  cases cs with
  | nil => cases first
  | cons d rest =>
      obtain rfl := Option.some.inj first
      cases start : isNameStart d with
      | false => rfl
      | true =>
          rw [leadingName, if_pos start] at none
          cases none

/-- What begins so has no part in what stands before it: it makes no name longer, closes no braces, and
does not open any together with the sign before it. -/
structure Apart (tail : List Char) : Prop where
  name : ∀ c ∈ tail.head?, isWord c = false ∧ c ≠ '.'
  sign : ∀ c ∈ (trimLeft tail).head?, isNameStart c = false ∧ c ≠ '\x7d'
  inner : ∀ rest, tail = '\x7b' :: rest → ∀ c ∈ (trimLeft rest).head?, isNameStart c = false

theorem apart_blanks (blank : ∀ b ∈ tail, isBlank b = true) : Apart tail where
  name c first := by
    have plain := plain_of_isBlank (blank c (List.mem_of_mem_head? first))
    exact ⟨plain.1, fun point => plain.2.2 (by simp [point])⟩
  sign c first := by
    rw [trimLeft, List.dropWhile_eq_nil_iff.mpr blank] at first
    cases first
  inner rest same := by
    cases (show isBlank '\x7b' = false from rfl).symm.trans (blank '\x7b' (by simp [same]))

theorem Spells.apart {name spelling rest : List Char} (h : Spells name spelling rest) :
    Apart (spelling ++ rest) := by
  cases h with
  | braces h =>
      obtain ⟨-, before, after, -, -, rfl⟩ := h
      refine ⟨?_, ?_, ?_⟩
      · rintro c ⟨⟩
        decide
      · rintro c ⟨⟩
        decide
      · rintro rest ⟨⟩ c ⟨⟩
        decide
  | dollarBraces h =>
      obtain ⟨-, before, after, -, -, rfl⟩ := h
      refine ⟨?_, ?_, nofun⟩
      · rintro c ⟨⟩
        decide
      · rintro c ⟨⟩
        decide
  | bare named ends =>
      refine ⟨?_, ?_, nofun⟩
      · rintro c ⟨⟩
        decide
      · rintro c ⟨⟩
        decide

namespace Apart

theorem ends (h : Apart tail) (more : Ends cs) : Ends (cs ++ tail) := by
  cases cs with
  | nil => exact .of_head h.name
  | cons c rest =>
      refine ⟨more.word, fun rest' same d first => ?_⟩
      obtain ⟨rfl, rfl⟩ := List.cons.inj same
      cases rest with
      | nil => exact (h.name d first).1
      | cons e rest => exact more.point _ rfl d first

theorem leadingName (h : Apart tail) (cs : List Char) :
    Placeholder.leadingName (cs ++ tail) = Placeholder.leadingName cs := by
  rcases leadingName_spec cs with none | ⟨rest, whole, named, ends⟩
  · rw [none, leadingName_eq_nil_iff]
    intro c first
    cases cs with
    | cons d rest => exact leadingName_eq_nil_iff.mp none c first
    | nil =>
        cases start : isNameStart c with
        | false => rfl
        | true => exact absurd ((h.name c first).1.symm.trans (isWord_of_isNameStart start)) nofun
  · generalize Placeholder.leadingName cs = name at *
    subst whole
    rw [List.append_assoc, leadingName_append named (h.ends ends)]

theorem head (h : Apart tail) : tail.head? ≠ some '\x7d' := by
  intro first
  obtain ⟨rest, rfl⟩ := List.head?_eq_some_iff.mp first
  exact (h.sign '\x7d' rfl).2 rfl

/-- Braces that are closed are so within the text itself. -/
theorem after?_closing (h : Apart tail) {closing : List Char} (filled : closing ≠ [])
    (braces : ∀ l ∈ closing, l = '\x7d') (cs : List Char) :
    after? closing (trimLeft (cs ++ tail)) = (after? closing (trimLeft cs)).map (· ++ tail) := by
  have noClosing {ds : List Char} (other : ds.head? ≠ some '\x7d') : after? closing ds = none := by
    have none := after?_append_of_head (fun l (mem : l ∈ closing) => braces l mem ▸ other) []
    cases closing with
    | nil => exact absurd rfl filled
    | cons l closing => exact none
  rw [trimLeft_append]
  split
  case isTrue none =>
    rw [none, noClosing fun first => (h.sign _ first).2 rfl, noClosing (by simp)]
    rfl
  case isFalse => exact after?_append_of_head (fun l mem => braces l mem ▸ h.head) _

/-- A sign at the end of a text may be the first half of what opens braces, but there is no name in them. -/
theorem opening (h : Apart tail) (filled : cs ≠ []) (sign : Char) :
    after? [sign, '\x7b'] (cs ++ tail) = (after? [sign, '\x7b'] cs).map (· ++ tail) ∨
      after? [sign, '\x7b'] cs = none ∧ ∃ inner, after? [sign, '\x7b'] (cs ++ tail) = some inner ∧
        Placeholder.leadingName (trimLeft inner) = [] := by
  cases cs with
  | nil => exact absurd rfl filled
  | cons c rest =>
      cases rest with
      | cons d rest =>
          refine .inl ?_
          simp only [List.cons_append, after?]
          split
          · split <;> rfl
          · rfl
      | nil =>
          have ended : after? [sign, '\x7b'] [c] = none := by
            simp only [after?]
            split <;> rfl
          rw [List.singleton_append, ended, after?]
          by_cases same : sign = c
          · rw [if_pos same]
            cases tail with
            | nil => exact .inl rfl
            | cons d rest =>
                by_cases brace : d = '\x7b'
                · subst brace
                  exact .inr ⟨rfl, rest, rfl, leadingName_eq_nil_iff.mpr (h.inner rest rfl)⟩
                · exact .inl (by simp [after?, Ne.symm brace])
          · exact .inl (if_neg same)

theorem enclosed? (h : Apart tail) {sign : Char} {closing : List Char} (closes : closing ≠ [])
    (braces : ∀ l ∈ closing, l = '\x7d') (filled : cs ≠ []) :
    Placeholder.enclosed? [sign, '\x7b'] closing (cs ++ tail) =
      Placeholder.enclosed? [sign, '\x7b'] closing cs := by
  rw [Placeholder.enclosed?, Placeholder.enclosed?]
  rcases h.opening filled sign with goesOn | ⟨none, inner, opens, noName⟩
  · rw [goesOn]
    cases after? [sign, '\x7b'] cs with
    | none => rfl
    | some inner =>
        rw [Option.map_some]
        dsimp only
        rw [trimLeft_append]
        by_cases blank : trimLeft inner = []
        · have noName := leadingName_eq_nil_iff.mpr fun c first => (h.sign c first).1
          rw [if_pos blank, blank, noName]
          rfl
        · rw [if_neg blank, h.leadingName]
          rcases leadingName_spec (trimLeft inner) with noName | ⟨rest, whole, named, -⟩
          · rw [noName]
            rfl
          · generalize Placeholder.leadingName (trimLeft inner) = name at *
            rw [whole, List.append_assoc, List.drop_left, List.drop_left,
              h.after?_closing closes braces]
            cases after? closing (trimLeft rest) with
            | none => rfl
            | some behind => simp [Nat.add_sub_add_right]
  · rw [none, opens]
    simp [noName]

theorem bare? (h : Apart tail) (filled : cs ≠ []) :
    Placeholder.bare? (cs ++ tail) = Placeholder.bare? cs := by
  cases cs with
  | nil => exact absurd rfl filled
  | cons c rest =>
      by_cases sign : c = '$'
      · subst sign
        rw [List.cons_append, Placeholder.bare?, Placeholder.bare?, h.leadingName]
      · rw [List.cons_append, Placeholder.bare?.eq_def, Placeholder.bare?.eq_def]
        split
        case h_1 same => exact absurd (List.cons.inj same).1 sign
        case h_2 =>
          split
          case h_1 same => exact absurd (List.cons.inj same).1 sign
          case h_2 => rfl

theorem at? (h : Apart tail) (filled : cs ≠ []) : Placeholder.at? (cs ++ tail) = Placeholder.at? cs := by
  rw [Placeholder.at?, Placeholder.at?, h.enclosed? (by simp) (by simp) filled,
    h.enclosed? (by simp) (by simp) filled, h.bare? filled]

theorem piecesFrom (h : Apart tail) {skip : Nat} (enough : skip ≤ cs.length) :
    Placeholder.piecesFrom skip (cs ++ tail) = Placeholder.piecesFrom skip cs ++ Placeholder.pieces tail := by
  induction cs generalizing skip with
  | nil =>
      obtain rfl := Nat.le_zero.mp enough
      rfl
  | cons c rest ih =>
      cases skip with
      | succ skip => exact ih (Nat.le_of_succ_le_succ enough)
      | zero =>
          have same : Placeholder.at? (c :: (rest ++ tail)) = Placeholder.at? (c :: rest) :=
            h.at? (List.cons_ne_nil c rest)
          rw [List.cons_append]
          rw [Placeholder.piecesFrom, Placeholder.piecesFrom, same]
          cases found : Placeholder.at? (c :: rest) with
          | none => exact congrArg _ (ih (Nat.zero_le _))
          | some placed =>
              obtain ⟨spelling, behind, text, length, -⟩ := at?_spec found
              have short : placed.2 ≤ (c :: rest).length := by
                rw [text, length, List.length_append]
                exact Nat.le_add_right _ _
              rw [List.length_cons] at short
              exact congrArg _ (ih (by omega))

theorem pieces (h : Apart tail) (cs : List Char) :
    Placeholder.pieces (cs ++ tail) = Placeholder.pieces cs ++ Placeholder.pieces tail :=
  h.piecesFrom (Nat.zero_le _)

end Apart

/-- A placeholder in the middle of a text is read between what is read on both sides of it. -/
theorem Spells.pieces_around {name spelling rest : List Char} (h : Spells name spelling rest)
    (cs : List Char) :
    Placeholder.pieces (cs ++ (spelling ++ rest)) =
      Placeholder.pieces cs ++ .hole (String.ofList name) :: Placeholder.pieces rest := by
  rw [h.apart.pieces, h.pieces]

theorem free_blank {b : Char} (blank : isBlank b = true) (cs : List Char) : Free (b :: cs) := by
  have plain := (plain_of_isBlank blank).2.2
  intro name spelling rest text here
  obtain ⟨c, others, rfl⟩ := here.ne_nil
  obtain ⟨rfl, -⟩ := List.cons.inj text
  cases here with
  | braces h | dollarBraces h =>
      obtain ⟨-, before, after, -, -, spelled⟩ := h
      obtain ⟨rfl, -⟩ := List.cons.inj spelled
      exact plain (by decide)
  | bare => exact plain (by decide)

theorem pieces_blanks_append {before : List Char} (blank : ∀ b ∈ before, isBlank b = true)
    (cs : List Char) : pieces (before ++ cs) = before.map .char ++ pieces cs := by
  induction before with
  | nil => rfl
  | cons b before ih =>
      obtain ⟨first, others⟩ := List.forall_mem_cons.mp blank
      rw [List.cons_append, (free_blank first _).pieces, ih others]
      rfl

/-- Trimming a text takes pieces away that are blanks. -/
theorem pieces_trim (cs : List Char) : ∃ before after : List Char, cs = before ++ (trim cs ++ after) ∧
    (∀ b ∈ before, isBlank b = true) ∧ (∀ b ∈ after, isBlank b = true) ∧
      pieces cs = before.map .char ++ (pieces (trim cs) ++ after.map .char) := by
  obtain ⟨before, after, whole, blank, blank'⟩ := eq_trim cs
  refine ⟨before, after, whole, blank, blank', ?_⟩
  have trailing : pieces after = after.map .char := by
    have none := pieces_blanks_append blank' []
    rwa [List.append_nil, show pieces [] = [] from rfl, List.append_nil] at none
  rw [← trailing, ← (apart_blanks blank').pieces, ← pieces_blanks_append blank, ← whole]

theorem filterMap_hole?_chars (cs : List Char) : (cs.map Piece.char).filterMap Piece.hole? = [] := by
  simp [List.filterMap_map, Piece.hole?]

/-- The placeholder that a text consists of is the only one in it. -/
theorem names_of_sole? {s name : String} (h : sole? s = some name) : names s = [name] := by
  simp only [sole?] at h
  split at h
  case h_1 name' alone =>
    obtain rfl := Option.some.inj h
    obtain ⟨before, after, -, -, -, whole⟩ := pieces_trim s.toList
    rw [names, whole, alone, List.filterMap_append, List.filterMap_append, filterMap_hole?_chars,
      filterMap_hole?_chars]
    rfl
  case h_2 => cases h

/-- A text without placeholders is its characters. -/
theorem pieces_of_names {s : String} (h : names s = []) : pieces s.toList = s.toList.map .char := by
  rw [names] at h
  generalize s.toList = cs at *
  have scan := leftmost_pieces cs
  generalize pieces cs = ps at *
  induction scan with
  | done => rfl
  | char free more ih => rw [ih h, List.map_cons]
  | hole here more ih => cases h

theorem Words.solid {words : List Char} (h : Words words) : ∀ c ∈ words, isBlank c = false := by
  induction h with
  | none => exact List.forall_mem_nil _
  | next filled all more ih =>
      refine List.forall_mem_cons.mpr ⟨by decide, List.forall_mem_append.mpr ⟨fun c mem => ?_, ih⟩⟩
      exact isBlank_of_isWord (all c mem)

theorem DottedName.solid {name : List Char} (h : DottedName name) : ∀ c ∈ name, isBlank c = false := by
  obtain ⟨named, more⟩ := h
  exact List.forall_mem_append.mpr
    ⟨fun c mem => isBlank_of_isWord (isWord_of_isIdentifier named c mem), more.solid⟩

theorem Ends.of_append (h : Ends (cs ++ tail)) : Ends cs where
  word c first := h.word c (by rw [List.head?_append, Option.mem_def.mp first]; rfl)
  point rest same c first := by
    subst same
    exact h.point (rest ++ tail) rfl c (by rw [List.head?_append, Option.mem_def.mp first]; rfl)

namespace Spells

variable {name spelling rest : List Char}

theorem tight (h : Spells name spelling rest) : Tight spelling := by
  cases h with
  | braces h =>
      obtain ⟨-, before, after, -, -, rfl⟩ := h
      have opening : Tight ['\x7b', '\x7b'] := .of_solid (by simp) (by simp [isBlank])
      have closing : Tight ['\x7d', '\x7d'] := .of_solid (by simp) (by simp [isBlank])
      have whole := opening.around closing (before ++ (name ++ after))
      simpa using whole
  | dollarBraces h =>
      obtain ⟨-, before, after, -, -, rfl⟩ := h
      have opening : Tight ['$', '\x7b'] := .of_solid (by simp) (by simp [isBlank])
      have closing : Tight ['\x7d'] := .of_solid (by simp) (by simp [isBlank])
      have whole := opening.around closing (before ++ (name ++ after))
      simpa using whole
  | bare named ends =>
      exact .of_solid (List.cons_ne_nil _ _) (List.forall_mem_cons.mpr ⟨by decide, named.solid⟩)

/-- A spelling is one wherever the text behind it ends. -/
theorem of_append (h : Spells name spelling (rest ++ tail)) : Spells name spelling rest := by
  cases h with
  | braces h => exact .braces h
  | dollarBraces h => exact .dollarBraces h
  | bare named ends => exact .bare named ends.of_append

theorem alone (h : Spells name spelling rest) : Spells name spelling [] := by
  rw [← List.nil_append rest] at h
  exact h.of_append

end Spells

theorem eq_of_chars_hole {xs ys : List Char} {name name' : String} {zs ws : List Piece}
    (h : xs.map Piece.char ++ .hole name :: zs = ys.map Piece.char ++ .hole name' :: ws) :
    xs = ys ∧ name = name' ∧ zs = ws := by
  induction xs generalizing ys with
  | nil =>
      cases ys with
      | nil =>
          obtain ⟨same, rest⟩ := List.cons.inj h
          exact ⟨rfl, Piece.hole.inj same, rest⟩
      | cons y ys => cases (List.cons.inj h).1
  | cons x xs ih =>
      cases ys with
      | nil => cases (List.cons.inj h).1
      | cons y ys =>
          obtain ⟨same, rest⟩ := List.cons.inj h
          obtain ⟨rfl, others⟩ := ih rest
          exact ⟨congrArg (· :: xs) (Piece.char.inj same), others⟩

/-- A text that has one placeholder consists of it if there are only blanks around it. -/
theorem sole?_around {name spelling : List Char} {before after : String}
    (free : names before = []) (free' : names after = []) (h : Spells name spelling after.toList) :
    sole? (before ++ String.ofList spelling ++ after) =
      if (before ++ after).toList.all isBlank then some (String.ofList name) else none := by
  have text : (before ++ String.ofList spelling ++ after).toList =
      before.toList ++ (spelling ++ after.toList) := by simp
  rw [sole?, text]
  by_cases blank : (before ++ after).toList.all isBlank = true
  · rw [if_pos blank]
    rw [String.toList_append, List.all_append, Bool.and_eq_true, List.all_eq_true,
      List.all_eq_true] at blank
    have alone := h.alone.pieces
    rw [List.append_nil] at alone
    rw [h.tight.trim_around blank.1 blank.2, alone]
    rfl
  · rw [if_neg blank]
    split
    case h_2 => rfl
    case h_1 name' alone =>
      -- The only placeholder has nothing but what is trimmed around it, and that is blank.
      obtain ⟨x, y, -, blankBefore, blankAfter, whole⟩ :=
        pieces_trim (before.toList ++ (spelling ++ after.toList))
      rw [h.pieces_around, pieces_of_names free, pieces_of_names free', alone] at whole
      obtain ⟨rfl, -, same⟩ := eq_of_chars_hole whole
      obtain rfl := List.map_injective_iff.mpr (fun c d => Piece.char.inj) same
      refine absurd ?_ blank
      rw [String.toList_append, List.all_append, Bool.and_eq_true, List.all_eq_true, List.all_eq_true]
      exact ⟨blankBefore, blankAfter⟩

end Placeholder
end Journey
