import Journey.Placeholder
import Journey.Proofs.Text

/-!
How placeholders are spelled. A dotted name stands between double braces, between braces after a dollar
sign, or bare after a dollar sign and then as long as it can be. The reader finds a placeholder at the start
of a text exactly if the text begins with such a spelling, and the pieces of a text are those of one scan
from the left. What follows from what stands around a placeholder is told elsewhere.
-/

namespace Journey.Placeholder

open Text

/-- Words with a point before each. -/
inductive Words : List Char → Prop
  | none : Words []
  | next {word rest : List Char} (filled : word ≠ []) (all : ∀ c ∈ word, isWord c = true)
      (more : Words rest) : Words ('.' :: (word ++ rest))

/-- An identifier with further words. -/
inductive DottedName : List Char → Prop
  | mk {first words : List Char} (named : isIdentifier first = true) (more : Words words) :
      DottedName (first ++ words)

/-- What stands behind a name does not make it longer. -/
structure Ends (tail : List Char) : Prop where
  word : ∀ c ∈ tail.head?, isWord c = false
  point : ∀ rest, tail = '.' :: rest → ∀ c ∈ rest.head?, isWord c = false

theorem Ends.of_head {tail : List Char} (h : ∀ c ∈ tail.head?, isWord c = false ∧ c ≠ '.') : Ends tail where
  word c first := (h c first).1
  point rest same := by
    subst same
    exact absurd rfl (h '.' rfl).2

theorem Words.stop {words tail : List Char} (h : Words words) (ends : Ends tail) :
    ∀ c ∈ (words ++ tail).head?, isWord c = false := by
  cases h with
  | none => exact ends.word
  | next filled all more =>
      rintro c first
      obtain rfl := Option.some.inj first
      decide

theorem furtherWords_of_ends {tail : List Char} (h : Ends tail) (fuel : Nat) :
    furtherWords fuel tail = [] := by
  cases fuel with
  | zero => rfl
  | succ fuel =>
      rw [furtherWords.eq_def]
      dsimp only
      split
      case h_1 rest =>
        have none : rest.takeWhile isWord = [] := takeWhile_append_stop (List.forall_mem_nil _)
          (h.point rest rfl)
        rw [none]
        rfl
      case h_2 => rfl

theorem furtherWords_append {words tail : List Char} (h : Words words) (ends : Ends tail) {fuel : Nat}
    (enough : words.length ≤ fuel) : furtherWords fuel (words ++ tail) = words := by
  induction h generalizing fuel with
  | none => exact furtherWords_of_ends ends fuel
  | @next word rest filled all more ih =>
      cases fuel with
      | zero => cases enough
      | succ fuel =>
          have taken : (word ++ (rest ++ tail)).takeWhile isWord = word :=
            takeWhile_append_stop all (more.stop ends)
          have short : rest.length ≤ fuel := by
            rw [List.length_cons, List.length_append] at enough
            omega
          rw [List.cons_append, List.append_assoc, furtherWords, taken]
          simp [filled, ih short]

/-- With fuel for the whole text, the words that are read are all there are. -/
theorem furtherWords_spec (fuel : Nat) {cs : List Char} (enough : cs.length ≤ fuel)
    (stop : ∀ c ∈ cs.head?, isWord c = false) :
    ∃ tail, cs = furtherWords fuel cs ++ tail ∧ Words (furtherWords fuel cs) ∧ Ends tail := by
  induction fuel generalizing cs with
  | zero =>
      obtain rfl := List.length_eq_zero_iff.mp (Nat.le_zero.mp enough)
      exact ⟨[], rfl, .none, stop, nofun⟩
  | succ fuel ih =>
      rw [furtherWords.eq_def]
      dsimp only
      split
      case h_1 rest =>
        have after := head_dropWhile isWord rest
        rw [drop_takeWhile]
        split
        case isTrue none =>
          have whole := List.takeWhile_append_dropWhile (p := isWord) (l := rest)
          rw [List.isEmpty_iff.mp none, List.nil_append] at whole
          refine ⟨'.' :: rest, rfl, .none, stop, ?_⟩
          rintro _ ⟨⟩
          rwa [whole] at after
        case isFalse some =>
          have short : (rest.dropWhile isWord).length ≤ fuel :=
            Nat.le_trans (List.dropWhile_sublist _).length_le (Nat.le_of_succ_le_succ enough)
          obtain ⟨tail, whole, words, ends⟩ := ih short after
          refine ⟨tail, ?_, .next (by simpa using some) (fun c => List.mem_takeWhile_imp) words, ends⟩
          rw [List.cons_append, List.cons_append, List.append_assoc, ← whole,
            List.takeWhile_append_dropWhile]
      case h_2 other =>
        exact ⟨cs, rfl, .none, stop, fun rest same => absurd same (other rest)⟩

theorem leadingName_of_head {cs : List Char} (h : ∀ c ∈ cs.head?, isNameStart c = false) :
    leadingName cs = [] := by
  cases cs with
  | nil => rfl
  | cons c rest => rw [leadingName, if_neg (by simp [h c rfl])]

theorem leadingName_append {name tail : List Char} (h : DottedName name) (ends : Ends tail) :
    leadingName (name ++ tail) = name := by
  obtain ⟨named, more⟩ := h
  rename_i first words
  cases first with
  | nil => cases named
  | cons c word =>
      rw [isIdentifier, Bool.and_eq_true, List.all_eq_true] at named
      obtain ⟨start, all⟩ := named
      have taken : (word ++ (words ++ tail)).takeWhile isWord = word :=
        takeWhile_append_stop all (more.stop ends)
      have short : words.length ≤ (word ++ (words ++ tail)).length := by
        simp only [List.length_append]
        omega
      have dropped : (c :: (word ++ (words ++ tail))).drop (c :: word).length = words ++ tail :=
        List.drop_left
      rw [List.append_assoc, List.cons_append, leadingName, if_pos start, taken]
      dsimp only
      rw [dropped, furtherWords_append more ends short]

/-- What is read as a name is none, or the longest there is. -/
theorem leadingName_spec (cs : List Char) : leadingName cs = [] ∨
    ∃ tail, cs = leadingName cs ++ tail ∧ DottedName (leadingName cs) ∧ Ends tail := by
  cases cs with
  | nil => exact .inl rfl
  | cons c rest =>
      rw [leadingName]
      split
      case isFalse => exact .inl rfl
      case isTrue start =>
        have dropped : (c :: rest).drop (c :: rest.takeWhile isWord).length = rest.dropWhile isWord := by
          rw [List.length_cons, List.drop_succ_cons, drop_takeWhile]
        have short : (rest.dropWhile isWord).length ≤ rest.length := (List.dropWhile_sublist _).length_le
        obtain ⟨tail, whole, words, ends⟩ := furtherWords_spec _ short (head_dropWhile isWord rest)
        have named : isIdentifier (c :: rest.takeWhile isWord) = true := by
          rw [isIdentifier, Bool.and_eq_true, List.all_eq_true]
          exact ⟨start, fun c => List.mem_takeWhile_imp⟩
        dsimp only
        rw [dropped]
        refine .inr ⟨tail, ?_, .mk named words, ends⟩
        rw [List.append_assoc, ← whole, List.cons_append, List.takeWhile_append_dropWhile]

/-- A text between two signs, with blanks around the name in it. -/
structure Enclosed (opening closing name spelling : List Char) : Prop where
  named : DottedName name
  spelled : ∃ before after : List Char, (∀ b ∈ before, isBlank b = true) ∧
    (∀ b ∈ after, isBlank b = true) ∧ spelling = opening ++ (before ++ (name ++ (after ++ closing)))

theorem DottedName.head {name : List Char} (h : DottedName name) (tail : List Char) :
    ∃ c rest, name ++ tail = c :: rest ∧ isNameStart c = true := by
  obtain ⟨named, more⟩ := h
  rename_i first words
  cases first with
  | nil => cases named
  | cons c word =>
      rw [isIdentifier, Bool.and_eq_true] at named
      exact ⟨c, _, rfl, named.1⟩

theorem DottedName.ne_nil {name : List Char} (h : DottedName name) : name ≠ [] := by
  obtain ⟨c, rest, whole, -⟩ := h.head []
  rw [List.append_nil] at whole
  rw [whole]
  nofun

theorem exists_append_trimLeft (cs : List Char) :
    ∃ before, (∀ b ∈ before, isBlank b = true) ∧ cs = before ++ trimLeft cs :=
  ⟨cs.takeWhile isBlank, fun _ => List.mem_takeWhile_imp, List.takeWhile_append_dropWhile.symm⟩

theorem trimLeft_blanks_append {before cs : List Char} (blank : ∀ b ∈ before, isBlank b = true)
    (solid : ∀ c ∈ cs.head?, isBlank c = false) : trimLeft (before ++ cs) = cs :=
  dropWhile_append_stop blank solid

theorem Enclosed.found {opening closing name spelling : List Char}
    (h : Enclosed opening ('\x7d' :: closing) name spelling) (rest : List Char) :
    enclosed? opening ('\x7d' :: closing) (spelling ++ rest) = some (name, spelling.length) := by
  obtain ⟨named, before, after, blank, blank', rfl⟩ := h
  let tail := after ++ '\x7d' :: (closing ++ rest)
  have whole : opening ++ (before ++ (name ++ (after ++ '\x7d' :: closing))) ++ rest =
      opening ++ (before ++ (name ++ tail)) := by
    simp [tail]
  have body : trimLeft (before ++ (name ++ tail)) = name ++ tail := by
    obtain ⟨c, others, same, start⟩ := named.head tail
    refine trimLeft_blanks_append blank fun d first => ?_
    rw [same] at first
    exact Option.some.inj first ▸ isBlank_of_isWord (isWord_of_isNameStart start)
  have ends : Ends tail := by
    refine .of_head fun c first => ?_
    cases after with
    | nil =>
        obtain rfl := Option.some.inj first
        decide
    | cons b after =>
        obtain rfl := Option.some.inj first
        have plain := plain_of_isBlank (blank' b List.mem_cons_self)
        exact ⟨plain.1, fun point => plain.2.2 (by simp [point])⟩
  have filled : name.isEmpty = false := by simpa using named.ne_nil
  have closes : trimLeft tail = '\x7d' :: closing ++ rest :=
    trimLeft_blanks_append blank' fun c first => Option.some.inj first ▸ rfl
  rw [whole, enclosed?, after?_append]
  dsimp only
  rw [body, leadingName_append named ends, filled, List.drop_left, closes, after?_append,
    if_neg Bool.false_ne_true, ← whole]
  simp only [List.length_append, Nat.add_sub_cancel]

theorem enclosed?_spec {opening closing name cs : List Char} {n : Nat}
    (h : enclosed? opening closing cs = some (name, n)) :
    ∃ spelling rest, cs = spelling ++ rest ∧ n = spelling.length ∧
      Enclosed opening closing name spelling := by
  simp only [enclosed?] at h
  split at h
  case h_1 => cases h
  case h_2 inner opened =>
    split at h
    case isTrue => cases h
    case isFalse found =>
      split at h
      case h_2 => cases h
      case h_1 rest closed =>
        obtain ⟨rfl, rfl⟩ := Prod.mk.inj (Option.some.inj h)
        rcases leadingName_spec (trimLeft inner) with none | ⟨tail, whole, named, -⟩
        · exact absurd (List.isEmpty_iff.mpr none) found
        · obtain ⟨before, blank, inside⟩ := exists_append_trimLeft inner
          generalize trimLeft inner = body at *
          generalize leadingName body = name at *
          subst whole
          rw [List.drop_left] at closed
          obtain ⟨after, blank', behind⟩ := exists_append_trimLeft tail
          rw [eq_append_of_after? closed] at behind
          have text : cs = opening ++ (before ++ (name ++ (after ++ closing))) ++ rest := by
            rw [eq_append_of_after? opened, inside, behind]
            simp
          refine ⟨_, rest, text, ?_, named, before, after, blank, blank', rfl⟩
          rw [text, List.length_append, Nat.add_sub_cancel]

/-- The spelling of a placeholder with the name, if `rest` is what comes next. -/
inductive Spells (name : List Char) : (spelling rest : List Char) → Prop
  | braces {spelling rest : List Char} (h : Enclosed ['\x7b', '\x7b'] ['\x7d', '\x7d'] name spelling) :
      Spells name spelling rest
  | dollarBraces {spelling rest : List Char} (h : Enclosed ['$', '\x7b'] ['\x7d'] name spelling) :
      Spells name spelling rest
  | bare {rest : List Char} (named : DottedName name) (ends : Ends rest) : Spells name ('$' :: name) rest

theorem enclosed?_of_after? {opening closing cs : List Char} (h : after? opening cs = none) :
    enclosed? opening closing cs = none := by
  rw [enclosed?, h]

theorem Spells.found {name spelling rest : List Char} (h : Spells name spelling rest) :
    at? (spelling ++ rest) = some (name, spelling.length) := by
  cases h with
  | braces h => rw [at?, h.found rest]
  | dollarBraces h =>
      have other : enclosed? ['\x7b', '\x7b'] ['\x7d', '\x7d'] (spelling ++ rest) = none := by
        obtain ⟨-, before, after, -, -, rfl⟩ := h
        exact enclosed?_of_after? rfl
      rw [at?, other]
      dsimp only
      rw [h.found rest]
  | bare named ends =>
      obtain ⟨c, others, same, start⟩ := named.head rest
      have brace : c ≠ '\x7b' := by
        rintro rfl
        cases start
      have dollarBrace : enclosed? ['$', '\x7b'] ['\x7d'] ('$' :: name ++ rest) = none := by
        rw [List.cons_append, same]
        exact enclosed?_of_after? (by simp [after?, Ne.symm brace])
      have filled : name.isEmpty = false := by simpa using named.ne_nil
      rw [at?, show enclosed? ['\x7b', '\x7b'] ['\x7d', '\x7d'] ('$' :: name ++ rest) = none from rfl,
        dollarBrace]
      dsimp only
      rw [List.cons_append, bare?, leadingName_append named ends, filled]
      rfl

theorem at?_spec {name cs : List Char} {n : Nat} (h : at? cs = some (name, n)) :
    ∃ spelling rest, cs = spelling ++ rest ∧ n = spelling.length ∧ Spells name spelling rest := by
  simp only [at?] at h
  split at h
  case h_1 found =>
    obtain ⟨spelling, rest, text, length, enclosed⟩ := enclosed?_spec (h ▸ found)
    exact ⟨spelling, rest, text, length, .braces enclosed⟩
  case h_2 =>
    split at h
    case h_1 found =>
      obtain ⟨spelling, rest, text, length, enclosed⟩ := enclosed?_spec (h ▸ found)
      exact ⟨spelling, rest, text, length, .dollarBraces enclosed⟩
    case h_2 =>
      rw [bare?.eq_def] at h
      split at h
      case h_2 => cases h
      case h_1 _ rest _ _ =>
        dsimp only at h
        split at h
        case isTrue => cases h
        case isFalse found =>
          obtain ⟨rfl, rfl⟩ := Prod.mk.inj (Option.some.inj h)
          rcases leadingName_spec rest with none | ⟨tail, whole, named, ends⟩
          · exact absurd (List.isEmpty_iff.mpr none) found
          · exact ⟨_, tail, congrArg _ whole, rfl, .bare named ends⟩

/-- No spelling of a placeholder stands at the start of the text. -/
def Free (cs : List Char) : Prop :=
  ∀ name spelling rest, cs = spelling ++ rest → ¬ Spells name spelling rest

theorem at?_eq_none_iff {cs : List Char} : at? cs = none ↔ Free cs := by
  constructor
  · rintro none name spelling rest rfl here
    rw [here.found] at none
    cases none
  · intro free
    cases found : at? cs with
    | none => rfl
    | some placed =>
        obtain ⟨spelling, rest, text, -, here⟩ := at?_spec found
        exact absurd here (free _ spelling rest text)

theorem Spells.ne_nil {name spelling rest : List Char} (h : Spells name spelling rest) :
    ∃ c others, spelling = c :: others := by
  cases h with
  | braces h | dollarBraces h =>
      obtain ⟨-, before, after, -, -, rfl⟩ := h
      exact ⟨_, _, rfl⟩
  | bare => exact ⟨_, _, rfl⟩

/-- The pieces of a text in one scan from the left: where a placeholder begins it is taken, and the scan
goes on behind it; any other character stands for itself. -/
inductive Leftmost : List Char → List Piece → Prop
  | done : Leftmost [] []
  | char {c : Char} {rest : List Char} {ps : List Piece} (free : Free (c :: rest))
      (more : Leftmost rest ps) : Leftmost (c :: rest) (.char c :: ps)
  | hole {name spelling rest : List Char} {ps : List Piece} (here : Spells name spelling rest)
      (more : Leftmost rest ps) : Leftmost (spelling ++ rest) (.hole (String.ofList name) :: ps)

theorem piecesFrom_append (cs rest : List Char) : piecesFrom cs.length (cs ++ rest) = pieces rest := by
  induction cs with
  | nil => rfl
  | cons c cs ih => exact ih

theorem Spells.pieces {name spelling rest : List Char} (h : Spells name spelling rest) :
    pieces (spelling ++ rest) = .hole (String.ofList name) :: pieces rest := by
  have found := h.found
  obtain ⟨c, others, rfl⟩ := h.ne_nil
  rw [List.cons_append] at found ⊢
  rw [Placeholder.pieces, piecesFrom, found]
  exact congrArg _ (piecesFrom_append others rest)

theorem Free.pieces {c : Char} {rest : List Char} (h : Free (c :: rest)) :
    pieces (c :: rest) = .char c :: pieces rest := by
  rw [Placeholder.pieces, piecesFrom, at?_eq_none_iff.mpr h]
  rfl

theorem Leftmost.pieces {cs : List Char} {ps : List Piece} (h : Leftmost cs ps) : pieces cs = ps := by
  induction h with
  | done => rfl
  | char free more ih => rw [free.pieces, ih]
  | hole here more ih => rw [here.pieces, ih]

theorem leftmost_pieces (cs : List Char) : Leftmost cs (pieces cs) := by
  induction h : cs.length using Nat.strong_induction_on generalizing cs with
  | _ n ih =>
    subst h
    cases cs with
    | nil => exact .done
    | cons c rest =>
        by_cases free : Free (c :: rest)
        · rw [free.pieces]
          exact .char free (ih rest.length (Nat.lt_succ_self _) rest rfl)
        · cases found : at? (c :: rest) with
          | none => exact absurd (at?_eq_none_iff.mp found) free
          | some placed =>
              obtain ⟨spelling, tail, text, -, here⟩ := at?_spec found
              obtain ⟨d, others, rfl⟩ := here.ne_nil
              have shorter : tail.length < (c :: rest).length := by
                rw [text, List.length_append, List.length_cons]
                omega
              rw [text, here.pieces]
              exact .hole here (ih _ shorter tail rfl)

/-- The reader of texts makes just this scan. -/
theorem leftmost_iff {cs : List Char} {ps : List Piece} : Leftmost cs ps ↔ ps = pieces cs :=
  ⟨fun h => h.pieces.symm, fun same => same ▸ leftmost_pieces cs⟩

end Journey.Placeholder
