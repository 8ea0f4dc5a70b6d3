import Journey.ActionLine
import Journey.Proofs.Except
import Journey.Proofs.Text
import Journey.Value.Printer
import Mathlib.Data.List.Forall2

/-!
Action lines in writing. A line written from its parts, with text in quotes and with numbers and truth
values bare, is read as those parts again: nothing inside a quoted text ends it, as each quote there has a
backslash before it. Lines in other spellings are left to the definitions.
-/

namespace Journey

open Text

namespace Text

/-- What is left of a line after one of its pieces: nothing, or a space and the next piece. -/
inductive AtSpace : List Char → Prop
  | end_ : AtSpace []
  | space (rest : List Char) : AtSpace (' ' :: rest)

theorem AtSpace.stop {p : Char → Bool} (stops : p ' ' = false) {rest : List Char} (h : AtSpace rest) :
    ∀ c ∈ rest.head?, p c = false := by
  rintro c first
  cases h with
  | end_ => cases first
  | space rest =>
      obtain rfl := Option.some.inj first
      exact stops

theorem isBlank_of_isDigit {c : Char} (h : c.isDigit = true) : isBlank c = false := by
  simp only [Char.isDigit, Bool.and_eq_true, decide_eq_true_eq, ge_iff_le, UInt32.le_iff_toNat_le] at h
  have low : 48 ≤ c.toNat := h.1
  have high : c.toNat ≤ 57 := h.2
  simp only [isBlank, Bool.or_eq_false_iff, Bool.and_eq_false_iff, decide_eq_false_iff_not,
    beq_eq_false_iff_ne]
  omega

end Text

namespace Decimal

theorem isDigits_toDigits (n : Nat) : isDigits (Nat.toDigits 10 n) = true := by
  have filled : (Nat.toDigits 10 n).isEmpty = false := by simp [Nat.toDigits_ne_nil]
  rw [isDigits, filled, Bool.not_false, Bool.true_and, List.all_eq_true]
  intro c mem
  have digit := Nat.isDigit_of_mem_toDigits (by decide) (by decide) mem
  simpa [Char.isDigit, Char.le_def] using digit

theorem ofDigits_toDigits (n : Nat) : ofDigits (Nat.toDigits 10 n) = n :=
  Nat.ofDigitChars_toDigits (by decide) (by decide)

/-- Digits have no sign in front. -/
theorem signed_of_isDigits {ds : List Char} (h : isDigits ds = true) : signed ds = (false, ds) := by
  unfold signed
  split
  case h_1 => simp [isDigits] at h
  case h_2 => simp [isDigits] at h
  case h_3 => rfl

theorem printInt_eq (i : Int) :
    Value.printInt i = (if i < 0 then ['-'] else []) ++ Nat.toDigits 10 i.natAbs := by
  rw [Value.printInt, Int.toString_eq_repr, Int.repr_eq_if]
  by_cases negative : i < 0
  · have magnitude : (-i).toNat = i.natAbs := by omega
    rw [if_neg (Int.not_le.mpr negative), if_pos negative, magnitude, String.toList_append, Nat.toList_repr]
    rfl
  · have magnitude : i.toNat = i.natAbs := by omega
    rw [if_pos (Int.not_lt.mp negative), if_neg negative, magnitude, Nat.toList_repr, List.nil_append]

theorem mem_printInt {i : Int} {c : Char} (h : c ∈ Value.printInt i) : c = '-' ∨ c.isDigit = true := by
  rw [printInt_eq, List.mem_append] at h
  rcases h with sign | digit
  · split at sign
    case isTrue => exact .inl (List.mem_singleton.mp sign)
    case isFalse => cases sign
  · exact .inr (Nat.isDigit_of_mem_toDigits (by decide) (by decide) digit)

theorem printInt_ne_nil (i : Int) : Value.printInt i ≠ [] := by
  rw [printInt_eq]
  simp [Nat.toDigits_ne_nil]

theorem readInt?_printInt {low high i : Int} (above : low ≤ i) (below : i ≤ high) :
    readInt? low high (Value.printInt i) = some i := by
  have digits := isDigits_toDigits i.natAbs
  rw [readInt?, printInt_eq]
  by_cases negative : i < 0
  · have value : -(i.natAbs : Int) = i := by omega
    rw [if_pos negative, List.singleton_append, signed]
    dsimp only
    rw [ofDigits_toDigits, if_pos digits, if_pos rfl, value, if_pos (by simp [above, below])]
  · have value : (i.natAbs : Int) = i := by omega
    rw [if_neg negative, List.nil_append, signed_of_isDigits digits]
    dsimp only
    rw [ofDigits_toDigits, if_pos digits, if_neg Bool.false_ne_true, value,
      if_pos (by simp [above, below])]

end Decimal

namespace Value

def backslashed (c : Char) : List Char := if c = '"' ∨ c = '\\' then ['\\', c] else [c]

/-- A value on an action line: text in quotes, anything else bare. -/
def inLine : Value → List Char
  | .str s => '"' :: s.toList.flatMap backslashed ++ ['"']
  | v => v.print

/-- The values that a parameter can be given so. -/
def Writable : Value → Prop
  | .str _ | .bool _ => True
  | .int i => Decimal.minInt64 ≤ i ∧ i ≤ Decimal.maxInt64
  | _ => False

end Value

/-- A word that stands for itself on an action line. -/
structure PlainWord (word : String) : Prop where
  filled : word.toList ≠ []
  unquoted : word.toList.head? ≠ some '"'
  solid : ∀ c ∈ word.toList, isBlank c = false
  unkeyed : '=' ∉ word.toList

namespace Token

theorem quoted_backslashed (cs rest : List Char) :
    quoted (cs.flatMap Value.backslashed ++ '"' :: rest) = .ok (cs, rest) := by
  induction cs with
  | nil => rfl
  | cons c cs ih =>
      rw [List.flatMap_cons, List.append_assoc, Value.backslashed]
      split
      case isTrue special =>
        have kept : unescape c = c := by rcases special with rfl | rfl <;> rfl
        rw [List.cons_append, List.singleton_append, quoted, ih]
        simp [Except.map, kept]
      case isFalse plain =>
        obtain ⟨unquoted, unescaped⟩ := not_or.mp plain
        rw [List.singleton_append, quoted, if_neg unquoted, ih]
        · rfl
        · exact fun same _ => unescaped same
        · exact fun _ _ same _ => unescaped same

/-- The text is that of the token, whatever comes after the next space. -/
structure Reads (text : List Char) (token : Token) : Prop where
  tight : Tight text
  next : ∀ rest, AtSpace rest → next (text ++ rest) = .ok (token, rest)

theorem key?_pair {key : List Char} (named : isIdentifier key = true) (rest : List Char) :
    key? (key ++ '=' :: rest) = some (key, rest) := by
  have word : (key ++ '=' :: rest).takeWhile isWord = key := by
    rw [List.takeWhile_append_of_pos (isWord_of_isIdentifier named),
      List.takeWhile_cons_of_neg (by decide), List.append_nil]
  simp [key?, word, named]

/-- The word characters of a word, or of all of it, are not followed by the sign of a parameter. -/
theorem dropWhile_word_ne {word rest tail : List Char} (unkeyed : '=' ∉ word) (h : AtSpace rest) :
    (word ++ rest).dropWhile isWord ≠ '=' :: tail := by
  induction word with
  | nil =>
      cases h with
      | end_ => nofun
      | space rest =>
          rw [List.nil_append, List.dropWhile_cons_of_neg (by decide)]
          exact fun same => absurd (List.cons.inj same).1 (by decide)
  | cons c word ih =>
      rw [List.mem_cons, not_or] at unkeyed
      rw [List.cons_append]
      cases inside : isWord c with
      | true =>
          rw [List.dropWhile_cons_of_pos inside]
          exact ih unkeyed.2
      | false =>
          rw [List.dropWhile_cons_of_neg (by simp [inside])]
          exact fun same => unkeyed.1 (List.cons.inj same).1.symm

theorem key?_word {word rest : List Char} (unkeyed : '=' ∉ word) (h : AtSpace rest) :
    key? (word ++ rest) = none := by
  rw [key?, drop_takeWhile]
  split
  case h_1 tail found => exact absurd found (dropWhile_word_ne unkeyed h)
  case h_2 => rfl

theorem untilBlank_append {bare rest : List Char} (solid : ∀ c ∈ bare, isBlank c = false)
    (h : AtSpace rest) : untilBlank (bare ++ rest) = (bare, rest) := by
  have all : ∀ c ∈ bare, (!isBlank c) = true := fun c mem => by rw [solid c mem, Bool.not_false]
  have stop := h.stop (p := fun c => !isBlank c) (by decide)
  rw [untilBlank, takeWhile_append_stop all stop, dropWhile_append_stop all stop]

section Next

variable {cs key rest : List Char}

theorem next_word (unquoted : cs.head? ≠ some '"') (noKey : key? cs = none) :
    next cs = .ok (.word (String.ofList (untilBlank cs).1), (untilBlank cs).2) := by
  rw [next]
  · rw [noKey]
  · exact fun _ same => unquoted (same ▸ rfl)

theorem next_pair (unquoted : cs.head? ≠ some '"') (h : key? cs = some (key, rest))
    (bare : rest.head? ≠ some '"') :
    next cs = .ok (.pair (String.ofList key) (bareValue (untilBlank rest).1), (untilBlank rest).2) := by
  rw [next]
  · rw [h]
    dsimp only
    split
    case h_1 same =>
      cases same
      exact absurd rfl bare
    case h_2 same =>
      cases same
      rfl
    case h_3 none => cases none
  · exact fun _ same => unquoted (same ▸ rfl)

theorem next_pair_quoted (unquoted : cs.head? ≠ some '"') (h : key? cs = some (key, '"' :: rest))
    {text after : List Char} (closes : quoted rest = .ok (text, after)) :
    next cs = .ok (.pair (String.ofList key) (.str (String.ofList text)), after) := by
  rw [next]
  · rw [h]
    show (quoted rest).map _ = _
    rw [closes]
    rfl
  · exact fun _ same => unquoted (same ▸ rfl)

end Next

/-- The notation of a value that is bare on a line. -/
structure Bare (text : List Char) (value : Value) : Prop where
  filled : text ≠ []
  unquoted : text.head? ≠ some '"'
  solid : ∀ c ∈ text, isBlank c = false
  reads : bareValue text = value

theorem bare_bool (b : Bool) : Bare (Value.bool b).print (.bool b) := by
  cases b <;> exact ⟨by decide, by decide, solid_of_all (by decide), by decide⟩

theorem bareValue_of_readInt? {raw : List Char} {i : Int}
    (h : Decimal.readInt? Decimal.minInt64 Decimal.maxInt64 raw = some i) :
    bareValue raw = .int i := by
  have notTrue : raw ≠ "true".toList := by
    rintro rfl
    cases (show none = some i from h)
  have notFalse : raw ≠ "false".toList := by
    rintro rfl
    cases (show none = some i from h)
  rw [bareValue, if_neg notTrue, if_neg notFalse, h]

theorem bare_int {i : Int} (above : Decimal.minInt64 ≤ i) (below : i ≤ Decimal.maxInt64) :
    Bare (Value.int i).print (.int i) := by
  refine ⟨Decimal.printInt_ne_nil i, fun quote => ?_, fun c mem => ?_,
    bareValue_of_readInt? (Decimal.readInt?_printInt above below)⟩
  · rcases Decimal.mem_printInt (List.mem_of_head? quote) with sign | digit
    · cases sign
    · cases digit
  · rcases Decimal.mem_printInt mem with rfl | digit
    · rfl
    · exact isBlank_of_isDigit digit

theorem reads_word {word : String} (h : PlainWord word) : Reads word.toList (.word word) := by
  refine ⟨.of_solid h.filled h.solid, fun rest atSpace => ?_⟩
  have unquoted : (word.toList ++ rest).head? ≠ some '"' := by
    rw [List.head?_append_of_ne_nil _ h.filled]
    exact h.unquoted
  rw [next_word unquoted (key?_word h.unkeyed atSpace), untilBlank_append h.solid atSpace]
  simp

theorem next_inLine {cs key rest : List Char} {value : Value} (unquoted : cs.head? ≠ some '"')
    (h : key? cs = some (key, value.inLine ++ rest)) (writable : value.Writable)
    (atSpace : AtSpace rest) : next cs = .ok (.pair (String.ofList key) value, rest) := by
  have plain (bare : Bare value.print value) (h : key? cs = some (key, value.print ++ rest)) :
      next cs = .ok (.pair (String.ofList key) value, rest) := by
    have open_ : (value.print ++ rest).head? ≠ some '"' := by
      rw [List.head?_append_of_ne_nil _ bare.filled]
      exact bare.unquoted
    rw [next_pair unquoted h open_, untilBlank_append bare.solid atSpace, bare.reads]
  match value, writable with
  | .bool b, _ => exact plain (bare_bool b) h
  | .int i, range => exact plain (bare_int range.1 range.2) h
  | .str s, _ =>
      have whole : (Value.str s).inLine ++ rest =
          '"' :: (s.toList.flatMap Value.backslashed ++ '"' :: rest) := by
        simp [Value.inLine]
      rw [whole] at h
      rw [next_pair_quoted unquoted h (quoted_backslashed s.toList rest), String.ofList_toList]

theorem tight_inLine {value : Value} (h : value.Writable) : Tight value.inLine := by
  match value, h with
  | .bool b, _ => exact .of_solid (bare_bool b).filled (bare_bool b).solid
  | .int i, range =>
      have bare := bare_int range.1 range.2
      exact .of_solid bare.filled bare.solid
  | .str s, _ =>
      have quote : Tight ['"'] := .of_solid (by decide) (solid_of_all (by decide))
      exact quote.around quote _

theorem reads_pair {key : String} {value : Value} (named : isIdentifier key.toList = true)
    (h : value.Writable) : Reads (key.toList ++ '=' :: value.inLine) (.pair key value) := by
  have word := isWord_of_isIdentifier named
  have filled : key.toList ≠ [] := by
    intro none
    rw [none] at named
    cases named
  have tight : Tight key.toList := .of_solid filled fun c mem => isBlank_of_isWord (word c mem)
  refine ⟨tight.around (tight_inLine h) ['='], fun rest atSpace => ?_⟩
  have unquoted : (key.toList ++ '=' :: value.inLine ++ rest).head? ≠ some '"' := by
    rw [List.append_assoc, List.head?_append_of_ne_nil _ filled]
    exact fun quote => absurd (word _ (List.mem_of_head? quote)) (by decide)
  have split : key? (key.toList ++ '=' :: value.inLine ++ rest) =
      some (key.toList, value.inLine ++ rest) := by
    rw [List.append_assoc, List.cons_append, key?_pair named]
  rw [next_inLine unquoted split h atSpace, String.ofList_toList]

/-- The pieces of a line behind its verb, with a space before each. -/
def spaced (pieces : List (List Char)) : List Char := pieces.flatMap (' ' :: ·)

theorem spaced_cons (piece : List Char) (pieces : List (List Char)) :
    spaced (piece :: pieces) = ' ' :: [' '].intercalate (piece :: pieces) := by
  induction pieces generalizing piece with
  | nil => simp [spaced]
  | cons next pieces ih =>
      have step : spaced (piece :: next :: pieces) = ' ' :: (piece ++ spaced (next :: pieces)) := rfl
      rw [step, ih, List.intercalate_cons_cons, List.append_assoc, List.singleton_append]

theorem atSpace_spaced (pieces : List (List Char)) : AtSpace (spaced pieces) := by
  cases pieces with
  | nil => exact .end_
  | cons piece pieces => exact .space _

theorem length_le_spaced (pieces : List (List Char)) : pieces.length ≤ (spaced pieces).length := by
  induction pieces with
  | nil => exact Nat.le_refl _
  | cons piece pieces ih =>
      have step : (spaced (piece :: pieces)).length = piece.length + 1 + (spaced pieces).length := by
        simp only [spaced, List.flatMap_cons, List.length_append, List.length_cons]
      rw [step, List.length_cons]
      omega

theorem listFrom_spaced {pieces : List (List Char)} {tokens : List Token}
    (h : List.Forall₂ Reads pieces tokens) {fuel : Nat} (enough : pieces.length ≤ fuel) :
    listFrom fuel (spaced pieces) = .ok tokens := by
  induction h generalizing fuel with
  | nil => cases fuel <;> rfl
  | @cons piece token pieces tokens first _ ih =>
      obtain ⟨c, cs, rfl, solid⟩ := first.tight.eq_cons
      cases fuel with
      | zero => cases enough
      | succ fuel =>
          have left : trimLeft (spaced ((c :: cs) :: pieces)) = c :: (cs ++ spaced pieces) :=
            trimLeft_of_head solid _
          have token := first.next (spaced pieces) (atSpace_spaced pieces)
          rw [List.cons_append] at token
          rw [listFrom, left]
          dsimp only
          rw [token]
          dsimp only
          rw [ih (Nat.le_of_succ_le_succ enough)]
          rfl

theorem tight_intercalate {first : List Char} (tight : Tight first) {pieces : List (List Char)}
    {tokens : List Token} (h : List.Forall₂ Reads pieces tokens) :
    Tight ([' '].intercalate (first :: pieces)) := by
  induction h generalizing first with
  | nil => simpa using tight
  | @cons piece token pieces tokens reads _ ih =>
      rw [List.intercalate_cons_cons, List.append_assoc]
      exact tight.around (ih reads.tight) [' ']

/-- Pieces with single spaces between them are read as their tokens, one by one. -/
theorem list_intercalate {piece : List Char} {pieces : List (List Char)} {tokens : List Token}
    (h : List.Forall₂ Reads (piece :: pieces) tokens) :
    list ([' '].intercalate (piece :: pieces)) = .ok tokens := by
  have joined : spaced (piece :: pieces) = ' ' :: [' '].intercalate (piece :: pieces) :=
    spaced_cons piece pieces
  have enough : (piece :: pieces).length ≤ ([' '].intercalate (piece :: pieces)).length + 1 := by
    rw [← List.length_cons, ← joined]
    exact length_le_spaced _
  have read := listFrom_spaced h enough
  rwa [joined] at read

/-- The key of a parameter is an identifier. -/
def Named : Token → Prop
  | .word _ => True
  | .pair key _ => isIdentifier key.toList = true

theorem key?_named {cs key rest : List Char} (h : key? cs = some (key, rest)) :
    isIdentifier key = true := by
  simp only [key?] at h
  split at h
  case h_1 =>
    split at h
    case isTrue named =>
      obtain ⟨rfl, -⟩ := Prod.mk.inj (Option.some.inj h)
      exact named
    case isFalse => cases h
  case h_2 => cases h

theorem next_named {cs after : List Char} {token : Token} (h : next cs = .ok (token, after)) :
    token.Named := by
  rw [next.eq_def] at h
  split at h
  case h_1 =>
    obtain ⟨_, -, same⟩ := Except.ok_of_map h
    obtain ⟨rfl, -⟩ := Prod.mk.inj same
    trivial
  case h_2 =>
    split at h
    case h_1 key rest found =>
      obtain ⟨_, -, same⟩ := Except.ok_of_map h
      obtain ⟨rfl, -⟩ := Prod.mk.inj same
      simpa [Named] using key?_named found
    case h_2 key rest _ found =>
      obtain ⟨rfl, -⟩ := Prod.mk.inj (Except.ok.inj h)
      simpa [Named] using key?_named found
    case h_3 =>
      obtain ⟨rfl, -⟩ := Prod.mk.inj (Except.ok.inj h)
      trivial

theorem listFrom_named {fuel : Nat} {cs : List Char} {tokens : List Token}
    (h : listFrom fuel cs = .ok tokens) : ∀ token ∈ tokens, token.Named := by
  induction fuel generalizing cs tokens with
  | zero =>
      obtain rfl := Except.ok.inj h
      exact List.forall_mem_nil _
  | succ fuel ih =>
      simp only [listFrom] at h
      split at h
      case h_1 =>
        obtain rfl := Except.ok.inj h
        exact List.forall_mem_nil _
      case h_2 =>
        split at h
        case h_1 => cases h
        case h_2 token after first =>
          obtain ⟨others, read, rfl⟩ := Except.ok_of_map h
          exact List.forall_mem_cons.mpr ⟨next_named first, ih read⟩

end Token

namespace ActionLine

/-- Whatever the line, the keys of its parameters are identifiers. -/
theorem parse_named {raw : List Char} {line : ActionLine} (h : parse raw = .ok (some line)) :
    ∀ param ∈ line.params, isIdentifier param.1.toList = true := by
  simp only [parse] at h
  split at h
  case h_1 => split at h <;> cases h
  case h_2 =>
    split at h
    case h_1 => cases h
    case h_2 =>
      split at h
      case h_1 => cases h
      case h_2 tokens read =>
        obtain ⟨parts, made, same⟩ := Except.ok_of_map h
        obtain rfl := Option.some.inj same
        have named := Token.listFrom_named read
        rw [ofTokens.eq_def] at made
        split at made
        case h_1 | h_2 => cases made
        case h_3 keyword rest =>
          obtain rfl := Except.ok.inj made
          intro param mem
          obtain ⟨token, among, pair⟩ := List.mem_filterMap.mp mem
          cases token with
          | word text => cases pair
          | pair key value =>
              obtain rfl := Option.some.inj pair
              exact named _ (List.mem_cons_of_mem _ among)

/-- The parts of a line in their order, the parameters before the flags. -/
def pieces (line : ActionLine) : List (List Char) :=
  line.keyword.toList :: ((line.params.map fun (key, value) => key.toList ++ '=' :: value.inLine) ++
    line.flags.map String.toList)

/-- A line from its parts, with single spaces between them. -/
def write (line : ActionLine) : List Char :=
  [' '].intercalate (line.verb.name.toList :: line.pieces)

/-- Words that stand for themselves, and parameters with a notation. -/
structure Plain (line : ActionLine) : Prop where
  keyword : PlainWord line.keyword
  params : ∀ param ∈ line.params, isIdentifier param.1.toList = true ∧ param.2.Writable
  flags : ∀ flag ∈ line.flags, PlainWord flag

def tokens (line : ActionLine) : List Token :=
  .word line.keyword :: ((line.params.map fun (key, value) => .pair key value) ++ line.flags.map .word)

variable {line : ActionLine}

theorem reads_pieces (plain : line.Plain) : List.Forall₂ Token.Reads line.pieces line.tokens := by
  refine .cons (Token.reads_word plain.keyword) (List.rel_append ?_ ?_)
  · rw [List.forall₂_map_left_iff, List.forall₂_map_right_iff, List.forall₂_same]
    exact fun param mem => Token.reads_pair (plain.params param mem).1 (plain.params param mem).2
  · rw [List.forall₂_map_left_iff, List.forall₂_map_right_iff, List.forall₂_same]
    exact fun flag mem => Token.reads_word (plain.flags flag mem)

theorem ofTokens_tokens (line : ActionLine) : ofTokens line.verb line.tokens = .ok line := by
  have params : line.tokens.tail.filterMap Token.pair? = line.params := by
    simp [tokens, List.filterMap_append, List.filterMap_map, Function.comp_def, Token.pair?]
  have flags : line.tokens.tail.filterMap Token.word? = line.flags := by
    simp [tokens, List.filterMap_append, List.filterMap_map, Function.comp_def, Token.word?]
  show Except.ok (ActionLine.mk line.verb line.keyword (line.tokens.tail.filterMap Token.pair?)
    (line.tokens.tail.filterMap Token.word?)) = _
  rw [params, flags]

theorem splitAtBlank_verb (verb : Verb) (rest : List Char) :
    splitAtBlank (verb.name.toList ++ ' ' :: rest) = some (verb.name.toList, rest) := by
  cases verb <;> rfl

theorem ofName?_name (verb : Verb) : Verb.ofName? verb.name.toList = some verb := by
  cases verb <;> rfl

theorem tight_verb (verb : Verb) : Tight verb.name.toList := by
  cases verb <;> exact .of_solid (by decide) (solid_of_all (by decide))

/-- Reading what is written gives back the line, whatever characters its quoted texts have. -/
theorem parse_write (line : ActionLine) (plain : line.Plain) : parse line.write = .ok (some line) := by
  have reads := reads_pieces plain
  have whole : line.write = line.verb.name.toList ++ ' ' :: [' '].intercalate line.pieces := by
    rw [write, pieces, List.intercalate_cons_cons, List.append_assoc]
    rfl
  have tight : Tight line.write := Token.tight_intercalate (tight_verb line.verb) reads
  rw [parse, tight.trim, whole, splitAtBlank_verb]
  dsimp only
  rw [ofName?_name]
  dsimp only
  rw [pieces, Token.list_intercalate reads]
  dsimp only
  rw [ofTokens_tokens]
  rfl

theorem parse_write_quoted :
    let line : ActionLine :=
      ⟨.do_, "fill", [("value", .str "a=\"$x\" # \\n"), ("times", .int (-9223372036854775808)),
        ("now", .bool true)], ["#soon"]⟩
    line.Plain ∧ parse line.write = .ok (some line) := by
  intro line
  have plain : line.Plain := by
    refine ⟨⟨by decide, by decide, solid_of_all (by decide), by decide⟩, ?_, ?_⟩
    · rintro param (_ | ⟨_, _ | ⟨_, _ | ⟨_, _ | _⟩⟩⟩)
      · exact ⟨by decide, trivial⟩
      · exact ⟨by decide, by decide, by decide⟩
      · exact ⟨by decide, trivial⟩
    · rintro flag (_ | ⟨_, _ | _⟩)
      exact ⟨by decide, by decide, solid_of_all (by decide), by decide⟩
  exact ⟨plain, parse_write line plain⟩

example : String.ofList (write ⟨.do_, "fill", [("value", .str "say \"hi\"")], ["soon"]⟩) =
    "do fill value=\"say \\\"hi\\\"\" soon" := by decide

end ActionLine
end Journey
