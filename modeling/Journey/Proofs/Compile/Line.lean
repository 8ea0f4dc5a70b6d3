import Journey.Compile
import Journey.Proofs.Text

/-!
The kinds of line by how they begin. Action lines begin with a verb and variable lines with `var`, so
that no line is both, and neither is a comment, a line with a colon keyword, or an end. No line with a
colon keyword and no end is any of the others. The line that the lint reads and the one that the
compiler reads differ by blanks only.
-/

namespace Journey

open Text

theorem Verb.name_of_ofName? {name : List Char} {verb : Verb} (h : Verb.ofName? name = some verb) :
    name = verb.name.toList := by
  simp only [Verb.ofName?] at h
  split at h
  case isTrue same =>
    obtain rfl := Option.some.inj h
    exact same
  case isFalse =>
    split at h
    case isTrue same =>
      obtain rfl := Option.some.inj h
      exact same
    case isFalse =>
      split at h
      case isTrue same =>
        obtain rfl := Option.some.inj h
        exact same
      case isFalse => cases h

def ActionLine.Led (raw : List Char) : Prop :=
  ∃ (verb : Verb) (rest : List Char), trim raw = verb.name.toList ++ rest

def Variable.Led (raw : List Char) : Prop := ∃ rest, trim raw = "var".toList ++ rest

/-- The line is neither blank nor a comment, does not end the workflow, and has no keyword with a
colon. -/
structure InnerLine (raw : List Char) : Prop where
  shown : Progress.isIgnored (trim raw) = false
  goesOn : trim raw ≠ "end workflow".toList
  plain : MetaKey.parse (trim raw) = none

namespace ActionLine

theorem parse_trim (raw : List Char) : parse (trim raw) = parse raw := by
  simp only [parse, trim_idem]

theorem led_of_parse {raw : List Char} (h : parse raw ≠ .ok none) : Led raw := by
  simp only [parse] at h
  cases parted : splitAtBlank (trim raw) with
  | none =>
      cases named : Verb.ofName? (trim raw) with
      | none => simp [parted, named] at h
      | some verb => exact ⟨verb, [], by rw [List.append_nil, Verb.name_of_ofName? named]⟩
  | some parts =>
      obtain ⟨first, rest⟩ := parts
      obtain ⟨c, _, whole⟩ := eq_append_of_splitAtBlank parted
      cases named : Verb.ofName? first with
      | none => simp [parted, named] at h
      | some verb => exact ⟨verb, c :: rest, by rw [whole, Verb.name_of_ofName? named]⟩

theorem Led.inner {raw : List Char} (h : Led raw) : InnerLine raw := by
  obtain ⟨verb, rest, lead⟩ := h
  refine ⟨?_, ?_, ?_⟩
  · rw [lead]
    cases verb <;> simp [Verb.name, Progress.isIgnored]
  · rw [lead]
    cases verb <;> simp [Verb.name]
  · rw [lead]
    cases verb <;> simp [Verb.name, MetaKey.parse, MetaKey.all, after?]

end ActionLine

namespace Variable

theorem parseLine_trim (raw : List Char) : parseLine (trim raw) = parseLine raw := by
  simp only [parseLine, trim_idem]

theorem led_of_parseLine {raw : List Char} (h : parseLine raw ≠ none) : Led raw := by
  simp only [parseLine] at h
  cases found : after? "var".toList (trim raw) with
  | none =>
      rw [found] at h
      exact absurd rfl h
  | some rest => exact ⟨rest, eq_append_of_after? found⟩

/-- No line begins with a verb and with `var`. -/
theorem Led.not_led {raw : List Char} (h : Led raw) : ¬ ActionLine.Led raw := by
  rintro ⟨verb, rest, lead⟩
  obtain ⟨rest', lead'⟩ := h
  rw [lead'] at lead
  cases verb <;> simp [Verb.name] at lead

theorem Led.not_action {raw : List Char} (h : Led raw) : ActionLine.parse raw = .ok none := by
  by_cases plain : ActionLine.parse raw = .ok none
  · exact plain
  · exact absurd (ActionLine.led_of_parse plain) h.not_led

theorem parseLine_of_led {raw : List Char} (h : ActionLine.Led raw) : parseLine raw = none := by
  by_cases plain : parseLine raw = none
  · exact plain
  · exact absurd h (led_of_parseLine plain).not_led

theorem Led.inner {raw : List Char} (h : Led raw) : InnerLine raw := by
  obtain ⟨rest, lead⟩ := h
  refine ⟨?_, ?_, ?_⟩
  · rw [lead]
    simp [Progress.isIgnored]
  · rw [lead]
    simp
  · rw [lead]
    simp [MetaKey.parse, MetaKey.all, after?]

theorem Led.not_close {raw : List Char} (h : Led raw) : after? "end ".toList (trim raw) = none := by
  obtain ⟨rest, lead⟩ := h
  rw [lead]
  simp [after?]

theorem Led.not_block {raw : List Char} (h : Led raw) (name : BlockName) :
    trim raw ≠ (name.text ++ ":").toList := by
  obtain ⟨rest, lead⟩ := h
  rw [lead]
  cases name <;> simp [BlockName.text]

end Variable

/-- The line is neither an action nor an end. -/
structure StatementLine (raw : List Char) : Prop where
  goesOn : trim raw ≠ "end workflow".toList
  noAction : ActionLine.parse raw = .ok none
  noEnd : after? "end ".toList (trim raw) = none

theorem Variable.Led.statement {raw : List Char} (h : Variable.Led raw) : StatementLine raw :=
  ⟨h.inner.goesOn, h.not_action, h.not_close⟩

namespace MetaKey

def word : MetaKey → String
  | .workflow => "workflow:"
  | .tags => "tags:"
  | .locators => "locators:"
  | .success => "success:"
  | .onPhaseFailure => "on_phase_failure:"
  | .phase => "phase:"

theorem lead_of_parse {line value : List Char} {key : MetaKey} (h : parse line = some (key, value)) :
    ∃ rest, line = key.word.toList ++ rest ∧ trim rest = value := by
  obtain ⟨⟨word, key'⟩, mem, found⟩ := List.exists_of_findSome?_eq_some h
  obtain ⟨rest, read, same⟩ := Option.map_eq_some_iff.mp found
  obtain ⟨rfl, trimmed⟩ := Prod.mk.inj same
  have named : word = key'.word := by
    cases key' <;> simpa [all, MetaKey.word] using mem
  exact ⟨rest, named ▸ eq_append_of_after? read, trimmed⟩

/-- No keyword is the beginning of another. -/
theorem parse_append (key : MetaKey) (rest : List Char) :
    parse (key.word.toList ++ rest) = some (key, trim rest) := by
  cases key <;> simp [word, parse, all, after?]

variable {raw value : List Char} {key : MetaKey}

theorem not_variable (h : parse (trim raw) = some (key, value)) : Variable.parseLine raw = none := by
  by_cases plain : Variable.parseLine raw = none
  · exact plain
  · rw [(Variable.led_of_parseLine plain).inner.plain] at h
    cases h

theorem statement_of_parse (h : parse (trim raw) = some (key, value)) : StatementLine raw := by
  obtain ⟨rest, lead, -⟩ := lead_of_parse h
  refine ⟨?_, ?_, ?_⟩
  · rw [lead]
    cases key <;> simp [word]
  · by_cases plain : ActionLine.parse raw = .ok none
    · exact plain
    · rw [(ActionLine.led_of_parse plain).inner.plain] at h
      cases h
  · rw [lead]
    cases key <;> simp [word, after?]

/-- No line opens a block and has a keyword with a colon. -/
theorem not_block (h : parse (trim raw) = some (key, value)) (name : BlockName) :
    trim raw ≠ (name.text ++ ":").toList := by
  intro block
  rw [block] at h
  revert h
  cases name <;> simp [BlockName.text, parse, all, after?]

end MetaKey

theorem BlockName.statement {raw : List Char} {name : BlockName}
    (h : trim raw = (name.text ++ ":").toList) : StatementLine raw := by
  refine ⟨?_, ?_, ?_⟩
  · rw [h]
    cases name <;> simp [BlockName.text]
  · by_cases plain : ActionLine.parse raw = .ok none
    · exact plain
    · obtain ⟨verb, rest, lead⟩ := ActionLine.led_of_parse plain
      rw [h] at lead
      revert lead
      cases name <;> cases verb <;> simp [BlockName.text, Verb.name]
  · rw [h]
    cases name <;> simp [BlockName.text, after?]

/-- The line ends what the word says, with any blanks around the word. -/
def Ends (word : String) (raw : List Char) : Prop :=
  ∃ rest, trim raw = "end ".toList ++ rest ∧ trim rest = word.toList

namespace Ends

variable {word : String} {raw : List Char}

theorem shown (h : Ends word raw) : Progress.isIgnored (trim raw) = false := by
  obtain ⟨rest, lead, -⟩ := h
  rw [lead]
  simp [Progress.isIgnored]

theorem goesOn (h : Ends word raw) (other : word ≠ "workflow") :
    trim raw ≠ "end workflow".toList := by
  intro whole
  obtain ⟨rest, lead, named⟩ := h
  rw [lead, show "end workflow".toList = "end ".toList ++ "workflow".toList by simp] at whole
  rw [List.append_cancel_left whole] at named
  exact other (String.toList_inj.mp (named.symm.trans (by decide)))

theorem noAction (h : Ends word raw) : ActionLine.parse raw = .ok none := by
  by_cases plain : ActionLine.parse raw = .ok none
  · exact plain
  · obtain ⟨verb, rest, lead⟩ := ActionLine.led_of_parse plain
    obtain ⟨rest', lead', -⟩ := h
    rw [lead'] at lead
    cases verb <;> simp [Verb.name] at lead

theorem after (h : Ends word raw) :
    ∃ rest, after? "end ".toList (trim raw) = some rest ∧ String.ofList (trim rest) = word := by
  obtain ⟨rest, lead, named⟩ := h
  refine ⟨rest, ?_, ?_⟩
  · rw [lead, after?_append]
  · rw [named, String.ofList_toList]

theorem of_after {rest : List Char} (h : after? "end ".toList (trim raw) = some rest)
    (named : String.ofList (trim rest) = word) : Ends word raw :=
  ⟨rest, eq_append_of_after? h, by rw [← named, String.toList_ofList]⟩

end Ends
end Journey
