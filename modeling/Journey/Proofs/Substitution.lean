import Journey.Proofs.Scope

/-!
Substitution in one scan. A text whose names are all known becomes its characters and, in place of each
placeholder, what that stands for; what is put in is not read again. A text with one placeholder gives what
stands around it and the value, or the value itself if there are only blanks around it.
-/

namespace Journey

open Text Placeholder

/-- The placeholder with a name between double braces. -/
def Placeholder.braced (name : String) : String := "\x7b\x7b" ++ name ++ "\x7d\x7d"

theorem Placeholder.DottedName.of_isIdentifier {cs : List Char} (h : isIdentifier cs = true) :
    DottedName cs := by
  have whole := DottedName.mk h .none
  rwa [List.append_nil] at whole

theorem Placeholder.spells_braced {name : String} (h : DottedName name.toList) (rest : List Char) :
    Spells name.toList (braced name).toList rest := by
  refine .braces ⟨h, [], [], List.forall_mem_nil _, List.forall_mem_nil _, ?_⟩
  simp [braced]

/-- What becomes of a text with one placeholder in it: the value, with the text around it unless that is
blank. -/
def Placeholder.framed (before after value : String) : String :=
  if (before ++ after).toList.all isBlank then value else before ++ value ++ after

namespace Scope

variable (s : Scope)

/-- What a piece of a text becomes: a character itself, a placeholder the value that it stands for. -/
def shown : Piece → List Char
  | .char c => [c]
  | .hole name => ((s.lookup name).elim "" Value.render).toList

variable {s}

theorem value_of_lookup {name : String} {v : Value} (h : s.lookup name = some v) : s.value name = .ok v := by
  rw [value, h]

theorem fill_known {ps : List Piece} (known : ∀ name ∈ ps.filterMap Piece.hole?, s.Knows name) :
    s.fill ps = .ok (ps.flatMap s.shown) := by
  induction ps with
  | nil => rfl
  | cons p rest ih =>
      cases p with
      | char c =>
          rw [fill, ih known]
          rfl
      | hole name =>
          obtain ⟨here, others⟩ := List.forall_mem_cons.mp known
          obtain ⟨v, held⟩ := Option.isSome_iff_exists.mp here
          have shows : s.shown (.hole name) = v.render.toList := by
            rw [shown, held]
            rfl
          rw [fill, value_of_lookup held, ih others, List.flatMap_cons, shows]
          rfl

theorem interpolate_known {text : String} (known : ∀ name ∈ names text, s.Knows name) :
    s.interpolate text = .ok (String.ofList ((pieces text.toList).flatMap s.shown)) := by
  rw [interpolate, fill_known known]
  rfl

/-- There is one way to scan the text from the left, and if all names that this meets are known, the text
becomes what its pieces do. Nothing is scanned but the text. -/
def ScansOnce (s : Scope) (text : String) : Prop :=
  ∃ ps, (∀ qs, Leftmost text.toList qs ↔ qs = ps) ∧
    ((∀ name ∈ ps.filterMap Piece.hole?, s.Knows name) →
      s.interpolate text = .ok (String.ofList (ps.flatMap s.shown)))

theorem scansOnce (s : Scope) (text : String) : s.ScansOnce text :=
  ⟨pieces text.toList, fun _ => leftmost_iff, fun known => interpolate_known known⟩

theorem flatMap_shown_chars (cs : List Char) : (cs.map Piece.char).flatMap s.shown = cs := by
  induction cs with
  | nil => rfl
  | cons c cs ih => exact congrArg (c :: ·) ih

/-- A text with one placeholder in it resolves to what it stands for, with the text around it. -/
theorem resolveText_around {name spelling : List Char} {before after value : String}
    (free : names before = []) (free' : names after = []) (here : Spells name spelling after.toList)
    (held : s.lookup (String.ofList name) = some (.str value)) :
    s.resolveText (before ++ String.ofList spelling ++ after) = .ok (.str (framed before after value)) := by
  rw [resolveText, sole?_around free free' here, framed]
  by_cases blank : (before ++ after).toList.all isBlank = true
  · rw [if_pos blank, if_pos blank]
    exact value_of_lookup held
  · have text : (before ++ String.ofList spelling ++ after).toList =
        before.toList ++ (spelling ++ after.toList) := by simp
    have scan : pieces (before ++ String.ofList spelling ++ after).toList =
        before.toList.map .char ++ .hole (String.ofList name) :: after.toList.map .char := by
      rw [text, here.pieces_around, pieces_of_names free, pieces_of_names free']
    have known : ∀ other ∈ names (before ++ String.ofList spelling ++ after), s.Knows other := by
      rw [names, scan]
      simp [Piece.hole?, Knows, held]
    have shows : s.shown (.hole (String.ofList name)) = value.toList := by
      rw [shown, held]
      rfl
    rw [if_neg blank, if_neg blank, interpolate_known known, scan, List.flatMap_append,
      List.flatMap_cons, flatMap_shown_chars, flatMap_shown_chars, shows]
    have joined : String.ofList (before.toList ++ (value.toList ++ after.toList)) =
        before ++ value ++ after := by
      rw [← String.toList_inj]
      simp
    rw [joined]
    rfl

theorem resolve_braced {name before after value : String} (named : isIdentifier name.toList = true)
    (free : names before = []) (free' : names after = []) (held : s.lookup name = some (.str value)) :
    s.resolve (.str (before ++ braced name ++ after)) = .ok (.str (framed before after value)) := by
  rw [← String.ofList_toList (s := name)] at held
  have becomes := resolveText_around free free' (spells_braced (.of_isIdentifier named) after.toList)
    held
  rwa [String.ofList_toList] at becomes

/-- A parameter of the enclosing step is found first, whatever else there is of its name. -/
theorem lookup_param {params : Params} {name : String} {v : Value} (h : Dict.find? params name = some v)
    (context : Context) (template : Template) :
    (Scope.mk (some params) context template).lookup name = some v := by
  rw [lookup]
  simp [Path.lookup, h]

end Scope
end Journey
