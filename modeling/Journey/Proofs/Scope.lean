import Journey.Proofs.Except
import Journey.Proofs.Placeholder
import Journey.Scope

/-!
Resolution in a scope. A value resolves exactly if all of its placeholders are known, the first one that
is not is the error, and scopes that agree on the placeholders resolve it to the same. How a look-up
by path walks into objects is not opened here.
-/

namespace Journey.Scope

open Placeholder

variable {α β : Type}

def Knows (s : Scope) (name : String) : Prop := (s.lookup name).isSome = true

/-- The outcome is a success if all names are known, and else the error of the first that is not. -/
def Answers (s : Scope) (names : List String) : Except ExpressionError α → Prop
  | .ok _ => ∀ name ∈ names, s.Knows name
  | .error e => ∃ before name after, names = before ++ name :: after ∧
      (∀ known ∈ before, s.Knows known) ∧ ¬ s.Knows name ∧ e = .unknownVariable name

namespace Answers

variable {s : Scope} {names more : List String} {r : Except ExpressionError α}

theorem nil (a : α) : s.Answers [] (.ok a) := List.forall_mem_nil _

theorem map (h : s.Answers names r) (f : α → β) : s.Answers names (r.map f) := by
  cases r <;> exact h

/-- One resolution after another fails where the first of them fails. -/
theorem seq (h : s.Answers names r) {whole : Except ExpressionError β}
    (fails : ∀ e, r = .error e → whole = .error e)
    (goesOn : ∀ a, r = .ok a → s.Answers more whole) : s.Answers (names ++ more) whole := by
  cases r with
  | error e =>
      rw [fails e rfl]
      obtain ⟨before, name, after, rfl, known, unknown, same⟩ := h
      exact ⟨before, name, after ++ more, by simp, known, unknown, same⟩
  | ok a =>
      have later := goesOn a rfl
      cases whole with
      | ok b => exact List.forall_mem_append.mpr ⟨h, later⟩
      | error e =>
          obtain ⟨before, name, after, rfl, known, unknown, same⟩ := later
          exact ⟨names ++ before, name, after, by simp, List.forall_mem_append.mpr ⟨h, known⟩,
            unknown, same⟩

theorem ok_iff (h : s.Answers names r) :
    (∃ a, r = .ok a) ↔ ∀ name ∈ names, s.Knows name := by
  cases r with
  | ok a => exact ⟨fun _ => h, fun _ => ⟨a, rfl⟩⟩
  | error e =>
      obtain ⟨before, name, after, whole, -, unknown, -⟩ := h
      refine ⟨nofun, fun known => absurd (known name ?_) unknown⟩
      simp [whole]

theorem error_of_first (h : s.Answers names r) {name : String}
    (first : (names.find? fun name => (s.lookup name).isNone) = some name) :
    r = .error (.unknownVariable name) := by
  cases r with
  | ok a =>
      have unknown := List.find?_some first
      have known := h name (List.mem_of_find?_eq_some first)
      simp_all [Knows]
  | error e =>
      obtain ⟨before, lost, after, rfl, known, unknown, rfl⟩ := h
      have passed : (before.find? fun name => (s.lookup name).isNone) = none := by
        refine List.find?_eq_none.mpr fun name mem => ?_
        simpa [Knows, Option.isSome_iff_ne_none] using known name mem
      have stop : (s.lookup lost).isNone = true := by simpa [Knows] using unknown
      rw [List.find?_append, passed, Option.none_or, List.find?_cons, stop] at first
      rw [Option.some.inj first]

end Answers

variable (s : Scope)

theorem value_answers (name : String) : s.Answers [name] (s.value name) := by
  simp only [value]
  cases held : s.lookup name with
  | some v => exact List.forall_mem_singleton.mpr (by simp [Knows, held])
  | none => exact ⟨[], name, [], rfl, List.forall_mem_nil _, by simp [Knows, held], rfl⟩

theorem fill_answers (ps : List Piece) : s.Answers (ps.filterMap Piece.hole?) (s.fill ps) := by
  induction ps with
  | nil => exact .nil _
  | cons p rest ih =>
      cases p with
      | char c => exact ih.map _
      | hole name =>
          refine (s.value_answers name).seq (fun e lost => by rw [fill, lost]) fun v found => ?_
          rw [fill, found]
          exact ih.map _

theorem interpolate_answers (text : String) : s.Answers (names text) (s.interpolate text) :=
  (s.fill_answers _).map String.ofList

theorem resolveText_answers (text : String) : s.Answers (names text) (s.resolveText text) := by
  rw [resolveText]
  cases sole : sole? text with
  | some name =>
      rw [names_of_sole? sole]
      exact s.value_answers name
  | none => exact (s.interpolate_answers text).map Value.str

mutual

theorem resolve_answers : (v : Value) → s.Answers (valueNames v) (s.resolve v)
  | .str text => by
      rw [valueNames, resolve]
      exact s.resolveText_answers text
  | .arr items => by
      rw [valueNames, resolve]
      exact (resolveItems_answers items).map _
  | .obj fields => by
      rw [valueNames, resolve]
      exact (resolveFields_answers fields).map _
  | .null | .bool _ | .int _ | .float _ => by
      rw [valueNames, resolve]
      exact .nil _

theorem resolveItems_answers : (vs : List Value) → s.Answers (itemNames vs) (s.resolveItems vs)
  | [] => by
      rw [itemNames, resolveItems]
      exact .nil _
  | v :: vs => by
      rw [itemNames]
      refine (resolve_answers v).seq (fun e lost => by rw [resolveItems, lost]) fun _ found => ?_
      rw [resolveItems, found]
      exact (resolveItems_answers vs).map _

theorem resolveFields_answers :
    (fields : List (String × Value)) → s.Answers (fieldNames fields) (s.resolveFields fields)
  | [] => by
      rw [fieldNames, resolveFields]
      exact .nil _
  | (_, v) :: rest => by
      rw [fieldNames]
      refine (resolve_answers v).seq (fun e lost => by rw [resolveFields, lost]) fun _ found => ?_
      rw [resolveFields, found]
      exact (resolveFields_answers rest).map _

end

theorem resolve_ok_iff (v : Value) :
    (∃ resolved, s.resolve v = .ok resolved) ↔ ∀ name ∈ valueNames v, s.Knows name :=
  (s.resolve_answers v).ok_iff

/-- A resolved parameter is the resolution of the one of the same name. -/
theorem find?_resolveFields {s : Scope} {params resolved : List (String × Value)}
    (h : s.resolveFields params = .ok resolved) {name : String} {v : Value}
    (given : Dict.find? params name = some v) :
    ∃ w, s.resolve v = .ok w ∧ Dict.find? resolved name = some w := by
  induction params generalizing resolved with
  | nil => cases given
  | cons entry rest ih =>
      obtain ⟨k, u⟩ := entry
      simp only [resolveFields] at h
      split at h
      case h_1 => cases h
      case h_2 w here =>
        obtain ⟨others, more, rfl⟩ := Except.ok_of_map h
        by_cases same : k = name
        · rw [Dict.find?, if_pos same] at given
          obtain rfl := Option.some.inj given
          exact ⟨w, here, by rw [Dict.find?, if_pos same]⟩
        · rw [Dict.find?, if_neg same] at given
          rw [Dict.find?, if_neg same]
          exact ih more given

section Agreement

variable {s} {s' : Scope}

theorem fill_congr {ps : List Piece}
    (agree : ∀ name ∈ ps.filterMap Piece.hole?, s.lookup name = s'.lookup name) :
    s.fill ps = s'.fill ps := by
  induction ps with
  | nil => rfl
  | cons p rest ih =>
      cases p with
      | char c => rw [fill, fill, ih agree]
      | hole name =>
          obtain ⟨first, others⟩ := List.forall_mem_cons.mp agree
          rw [fill, fill, value, value, first, ih others]

theorem interpolate_congr {text : String}
    (agree : ∀ name ∈ names text, s.lookup name = s'.lookup name) :
    s.interpolate text = s'.interpolate text := by
  rw [interpolate, interpolate, fill_congr agree]

theorem resolveText_congr {text : String}
    (agree : ∀ name ∈ names text, s.lookup name = s'.lookup name) :
    s.resolveText text = s'.resolveText text := by
  rw [resolveText, resolveText]
  cases sole : sole? text with
  | some name =>
      have only : s.lookup name = s'.lookup name := agree name (by simp [names_of_sole? sole])
      simp only [value, only]
  | none => rw [interpolate_congr agree]

mutual

theorem resolve_congr : (v : Value) →
    (∀ name ∈ valueNames v, s.lookup name = s'.lookup name) → s.resolve v = s'.resolve v
  | .str text => fun agree => by
      rw [valueNames] at agree
      rw [resolve, resolve, resolveText_congr agree]
  | .arr items => fun agree => by
      rw [valueNames] at agree
      rw [resolve, resolve, resolveItems_congr items agree]
  | .obj fields => fun agree => by
      rw [valueNames] at agree
      rw [resolve, resolve, resolveFields_congr fields agree]
  | .null | .bool _ | .int _ | .float _ => fun _ => by rw [resolve, resolve]

theorem resolveItems_congr : (vs : List Value) →
    (∀ name ∈ itemNames vs, s.lookup name = s'.lookup name) →
      s.resolveItems vs = s'.resolveItems vs
  | [] => fun _ => by rw [resolveItems, resolveItems]
  | v :: vs => fun agree => by
      rw [itemNames, List.forall_mem_append] at agree
      rw [resolveItems, resolveItems, resolve_congr v agree.1, resolveItems_congr vs agree.2]

theorem resolveFields_congr : (fields : List (String × Value)) →
    (∀ name ∈ fieldNames fields, s.lookup name = s'.lookup name) →
      s.resolveFields fields = s'.resolveFields fields
  | [] => fun _ => by rw [resolveFields, resolveFields]
  | (_, v) :: rest => fun agree => by
      rw [fieldNames, List.forall_mem_append] at agree
      rw [resolveFields, resolveFields, resolve_congr v agree.1, resolveFields_congr rest agree.2]

end

end Agreement

end Journey.Scope
