import Journey.Dict

/-!
Laws of dictionaries: what an insertion leaves to be found, and that it keeps the entries there are and
their order. A dictionary of entries with different keys is these entries by ascending key.
-/

namespace Journey.Dict

variable {α : Type}

theorem contains_insert (key name : String) (x : α) (entries : List (String × α)) :
    contains (insert key x entries) name = (decide (name = key) || contains entries name) := by
  by_cases same : name = key
  · simp [contains, same, find?_insert_self]
  · simp [contains, same, find?_insert_of_ne]

/-- A new key takes its place among the entries, and all of them stay. -/
theorem insert_perm {key : String} {entries : List (String × α)} (x : α)
    (fresh : contains entries key = false) : (insert key x entries).Perm ((key, x) :: entries) := by
  induction entries with
  | nil => exact .refl _
  | cons entry rest ih =>
      obtain ⟨k, y⟩ := entry
      have other : k ≠ key := by
        rintro rfl
        simp [contains, find?] at fresh
      have later : contains rest key = false := by
        simpa [contains, find?, other] using fresh
      rw [insert, if_neg other]
      split
      case isTrue => exact .refl _
      case isFalse => exact ((ih later).cons _).trans (.swap _ _ _)

theorem insertAll_cons (entries : List (String × α)) (new : String × α)
    (rest : List (String × α)) :
    insertAll entries (new :: rest) = insertAll (insert new.1 new.2 entries) rest := rfl

theorem insertAll_append (entries first second : List (String × α)) :
    insertAll entries (first ++ second) = insertAll (insertAll entries first) second :=
  List.foldl_append

theorem contains_insertAll (entries new : List (String × α)) (name : String) :
    contains (insertAll entries new) name = true ↔
      contains entries name = true ∨ name ∈ new.map Prod.fst := by
  induction new generalizing entries with
  | nil => simp [insertAll]
  | cons entry rest ih =>
      rw [insertAll_cons, ih, contains_insert]
      simp [or_assoc, or_left_comm]

theorem contains_ofList {new : List (String × α)} {key : String} :
    contains (ofList new) key = true ↔ key ∈ new.map Prod.fst := by
  rw [ofList, contains_insertAll]
  simp [contains, find?]

/-- The last of the new entries is found, or else what was there before. -/
theorem find?_insertAll (entries new : List (String × α)) (name : String) :
    find? (insertAll entries new) name = (find? (ofList new) name).or (find? entries name) := by
  induction new generalizing entries with
  | nil => rfl
  | cons entry rest ih =>
      obtain ⟨key, x⟩ := entry
      rw [insertAll_cons, ih, show ofList ((key, x) :: rest) = insertAll (insert key x []) rest from rfl,
        ih (insert key x []), Option.or_assoc]
      congr 1
      by_cases same : name = key
      · rw [same, find?_insert_self, find?_insert_self, Option.some_or]
      · rw [find?_insert_of_ne same, find?_insert_of_ne same]
        rfl

theorem mem_insertAll {entries new : List (String × α)} {entry : String × α}
    (h : entry ∈ insertAll entries new) : entry ∈ entries ∨ entry ∈ new := by
  induction new generalizing entries with
  | nil => exact .inl h
  | cons first rest ih =>
      rcases ih h with among | later
      · rcases mem_insert among with rfl | old
        · exact .inr List.mem_cons_self
        · exact .inl old
      · exact .inr (List.mem_cons_of_mem _ later)

theorem contains_of_mem_keys {entries : List (String × α)} {key : String} (h : key ∈ keys entries) :
    contains entries key = true := by
  induction entries with
  | nil => cases h
  | cons entry rest ih =>
      obtain ⟨k, x⟩ := entry
      simp only [contains, find?]
      split
      · rfl
      · rename_i other
        exact ih ((List.mem_cons.mp h).resolve_left (Ne.symm other))

theorem mem_of_find? {entries : List (String × α)} {key : String} {x : α}
    (h : find? entries key = some x) : (key, x) ∈ entries := by
  induction entries with
  | nil => cases h
  | cons entry rest ih =>
      obtain ⟨k, y⟩ := entry
      rw [find?] at h
      split at h
      · rename_i same
        rw [same, Option.some.inj h]
        exact List.mem_cons_self
      · exact List.mem_cons_of_mem _ (ih h)

theorem find?_of_mem {entries : List (String × α)} (distinct : (entries.map Prod.fst).Nodup)
    {entry : String × α} (h : entry ∈ entries) : find? entries entry.1 = some entry.2 := by
  induction entries with
  | nil => cases h
  | cons first rest ih =>
      obtain ⟨k, y⟩ := first
      rw [List.map_cons, List.nodup_cons] at distinct
      rw [find?]
      rcases List.mem_cons.mp h with rfl | later
      · rw [if_pos rfl]
      · have listed : entry.1 ∈ rest.map Prod.fst := List.mem_map_of_mem later
        have other : k ≠ entry.1 := fun same => distinct.1 (same ▸ listed)
        rw [if_neg other, ih distinct.2 later]

/-- The second dictionary is the first with so many values written to it, one after another. -/
def Writes (count : Nat) (before after : List (String × α)) : Prop :=
  ∃ new, new.length = count ∧ after = insertAll before new

namespace Writes

variable {m n : Nat} {a b c : List (String × α)}

theorem refl (a : List (String × α)) : Writes 0 a a := ⟨[], rfl, rfl⟩

theorem insert (key : String) (x : α) (a : List (String × α)) : Writes 1 a (insert key x a) :=
  ⟨[(key, x)], rfl, rfl⟩

theorem eq_of_zero (h : Writes 0 a b) : b = a := by
  obtain ⟨new, none, rfl⟩ := h
  rw [List.length_eq_zero_iff.mp none]
  rfl

theorem trans (h : Writes m a b) (h' : Writes n b c) : Writes (m + n) a c := by
  obtain ⟨new, first, rfl⟩ := h
  obtain ⟨more, second, rfl⟩ := h'
  exact ⟨new ++ more, by rw [List.length_append, first, second], (insertAll_append ..).symm⟩

end Writes

/-- The entries ascend by their keys. -/
def Sorted (entries : List (String × α)) : Prop := entries.Pairwise fun a b => a.1 < b.1

theorem sorted_insert {entries : List (String × α)} (h : Sorted entries) (key : String) (x : α) :
    Sorted (insert key x entries) := by
  induction entries with
  | nil => exact List.pairwise_singleton _ _
  | cons entry rest ih =>
      obtain ⟨k, y⟩ := entry
      obtain ⟨first, later⟩ := List.pairwise_cons.mp h
      rw [insert]
      split
      case isTrue same =>
        subst same
        exact .cons first later
      case isFalse other =>
        split
        case isTrue less =>
          refine .cons (List.forall_mem_cons.mpr ⟨less, fun entry mem => ?_⟩) h
          exact String.lt_trans less (first entry mem)
        case isFalse notLess =>
          have greater : k < key := Std.lt_of_le_of_ne (String.not_lt.mp notLess) other
          refine .cons (fun entry mem => ?_) (ih later)
          rcases mem_insert mem with rfl | old
          · exact greater
          · exact first entry old

theorem sorted_insertAll {entries : List (String × α)} (h : Sorted entries)
    (new : List (String × α)) : Sorted (insertAll entries new) := by
  induction new generalizing entries with
  | nil => exact h
  | cons entry rest ih => exact ih (sorted_insert h entry.1 entry.2)

theorem sorted_ofList (new : List (String × α)) : Sorted (ofList new) :=
  sorted_insertAll .nil new

theorem Sorted.nodup_keys {entries : List (String × α)} (h : Sorted entries) :
    (entries.map Prod.fst).Nodup := by
  refine List.pairwise_map.mpr (h.imp fun less same => ?_)
  rw [same] at less
  exact String.lt_irrefl _ less

theorem insertAll_perm {entries new : List (String × α)} (distinct : (new.map Prod.fst).Nodup)
    (fresh : ∀ key ∈ new.map Prod.fst, contains entries key = false) :
    (insertAll entries new).Perm (entries ++ new) := by
  induction new generalizing entries with
  | nil =>
      rw [List.append_nil]
      exact .refl _
  | cons entry rest ih =>
      obtain ⟨key, x⟩ := entry
      rw [List.map_cons, List.nodup_cons] at distinct
      rw [List.map_cons, List.forall_mem_cons] at fresh
      have later : ∀ other ∈ rest.map Prod.fst, contains (insert key x entries) other = false := by
        intro other mem
        have apart : other ≠ key := fun same => distinct.1 (same ▸ mem)
        simp [contains_insert, apart, fresh.2 other mem]
      exact ((ih distinct.2 later).trans ((insert_perm x fresh.1).append_right rest)).trans
        List.perm_middle.symm

theorem ofList_perm {new : List (String × α)} (distinct : (new.map Prod.fst).Nodup) :
    (ofList new).Perm new :=
  insertAll_perm distinct fun _ _ => rfl

/-- What stands in front of an entry are the entries with smaller keys. -/
theorem Sorted.mem_before {before after : List (String × α)} {key name : String} {x : α}
    (h : Sorted (before ++ (key, x) :: after)) :
    name ∈ before.map Prod.fst ↔
      name ∈ (before ++ (key, x) :: after).map Prod.fst ∧ name < key := by
  obtain ⟨-, rest, front⟩ := List.pairwise_append.mp h
  constructor
  · intro mem
    obtain ⟨entry, owner, rfl⟩ := List.mem_map.mp mem
    exact ⟨by simp [List.mem_map_of_mem owner], front entry owner _ List.mem_cons_self⟩
  · rintro ⟨mem, less⟩
    obtain ⟨entry, owner, rfl⟩ := List.mem_map.mp mem
    rcases List.mem_append.mp owner with early | late
    · exact List.mem_map_of_mem early
    · rcases List.mem_cons.mp late with rfl | later
      · exact absurd less (String.lt_irrefl _)
      · exact absurd less (String.lt_asymm ((List.pairwise_cons.mp rest).1 entry later))

end Journey.Dict
