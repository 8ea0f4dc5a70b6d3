/-!
Dictionaries: entries in ascending order of their keys, which are compared by code point. A look-up
finds the entry of its key, and an insertion replaces it or takes its place in the order.
-/

namespace Journey

abbrev Dict (α : Type) := List (String × α)

namespace Dict

variable {α β : Type}

def find? : List (String × α) → String → Option α
  | [], _ => none
  | (k, x) :: rest, key => if k = key then some x else find? rest key

def contains (entries : List (String × α)) (key : String) : Bool := (find? entries key).isSome

/-- Replaces the entry of `key`, or puts a new one before the first greater key. -/
def insert (key : String) (x : α) : List (String × α) → List (String × α)
  | [] => [(key, x)]
  | (k, y) :: rest =>
      if k = key then (key, x) :: rest
      else if key < k then (key, x) :: (k, y) :: rest
      else (k, y) :: insert key x rest

/-- Inserts every entry of a list in turn, so that the last one of a key stays. -/
def insertAll (entries : List (String × α)) (new : List (String × α)) : List (String × α) :=
  new.foldl (fun d (k, x) => insert k x d) entries

def ofList (entries : List (String × α)) : Dict α := insertAll [] entries

def keys (entries : List (String × α)) : List String := entries.map Prod.fst

theorem find?_insert_self (key : String) (x : α) (entries : List (String × α)) :
    find? (insert key x entries) key = some x := by
  induction entries with
  | nil => simp [insert, find?]
  | cons entry rest ih =>
      obtain ⟨k, y⟩ := entry
      simp only [insert]
      split
      · simp [find?]
      · split
        · simp [find?]
        · simp [find?, *]

theorem find?_insert_of_ne {key other : String} (h : other ≠ key) (x : α)
    (entries : List (String × α)) :
    find? (insert key x entries) other = find? entries other := by
  induction entries with
  | nil => simp [insert, find?, Ne.symm h]
  | cons entry rest ih =>
      obtain ⟨k, y⟩ := entry
      simp only [insert]
      split
      · rename_i hk
        subst hk
        simp [find?, Ne.symm h]
      · split
        · simp [find?, Ne.symm h]
        · simp [find?, ih]

theorem mem_insert {key : String} {x : α} {entries : List (String × α)} {entry : String × α}
    (h : entry ∈ insert key x entries) : entry = (key, x) ∨ entry ∈ entries := by
  induction entries with
  | nil => exact .inl (List.mem_singleton.mp h)
  | cons first rest ih =>
      obtain ⟨k, y⟩ := first
      simp only [insert] at h
      split at h
      · rcases List.mem_cons.mp h with same | old
        · exact .inl same
        · exact .inr (List.mem_cons_of_mem _ old)
      · split at h
        · exact List.mem_cons.mp h
        · rcases List.mem_cons.mp h with same | later
          · exact .inr (same ▸ List.mem_cons_self)
          · exact (ih later).imp id (List.mem_cons_of_mem _)

end Dict
end Journey
