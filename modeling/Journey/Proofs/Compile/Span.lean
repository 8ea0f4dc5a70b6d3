import Journey.Proofs.Compile.Shown

/-!
Stretches of a text. Lines are numbered in their order, so that the lines between two others are found
by their numbers alone. Which lines are looked for is left to the modules that look for them.
-/

namespace Journey.Line

/-- The lines are in the order of their numbers. -/
def Sorted (ls : List Line) : Prop := ls.Pairwise fun a b => a.number < b.number

theorem numbered_le {n : Nat} {raws : List (List Char)} : ∀ l ∈ numbered n raws, n ≤ l.number := by
  induction raws generalizing n with
  | nil => exact fun l mem => absurd mem List.not_mem_nil
  | cons raw rest ih =>
      rw [numbered_cons]
      refine List.forall_mem_cons.mpr ⟨Nat.le_refl n, fun l mem => ?_⟩
      exact Nat.le_of_succ_le (ih l mem)

theorem sorted_numbered (n : Nat) (raws : List (List Char)) : Sorted (numbered n raws) := by
  induction raws generalizing n with
  | nil => exact .nil
  | cons raw rest ih =>
      rw [numbered_cons]
      exact .cons (fun l mem => numbered_le l mem) (ih (n + 1))

theorem sorted_ofText (text : String) : Sorted (ofText text) := sorted_numbered 1 _

/-- The lines behind the one and in front of the other. -/
def between (ls : List Line) (a b : Line) : List Line :=
  ls.filter fun l => a.number < l.number && l.number < b.number

theorem filter_between (ls : List Line) (a b : Line) (p : Line → Bool) :
    (between ls a b).filter p = between (ls.filter p) a b := by
  rw [between, between, List.filter_filter, List.filter_filter]
  exact List.filter_congr fun _ _ => Bool.and_comm _ _

theorem between_split {before inside after : List Line} {a b : Line}
    (sorted : Sorted (before ++ a :: (inside ++ b :: after))) :
    between (before ++ a :: (inside ++ b :: after)) a b = inside := by
  simp only [Sorted, List.pairwise_append, List.pairwise_cons, List.mem_append, List.mem_cons]
    at sorted
  obtain ⟨-, ⟨behindA, -, ⟨behindB, -⟩, inFrontOfB⟩, inFrontOfA⟩ := sorted
  have noBefore : between before a b = [] := by
    refine List.filter_eq_nil_iff.mpr fun l mem => ?_
    have := inFrontOfA l mem a (.inl rfl)
    simp only [Bool.and_eq_true, decide_eq_true_eq]
    omega
  have allInside : between inside a b = inside := by
    refine List.filter_eq_self.mpr fun l mem => ?_
    simp [behindA l (.inl mem), inFrontOfB l mem b (.inl rfl)]
  have noAfter : between after a b = [] := by
    refine List.filter_eq_nil_iff.mpr fun l mem => ?_
    have := behindB l mem
    simp only [Bool.and_eq_true, decide_eq_true_eq]
    omega
  have split : between (before ++ a :: (inside ++ b :: after)) a b =
      between before a b ++ (between inside a b ++ between after a b) := by
    simp [between]
  rw [split, noBefore, allInside, noAfter, List.nil_append, List.append_nil]

/-- Between two lines that are shown, the lines of a kind that is always shown are found among those
that are shown. -/
theorem filter_between_shown {ls before inside after : List Line} {a b : Line} (sorted : Sorted ls)
    (split : ls.filter isShown = before ++ a :: (inside ++ b :: after)) {p : Line → Bool}
    (visible : ∀ l, p l = true → l.isShown = true) :
    (between ls a b).filter p = inside.filter p := by
  have shown : (ls.filter isShown).filter p = ls.filter p := by
    rw [List.filter_filter]
    refine List.filter_congr fun l _ => ?_
    cases held : p l with
    | false => rfl
    | true => rw [visible l held, Bool.and_self]
  calc (between ls a b).filter p
      = between (ls.filter p) a b := filter_between ls a b p
    _ = (between (ls.filter isShown) a b).filter p := by rw [filter_between, shown]
    _ = inside.filter p := by rw [split, between_split (split ▸ sorted.filter _)]

/-- The first line of a kind behind a line. -/
structure FirstAfter (ls : List Line) (P : Line → Prop) (a b : Line) : Prop where
  mem : b ∈ ls
  later : a.number < b.number
  holds : P b
  first : ∀ l ∈ between ls a b, ¬ P l

theorem firstAfter_of_split {ls before inside after : List Line} {a b : Line} (sorted : Sorted ls)
    (split : ls.filter isShown = before ++ a :: (inside ++ b :: after)) {P : Line → Prop}
    (visible : ∀ l, P l → l.isShown = true) (holds : P b) (none : ∀ l ∈ inside, ¬ P l) :
    FirstAfter ls P a b := by
  have order : a.number < b.number := by
    have shown : Sorted (ls.filter isShown) := sorted.filter _
    rw [split] at shown
    exact (List.pairwise_cons.mp (List.pairwise_append.mp shown).2.1).1 b (by simp)
  refine ⟨?_, order, holds, fun l mem held => ?_⟩
  · have shown : b ∈ ls.filter isShown := by
      rw [split]
      simp
    exact (List.mem_filter.mp shown).1
  · have among : l ∈ (between ls a b).filter isShown := List.mem_filter.mpr ⟨mem, visible l held⟩
    rw [filter_between_shown sorted split fun _ shown => shown] at among
    exact none l (List.mem_filter.mp among).1 held

end Journey.Line
