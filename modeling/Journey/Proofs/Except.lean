/-!
Computations that may fail: what a success says about the parts it was made of, and where a failure comes
from.
-/

namespace Journey.Except

variable {ε ε' α β σ : Type}

theorem mapError_ok (f : ε → ε') (a : α) : (Except.ok a).mapError f = .ok a := rfl

theorem mapError_error (f : ε → ε') (e : ε) :
    (Except.error e : Except ε α).mapError f = .error (f e) := rfl

theorem ok_of_mapError {r : Except ε α} {f : ε → ε'} {a : α} (h : r.mapError f = .ok a) :
    r = .ok a := by
  cases r with
  | error e => cases h
  | ok b => exact congrArg _ (Except.ok.inj h)

theorem ok_of_map {r : Except ε α} {f : α → β} {b : β} (h : r.map f = .ok b) :
    ∃ a, r = .ok a ∧ f a = b := by
  cases r with
  | error e => cases h
  | ok a => exact ⟨a, rfl, Except.ok.inj h⟩

theorem ok_of_bind {r : Except ε α} {f : α → Except ε β} {b : β} (h : r >>= f = .ok b) :
    ∃ a, r = .ok a ∧ f a = .ok b := by
  cases r with
  | error e => cases h
  | ok a => exact ⟨a, rfl, h⟩

theorem map_bind (r : Except ε α) (f : α → Except ε β) (g : β → σ) :
    (r >>= f).map g = r >>= fun a => (f a).map g := by
  cases r <;> rfl

theorem error_of_map {r : Except ε α} {f : α → β} {e : ε} (h : r.map f = .error e) :
    r = .error e := by
  cases r with
  | error e' => exact congrArg _ (Except.error.inj h)
  | ok a => cases h

theorem error_of_bind {r : Except ε α} {f : α → Except ε β} {e : ε} (h : r >>= f = .error e) :
    r = .error e ∨ ∃ a, r = .ok a ∧ f a = .error e := by
  cases r with
  | error e' => exact .inl (congrArg _ (Except.error.inj h))
  | ok a => exact .inr ⟨a, rfl, h⟩

theorem ok_of_toOption {r : Except ε α} {a : α} (h : r.toOption = some a) : r = .ok a := by
  cases r with
  | error e => cases h
  | ok b => exact congrArg _ (Option.some.inj h)

/-- A computation is told by what is read off the one element of its result. -/
theorem ok_of_toOption_singleton {r : Except ε (List α)} {f : α → β} {b : β}
    (h : r.toOption.map (List.map f) = some [b]) : ∃ a, r = .ok [a] ∧ f a = b := by
  cases r with
  | error e => cases h
  | ok xs =>
      obtain ⟨a, rfl, same⟩ := List.map_eq_singleton_iff.mp (Option.some.inj h)
      exact ⟨a, rfl, same⟩

/-- The computation succeeds exactly if the condition is met, and then with that result. -/
def Decides (r : Except ε α) (p : Prop) (a : α) : Prop :=
  match r with
  | .ok b => p ∧ b = a
  | .error _ => ¬p

theorem Decides.congr {r : Except ε α} {p q : Prop} {a : α} (h : Decides r p a) (same : p ↔ q) :
    Decides r q a := by
  cases r with
  | ok b => exact ⟨same.mp h.1, h.2⟩
  | error e => exact fun holds => h (same.mpr holds)

theorem Decides.bind {r : Except ε α} {f : α → Except ε β} {p q : Prop} {a : α} {b : β}
    (h : Decides r p a) (h' : Decides (f a) q b) : Decides (r >>= f) (p ∧ q) b := by
  cases r with
  | error e => exact fun both => h both.1
  | ok a' =>
      obtain ⟨holds, rfl⟩ := h
      exact Decides.congr h' (and_iff_right holds).symm

theorem foldlM_cons_ok {f : σ → α → Except ε σ} {s s' : σ} {x : α} (h : f s x = .ok s')
    (xs : List α) : (x :: xs).foldlM f s = xs.foldlM f s' := by
  rw [List.foldlM_cons, h]
  rfl

theorem foldlM_append_ok {f : σ → α → Except ε σ} {s s' : σ} {xs : List α}
    (h : xs.foldlM f s = .ok s') (ys : List α) : (xs ++ ys).foldlM f s = ys.foldlM f s' := by
  rw [List.foldlM_append, h]
  rfl

/-- A fold fails where one of its elements does. -/
theorem error_of_foldlM {f : σ → α → Except ε σ} {s : σ} {xs : List α} {e : ε}
    (h : xs.foldlM f s = .error e) : ∃ s x, x ∈ xs ∧ f s x = .error e := by
  induction xs generalizing s with
  | nil => cases h
  | cons x xs ih =>
      rw [List.foldlM_cons] at h
      rcases error_of_bind h with first | ⟨next, -, later⟩
      · exact ⟨s, x, List.mem_cons_self, first⟩
      · obtain ⟨s, y, mem, failed⟩ := ih later
        exact ⟨s, y, List.mem_cons_of_mem _ mem, failed⟩

/-- What holds at the start and is kept by each element holds at the end. -/
theorem foldlM_preserves {f : σ → α → Except ε σ} {I : σ → Prop} {xs : List α}
    (step : ∀ s x s', x ∈ xs → I s → f s x = .ok s' → I s') {s s' : σ} (start : I s)
    (h : xs.foldlM f s = .ok s') : I s' := by
  induction xs generalizing s with
  | nil =>
      obtain rfl := Except.ok.inj h
      exact start
  | cons x xs ih =>
      rw [List.foldlM_cons] at h
      obtain ⟨next, first, rest⟩ := ok_of_bind h
      refine ih (fun s y s' hy => step s y s' (List.mem_cons_of_mem _ hy)) ?_ rest
      exact step s x next List.mem_cons_self start first

/-- What a fold has made of the elements so far, from what each of them adds. -/
theorem foldlM_history {f : σ → α → Except ε σ} {I : List α → σ → Prop} {xs before : List α}
    (step : ∀ before s x s', I before s → f s x = .ok s' → I (before ++ [x]) s') {s s' : σ}
    (start : I before s) (h : xs.foldlM f s = .ok s') : I (before ++ xs) s' := by
  induction xs generalizing before s with
  | nil =>
      obtain rfl := Except.ok.inj h
      rwa [List.append_nil]
  | cons x xs ih =>
      rw [List.foldlM_cons] at h
      obtain ⟨next, first, rest⟩ := ok_of_bind h
      rw [← List.singleton_append, ← List.append_assoc]
      exact ih (step before s x next start first) rest

end Journey.Except
