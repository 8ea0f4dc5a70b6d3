import Journey.Proofs.Compile.Ownership
import Journey.Proofs.Compile.Shift

/-!
Text after text. A text that ends its last line and compiles leaves no trace in what follows it: the rest
compiles, or fails, as it does alone, but for the lines that are named.
-/

namespace Journey

namespace Text

/-- The text leaves no line unfinished. -/
def EndsLine (text : String) : Prop := text = "" ∨ ∃ front : String, text = front ++ "\n"

theorem linesFrom_append (held front rest : List Char) :
    linesFrom held (front ++ '\n' :: rest) = linesFrom held (front ++ ['\n']) ++ lines rest := by
  induction front generalizing held with
  | nil => rfl
  | cons c front ih =>
      by_cases ends : c = '\n'
      · subst ends
        exact congrArg _ (ih [])
      · simpa only [List.cons_append, linesFrom] using ih (c :: held)

theorem EndsLine.lines_append {front : String} (h : EndsLine front) (back : String) :
    lines (front ++ back).toList = lines front.toList ++ lines back.toList := by
  rcases h with rfl | ⟨front, rfl⟩
  · simp [lines, linesFrom]
  · simpa [lines] using linesFrom_append [] front.toList back.toList

end Text

def LintViolation.shift (k : Nat) (v : LintViolation) : LintViolation :=
  { v with source := v.source.shift k }

namespace Lint

theorem checkFrom_append (file : String) (n : Nat) (front back : List (List Char)) :
    checkFrom file n (front ++ back) =
      checkFrom file n front ++ checkFrom file (n + front.length) back := by
  induction front generalizing n with
  | nil => rfl
  | cons raw rest ih =>
      rw [List.cons_append, checkFrom, checkFrom, ih, List.append_assoc, List.length_cons,
        Nat.add_right_comm, Nat.add_assoc]

theorem checkFrom_shift (file : String) (n k : Nat) (raws : List (List Char)) :
    checkFrom file (n + k) raws = (checkFrom file n raws).map (LintViolation.shift k) := by
  induction raws generalizing n with
  | nil => rfl
  | cons raw rest ih =>
      rw [checkFrom, checkFrom, List.map_append, List.map_map, ← ih, Nat.add_right_comm]
      rfl

end Lint

namespace Progress

theorem feedAll_append (c : Compiler) (file : String) (n : Nat) (front back : List (List Char))
    (p : Progress) :
    feedAll c file n (front ++ back) p =
      feedAll c file n front p >>= feedAll c file (n + front.length) back := by
  induction front generalizing n p with
  | nil => rfl
  | cons raw rest ih =>
      simp only [List.cons_append, feedAll]
      cases p.feed c raw ⟨file, n⟩ with
      | error e => rfl
      | ok next =>
          simp only [ih, List.length_cons, Nat.add_right_comm, ← Nat.add_assoc]

end Progress

namespace Compiler

variable {c : Compiler} {file : String}

theorem compileLines_append {front : List (List Char)} {ws : List Workflow}
    (compiled : c.compileLines file front = .ok ws) (back : List (List Char)) :
    c.compileLines file (front ++ back) =
      ((c.compileLines file back).map fun more =>
        ws ++ more.map (Workflow.shift front.length)).mapError (CompileError.shift front.length) := by
  simp only [compileLines] at compiled ⊢
  rw [Progress.feedAll_append]
  cases read : Progress.feedAll c file 1 front .begin with
  | error e =>
      rw [read] at compiled
      cases compiled
  | ok p =>
      rw [read] at compiled
      -- Nothing is under construction where the text in front ends.
      have done : p = Progress.begin.behind ws front.length := by
        obtain ⟨finished, _ | d⟩ := p
        · obtain rfl := Except.ok.inj compiled
          simp [Progress.behind, Progress.begin]
        · cases compiled
      rw [show (.ok p >>= Progress.feedAll c file (1 + front.length) back) =
        Progress.feedAll c file (1 + front.length) back p from rfl, done, Progress.feedAll_behind]
      cases Progress.feedAll c file 1 back .begin with
      | error e => rfl
      | ok q => exact q.finish_behind ws front.length

/-- A text that ends its last line and compiles leaves no trace in what follows: the workflows that follow
are those of the rest alone, and so is the error, each as many lines further down. -/
theorem compileAll_append (c : Compiler) (file : String) {front : String} (ends : Text.EndsLine front)
    {ws : List Workflow} (compiled : c.compileAll front file = .ok ws) (back : String) :
    c.compileAll (front ++ back) file =
      match c.compileAll back file with
      | .ok more => .ok (ws ++ more.map (Workflow.shift (Text.lines front.toList).length))
      | .error error => .error (error.shift (Text.lines front.toList).length) := by
  have lines := ends.lines_append back
  have built := compileLines_append (compileLines_of_compileAll compiled) (Text.lines back.toList)
  have checked : (if c.lint then (Lint.check (front ++ back) file).head? else none) =
      (if c.lint then (Lint.check back file).head? else none).map
        (LintViolation.shift (Text.lines front.toList).length) := by
    cases on : c.lint with
    | false => rfl
    | true =>
        have clean : Lint.checkFrom file 1 (Text.lines front.toList) = [] := check_eq_nil on compiled
        simp only [if_true, Lint.check, lines, Lint.checkFrom_append, clean, List.nil_append,
          Lint.checkFrom_shift, List.head?_map]
  simp only [compileAll, checked, lines, built]
  cases if c.lint then (Lint.check back file).head? else none with
  | some violation => rfl
  | none =>
      simp only [Option.map_none]
      cases c.compileLines file (Text.lines back.toList) <;> rfl

/-- Twice the same text, and then an end too many in its place: the second workflow, and the error, stand
nine lines down. -/
theorem compileAll_greeting_append : Text.EndsLine (greeting ++ "\n") ∧ ∃ front back,
    (⟨.empty, none, true⟩ : Compiler).compileAll (greeting ++ "\n") "page.flow" = .ok [front] ∧
      (⟨.empty, none, true⟩ : Compiler).compileAll greeting "page.flow" = .ok [back] ∧
      (⟨.empty, none, true⟩ : Compiler).compileAll ((greeting ++ "\n") ++ greeting) "page.flow" =
        .ok [front, back.shift 9] ∧
      (⟨.empty, none, true⟩ : Compiler).compileAll ((greeting ++ "\n") ++ "end workflow") "page.flow" =
        .error ⟨⟨"page.flow", 10⟩, .strayEnd⟩ := by
  have one : ((⟨.empty, none, true⟩ : Compiler).compileAll (greeting ++ "\n") "page.flow").toOption.map
      (List.map Workflow.name) = some ["hi"] := by decide
  have two : ((⟨.empty, none, true⟩ : Compiler).compileAll greeting "page.flow").toOption.map
      (List.map Workflow.name) = some ["hi"] := by decide
  obtain ⟨front, compiled, -⟩ := Except.ok_of_toOption_singleton one
  obtain ⟨back, same, -⟩ := Except.ok_of_toOption_singleton two
  have ends : Text.EndsLine (greeting ++ "\n") := .inr ⟨greeting, rfl⟩
  refine ⟨ends, front, back, compiled, same, ?_, compileAll_append _ _ ends compiled "end workflow"⟩
  rw [compileAll_append _ _ ends compiled greeting, same]
  rfl

end Compiler

end Journey
