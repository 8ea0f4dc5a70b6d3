import Journey.Proofs.Compile.Ownership
import Journey.Proofs.Lines

/-!
What the digest of a workflow tells. It is taken of the lines from the one that names the workflow
through its end, and of nothing else: neither the rest of the text nor the file nor the line endings have
a part in it. What the workflow is made of is read off the same lines and stated elsewhere.
-/

namespace Journey

namespace Workflow

def IsHeading (raw : List Char) : Prop :=
  ∃ name, MetaKey.parse (Text.trim raw) = some (.workflow, name)

def isEnding (raw : List Char) : Bool := Text.trim raw = "end workflow".toList

/-- The workflow is one stretch of the lines, from its heading through the first ending behind it. -/
structure StandsAmong (lines own : List (List Char)) (w : Workflow) : Prop where
  place : ∃ before after, lines = before ++ (own ++ after) ∧ w.source.line = before.length + 1
  heading : ∃ raw ∈ own.head?, IsHeading raw
  ending : ∃ front last, own = front ++ [last] ∧ isEnding last = true ∧
    ∀ raw ∈ front, isEnding raw = false

/-- The workflow is made of these lines of the text. -/
def StandsIn (text : String) (own : List (List Char)) (w : Workflow) : Prop :=
  ∃ lines, Text.Lined text.toList lines ∧ w.StandsAmong lines own

/-- The workflow has the digest of its own lines. -/
def Digested (lines : List (List Char)) (w : Workflow) : Prop :=
  ∃ own, w.StandsAmong lines own ∧ w.digest = Text.digest (Text.joined own)

namespace StandsAmong

variable {lines own other : List (List Char)} {w : Workflow}

theorem filled (h : w.StandsAmong lines own) : own ≠ [] := by
  obtain ⟨front, last, rfl, -⟩ := h.ending
  exact List.append_ne_nil_of_right_ne_nil _ (List.cons_ne_nil _ _)

theorem mem (h : w.StandsAmong lines own) : ∀ raw ∈ own, raw ∈ lines := by
  obtain ⟨before, after, rfl, -⟩ := h.place
  exact fun raw among => List.mem_append_right _ (List.mem_append_left _ among)

theorem concat (h : w.StandsAmong lines own) (raw : List Char) :
    w.StandsAmong (lines ++ [raw]) own := by
  obtain ⟨before, after, rfl, place⟩ := h.place
  exact ⟨⟨before, after ++ [raw], by simp, place⟩, h.heading, h.ending⟩

/-- Up to the first ending, own lines are found again in the lines that begin with them. -/
theorem takeWhile_append (h : w.StandsAmong lines own) (after : List (List Char)) :
    (own ++ after).takeWhile (fun raw => !isEnding raw) = own.dropLast := by
  obtain ⟨front, last, rfl, ends, goesOn⟩ := h.ending
  rw [List.append_assoc, List.takeWhile_append_of_pos fun raw mem => by simp [goesOn raw mem]]
  simp [ends]

theorem unique (h : w.StandsAmong lines own) (h' : w.StandsAmong lines other) : other = own := by
  obtain ⟨before, after, split, place⟩ := h.place
  obtain ⟨before', after', split', place'⟩ := h'.place
  have far : before'.length = before.length := Nat.succ.inj (place'.symm.trans place)
  obtain ⟨rfl, same⟩ := List.append_inj (split'.symm.trans split) far
  have front := (h'.takeWhile_append after').symm.trans
    ((congrArg _ same).trans (h.takeWhile_append after))
  have long : other.length = own.length := by
    have lengths := congrArg List.length front
    rw [List.length_dropLast, List.length_dropLast] at lengths
    have := List.length_pos_iff.mpr h.filled
    have := List.length_pos_iff.mpr h'.filled
    omega
  exact (List.append_inj same long).1

end StandsAmong
end Workflow

namespace Draft

theorem fillBlock_lines (d : Draft) (name : BlockName) (steps : List Step) :
    (d.fillBlock name steps).lines = d.lines ∧
      (d.fillBlock name steps).workflow.source = d.workflow.source := by
  cases name <;> exact ⟨rfl, rfl⟩

/-- No line that a workflow under construction takes changes the lines that it has kept, or its place. -/
theorem Takes.kept {c : Compiler} {d d' : Draft} {line : List Char} {source : SourceRef}
    (h : d.Takes c line source d') :
    d'.lines = d.lines ∧ d'.workflow.source = d.workflow.source := by
  cases h with
  | action read compiled inside => exact ⟨rfl, rfl⟩
  | ending read ends closes =>
      cases closes with
      | phase inside named filled => exact ⟨rfl, rfl⟩
      | block inside named => exact d.fillBlock_lines _ _
  | statement read noEnd outside states => cases states <;> exact ⟨rfl, rfl⟩

/-- The end of the workflow is not a line that it takes. -/
theorem Takes.not_isEnding {c : Compiler} {d d' : Draft} {raw : List Char} {source : SourceRef}
    (h : d.Takes c (Text.trim raw) source d') : Workflow.isEnding raw = false := by
  rw [Workflow.isEnding, decide_eq_false_iff_not]
  intro ends
  rw [ends] at h
  cases h with
  | action read compiled inside =>
      have plain : ActionLine.parse "end workflow".toList = .ok none := by decide
      rw [plain] at read
      cases read
  | ending read ends closes =>
      obtain rfl : "workflow".toList = _ := Option.some.inj ends
      cases closes with
      | phase inside named filled => exact absurd named (by decide)
      | @block name steps at_ inside named => cases name <;> exact absurd named (by decide)
  | statement read noEnd outside states => cases noEnd

/-- The workflow under construction is made of the last of the lines, from its heading on. -/
structure Gathers (lines own : List (List Char)) (d : Draft) : Prop where
  place : ∃ before, lines = before ++ own ∧ d.workflow.source.line = before.length + 1
  heading : ∃ raw ∈ own.head?, Workflow.IsHeading raw
  goesOn : ∀ raw ∈ own, Workflow.isEnding raw = false
  kept : d.lines.reverse = own.map String.ofList

namespace Gathers

variable {lines own : List (List Char)} {d : Draft} {raw : List Char}

theorem begin (lines : List (List Char)) (name : String) (file : String)
    (heads : Workflow.IsHeading raw) :
    (Draft.begin name ⟨file, lines.length + 1⟩ (String.ofList raw)).Gathers (lines ++ [raw]) [raw] where
  place := ⟨lines, rfl, rfl⟩
  heading := ⟨raw, rfl, heads⟩
  goesOn := by
    rw [List.forall_mem_singleton, Workflow.isEnding, decide_eq_false_iff_not]
    intro ends
    obtain ⟨name, read⟩ := heads
    rw [ends] at read
    cases read
  kept := rfl

theorem keepLine (h : d.Gathers lines own) (goesOn : Workflow.isEnding raw = false) :
    (d.keepLine (String.ofList raw)).Gathers (lines ++ [raw]) (own ++ [raw]) where
  place := by
    obtain ⟨before, rfl, place⟩ := h.place
    exact ⟨before, List.append_assoc _ _ _, place⟩
  heading := by
    obtain ⟨first, begins, heads⟩ := h.heading
    exact ⟨first, List.mem_head?_append_of_mem_head? begins, heads⟩
  goesOn := by
    rw [List.forall_mem_append]
    exact ⟨h.goesOn, List.forall_mem_singleton.mpr goesOn⟩
  kept := by simp [Draft.keepLine, h.kept]

theorem takes {c : Compiler} {d' : Draft} {line : List Char} {source : SourceRef}
    (h : d.Gathers lines own) (takes : d.Takes c line source d') : d'.Gathers lines own := by
  obtain ⟨same, place⟩ := takes.kept
  exact ⟨place ▸ h.place, h.heading, h.goesOn, same ▸ h.kept⟩

theorem finish {w : Workflow} {source : SourceRef} (h : d.Gathers lines own)
    (ends : Workflow.isEnding raw = true)
    (done : (d.keepLine (String.ofList raw)).finish source = .ok w) :
    w.Digested (lines ++ [raw]) := by
  obtain ⟨-, -, rfl⟩ := Draft.finish_eq_ok.mp done
  refine ⟨own ++ [raw], ⟨?_, ?_, own, raw, rfl, ends, h.goesOn⟩, ?_⟩
  · obtain ⟨before, rfl, place⟩ := h.place
    exact ⟨before, [], by simp, place⟩
  · obtain ⟨first, begins, heads⟩ := h.heading
    exact ⟨first, List.mem_head?_append_of_mem_head? begins, heads⟩
  · refine congrArg Text.digest ?_
    simp [Draft.text, Draft.keepLine, Text.joined, h.kept]

end Gathers
end Draft

theorem Workflow.Digested.concat {lines : List (List Char)} {w : Workflow} (h : w.Digested lines)
    (raw : List Char) : w.Digested (lines ++ [raw]) := by
  obtain ⟨own, stands, digest⟩ := h
  exact ⟨own, stands.concat raw, digest⟩

namespace Progress

/-- Every workflow that has been read has the digest of its own lines, and the one under construction
has gathered those that it has had so far. -/
structure Gathers (lines : List (List Char)) (p : Progress) : Prop where
  finished : ∀ w ∈ p.finished, w.Digested lines
  draft : ∀ d, p.draft = some d → ∃ own, d.Gathers lines own

theorem gathers_begin : begin.Gathers [] where
  finished := List.forall_mem_nil _
  draft _ h := by cases h

theorem not_isEnding_of_isIgnored {raw : List Char} (blank : isIgnored (Text.trim raw) = true) :
    Workflow.isEnding raw = false := by
  rw [Workflow.isEnding, decide_eq_false_iff_not]
  intro ends
  rw [ends] at blank
  cases blank

namespace Gathers

theorem feeds {c : Compiler} {p p' : Progress} {lines : List (List Char)} {raw : List Char}
    {file : String} (h : p.Gathers lines) (feeds : p.Feeds c raw ⟨file, lines.length + 1⟩ p') :
    p'.Gathers (lines ++ [raw]) := by
  have earlier : ∀ w ∈ p.finished, w.Digested (lines ++ [raw]) :=
    fun w mem => (h.finished w mem).concat raw
  cases feeds with
  | ignored blank =>
      refine ⟨earlier, fun d now => ?_⟩
      obtain ⟨before, under, rfl⟩ := Option.map_eq_some_iff.mp now
      obtain ⟨own, gathers⟩ := h.draft before under
      exact ⟨own ++ [raw], gathers.keepLine (not_isEnding_of_isIgnored blank)⟩
  | @ended d w ends under done =>
      refine ⟨List.forall_mem_append.mpr ⟨earlier, ?_⟩, fun _ now => by cases now⟩
      obtain ⟨own, gathers⟩ := h.draft d under
      exact List.forall_mem_singleton.mpr (gathers.finish (decide_eq_true ends) done)
  | begun outside read named =>
      refine ⟨earlier, fun d now => ?_⟩
      obtain rfl := Option.some.inj now
      exact ⟨[raw], .begin lines _ file ⟨_, read⟩⟩
  | @taken d d' under takes =>
      refine ⟨earlier, fun now same => ?_⟩
      obtain rfl := Option.some.inj same
      obtain ⟨own, gathers⟩ := h.draft d under
      exact ⟨own ++ [raw], (gathers.keepLine takes.not_isEnding).takes takes⟩

theorem feedAll {c : Compiler} {file : String} {lines raws : List (List Char)} {p p' : Progress}
    (h : p.Gathers lines) (fed : Progress.feedAll c file (lines.length + 1) raws p = .ok p') :
    p'.Gathers (lines ++ raws) := by
  induction raws generalizing lines p with
  | nil =>
      obtain rfl := Except.ok.inj fed
      rwa [List.append_nil]
  | cons raw rest ih =>
      simp only [Progress.feedAll] at fed
      split at fed
      case h_1 => cases fed
      case h_2 next first =>
        have whole := ih (h.feeds (feeds_of_feed first)) (by simpa using fed)
        rwa [List.append_assoc] at whole

end Gathers
end Progress

namespace Compiler

theorem digested_of_compileLines {c : Compiler} {file : String} {lines : List (List Char)}
    {ws : List Workflow} (h : c.compileLines file lines = .ok ws) : ∀ w ∈ ws, w.Digested lines := by
  simp only [compileLines] at h
  split at h
  case h_1 => cases h
  case h_2 p fed =>
    have gathers := Progress.gathers_begin.feedAll fed
    simp only [Progress.finish] at h
    split at h
    case h_1 =>
      obtain rfl := Except.ok.inj h
      exact gathers.finished
    case h_2 => cases h

/-- A compiled workflow is made of certain lines of its text and of no others, and has their digest. -/
theorem stands_of_compileAll {c : Compiler} {text file : String} {ws : List Workflow}
    (compiled : c.compileAll text file = .ok ws) {w : Workflow} (mem : w ∈ ws) :
    ∃ own, (∀ other, w.StandsIn text other ↔ other = own) ∧ own ≠ [] ∧ (∀ raw ∈ own, '\n' ∉ raw) ∧
      w.digest = Text.digest (Text.joined own) := by
  obtain ⟨own, stands, digest⟩ := digested_of_compileLines (compileLines_of_compileAll compiled) w mem
  have lined := Text.lined_lines text.toList
  refine ⟨own, fun other => ⟨?_, ?_⟩, stands.filled, ?_, digest⟩
  · rintro ⟨lines, read, standing⟩
    obtain rfl := read.eq_lines
    exact stands.unique standing
  · rintro rfl
    exact ⟨_, lined, stands⟩
  · exact fun raw among => lined.whole raw (stands.mem raw among)

/-- The digests of two workflows tell whether they are made of the same lines, from wherever each of them
was compiled. -/
theorem digest_identifies {c₁ c₂ : Compiler} {text₁ text₂ file₁ file₂ : String}
    {ws₁ ws₂ : List Workflow} {w₁ w₂ : Workflow} (compiled₁ : c₁.compileAll text₁ file₁ = .ok ws₁)
    (mem₁ : w₁ ∈ ws₁) (compiled₂ : c₂.compileAll text₂ file₂ = .ok ws₂) (mem₂ : w₂ ∈ ws₂) :
    ∃ own₁ own₂, (∀ own, w₁.StandsIn text₁ own ↔ own = own₁) ∧
      (∀ own, w₂.StandsIn text₂ own ↔ own = own₂) ∧
      ((Text.digest (Text.joined own₁) = Text.digest (Text.joined own₂) →
          Text.joined own₁ = Text.joined own₂) →
        (w₁.digest = w₂.digest ↔ own₁ = own₂)) := by
  obtain ⟨own₁, stands₁, filled₁, whole₁, digest₁⟩ := stands_of_compileAll compiled₁ mem₁
  obtain ⟨own₂, stands₂, filled₂, whole₂, digest₂⟩ := stands_of_compileAll compiled₂ mem₂
  refine ⟨own₁, own₂, stands₁, stands₂, fun noCollision => ?_⟩
  rw [digest₁, digest₂]
  constructor
  · exact fun same => Text.joined_inj whole₁ filled₁ whole₂ filled₂ (noCollision same)
  · rintro rfl
    rfl

/-- The lines of a greeting up to its end, with a comment among them. -/
def greetingFront (comment : String) : List (List Char) :=
  ["workflow: hi", "setup:", "do enter", "end setup"].map String.toList ++
    comment.toList :: ["phase: one", "do greet", "end phase"].map String.toList

def greetingLines (comment : String) : List (List Char) :=
  greetingFront comment ++ ["end workflow".toList]

/-- The greeting behind another line, with endings of the other kind. -/
def letter (comment : String) : String :=
  "# a letter\r\n" ++ "\r\n".intercalate ((greetingLines comment).map String.ofList)

theorem compileAll_greetingLines (text file comment : String) (before : List (List Char))
    (read : Text.lines text.toList = before ++ greetingLines comment)
    (goesOn : Workflow.isEnding comment.toList = false)
    (one : ((⟨.empty, none, false⟩ : Compiler).compileAll text file).toOption.map
      (List.map fun w => w.source.line) = some [before.length + 1]) :
    ∃ w, (⟨.empty, none, false⟩ : Compiler).compileAll text file = .ok [w] ∧
      w.StandsIn text (greetingLines comment) := by
  obtain ⟨w, compiled, place⟩ := Except.ok_of_toOption_singleton one
  have front : ∀ raw ∈ greetingFront comment, Workflow.isEnding raw = false :=
    List.forall_mem_append.mpr ⟨by decide, List.forall_mem_cons.mpr ⟨goesOn, by decide⟩⟩
  refine ⟨w, compiled, _, Text.lined_lines _, ⟨before, [], by rw [read, List.append_nil], place⟩,
    ?_, greetingFront comment, _, rfl, by decide, front⟩
  exact ⟨"workflow: hi".toList, rfl, "hi".toList, by decide⟩

/-- Neither the line in front, nor the endings, nor the file change the digest; the comment does. -/
theorem digest_letter_identifies : ∃ w same other,
    (⟨.empty, none, false⟩ : Compiler).compileAll greeting "page.flow" = .ok [w] ∧
      (⟨.empty, none, false⟩ : Compiler).compileAll (letter "# then") "letter.flow" = .ok [same] ∧
      (⟨.empty, none, false⟩ : Compiler).compileAll (letter "# else") "letter.flow" = .ok [other] ∧
      w.digest = same.digest ∧ w.digest ≠ other.digest := by
  obtain ⟨w, compiled, stands⟩ :=
    compileAll_greetingLines greeting "page.flow" "# then" [] (by decide) (by decide) (by decide)
  obtain ⟨same, again, standsAgain⟩ :=
    compileAll_greetingLines (letter "# then") "letter.flow" "# then" ["# a letter".toList] (by decide)
      (by decide) (by decide)
  obtain ⟨other, anew, standsAnew⟩ :=
    compileAll_greetingLines (letter "# else") "letter.flow" "# else" ["# a letter".toList] (by decide)
      (by decide) (by decide)
  refine ⟨w, same, other, compiled, again, anew, ?_, ?_⟩
  · obtain ⟨own₁, own₂, only₁, only₂, identifies⟩ :=
      digest_identifies compiled List.mem_cons_self again List.mem_cons_self
    obtain rfl := (only₁ _).mp stands
    obtain rfl := (only₂ _).mp standsAgain
    exact (identifies fun _ => rfl).mpr rfl
  · obtain ⟨own₁, own₂, only₁, only₂, identifies⟩ :=
      digest_identifies compiled List.mem_cons_self anew List.mem_cons_self
    obtain rfl := (only₁ _).mp stands
    obtain rfl := (only₂ _).mp standsAnew
    have noCollision : Text.digest (Text.joined (greetingLines "# then")) ≠
        Text.digest (Text.joined (greetingLines "# else")) := by decide +kernel
    have differ : greetingLines "# then" ≠ greetingLines "# else" := by decide
    exact fun equal => differ ((identifies fun collides => absurd collides noCollision).mp equal)

end Compiler
end Journey
