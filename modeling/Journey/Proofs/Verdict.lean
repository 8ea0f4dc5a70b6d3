import Journey.Proofs.Validation
import Mathlib.Data.List.Forall2

/-!
What a validation prints. Every line begins with the mark of a problem or that of success, and the code
of the command tells whether a problem was printed. A workflow is given one verdict that tells all of its
problems exactly if its semantic actions are known: behind an unknown one it is called sound all the
same, and a missing pack hides the unknown ones. What a validation that succeeds promises is stated with
the validation.
-/

namespace Journey

variable {ρ ς : Type}

namespace Finding

def isProblemLine (line : String) : Bool := line.toList.head? == some '✗'

def isSuccessLine (line : String) : Bool := line.toList.head? == some '✓'

theorem head?_text (f : Finding) :
    f.text.toList.head? = some (if f.isProblem then '✗' else '✓') := by
  cases f <;> simp only [text, String.toList_append, List.append_assoc] <;> rfl

theorem isProblemLine_text (f : Finding) : isProblemLine f.text = f.isProblem := by
  rw [isProblemLine, head?_text]
  cases f.isProblem <;> rfl

theorem isSuccessLine_text (f : Finding) : isSuccessLine f.text = !f.isProblem := by
  rw [isSuccessLine, head?_text]
  cases f.isProblem <;> rfl

/-- The lines say either that all is well, in a single line, or what is wrong, and nothing else. -/
inductive OneVerdict : List String → Prop
  | success {line : String} (good : isSuccessLine line = true) : OneVerdict [line]
  | problems {lines : List String} (some : lines ≠ [])
      (all : ∀ line ∈ lines, isProblemLine line = true) : OneVerdict lines

end Finding

namespace Workflow

def PackLoaded (w : Workflow) (installed : Installed) : Prop :=
  ∀ pack ∈ w.locatorPack, (installed.packs.any fun p => p.id == pack) = true

def KnowsActions (w : Workflow) (installed : Installed) : Prop :=
  ∀ s ∈ w.steps, s.kind = .semantic → installed.expander.has s.keyword = true

/-- All that is wrong with the workflow: its pack, and its steps in order. -/
def problems (w : Workflow) (installed : Installed) : List Finding :=
  (w.locatorPack.toList.filter fun pack => !installed.packs.any fun p => p.id == pack).map
    (.packMissing w.name) ++ w.unknownActions installed.expander

/-- The line that calls the workflow sound. -/
def successLine (w : Workflow) : String :=
  (Finding.sound w.name w.phases.length w.steps.length w.digest).text

/-- What is printed for a workflow. One without its pack gets a problem line for that alone, and any
other one a problem line for each step with an unknown semantic action and then the success line. That
is one verdict with all of its problems exactly if its semantic actions are known. -/
structure Reported (installed : Installed) (w : Workflow) (lines : List String) : Prop where
  missing : ∀ pack ∈ w.locatorPack, (installed.packs.any fun p => p.id == pack) = false →
    lines = [(Finding.packMissing w.name pack).text]
  loaded : w.PackLoaded installed →
    lines = (w.unknownActions installed.expander).map Finding.text ++ [w.successLine]
  clean : (∀ line ∈ lines, Finding.isProblemLine line = false) ↔ w.Fits installed
  verdict : Finding.OneVerdict lines ∧
      lines.filter Finding.isProblemLine = (w.problems installed).map Finding.text ↔
    w.KnowsActions installed

variable {w : Workflow} {installed : Installed}

theorem unknownActions_eq_nil_iff :
    w.unknownActions installed.expander = [] ↔ w.KnowsActions installed := by
  rw [unknownActions, List.map_eq_nil_iff, List.filter_eq_nil_iff]
  refine forall₂_congr fun s _ => ?_
  simp [Step.isSemantic]

theorem findings_of_missing {pack : String} (named : pack ∈ w.locatorPack)
    (absent : (installed.packs.any fun p => p.id == pack) = false) :
    w.findings installed = [.packMissing w.name pack] := by
  simp only [findings, Option.mem_def.mp named, absent, Bool.false_eq_true, if_false]

theorem findings_of_loaded (loaded : w.PackLoaded installed) :
    w.findings installed = w.actionFindings installed.expander := by
  simp only [findings]
  split
  case h_1 pack named => exact if_pos (loaded pack named)
  case h_2 => rfl

theorem problems_of_missing {pack : String} (named : pack ∈ w.locatorPack)
    (absent : (installed.packs.any fun p => p.id == pack) = false) :
    w.problems installed = .packMissing w.name pack :: w.unknownActions installed.expander := by
  simp [problems, Option.mem_def.mp named, absent]

theorem problems_of_loaded (loaded : w.PackLoaded installed) :
    w.problems installed = w.unknownActions installed.expander := by
  have none : (w.locatorPack.toList.filter fun pack =>
      !installed.packs.any fun p => p.id == pack) = [] := by
    rw [List.filter_eq_nil_iff]
    intro pack named
    simp [loaded pack (Option.mem_toList.mp named)]
  rw [problems, none]
  rfl

/-- Either all packs that the workflow names are there, or its one pack is not. -/
theorem packLoaded_or_missing (w : Workflow) (installed : Installed) :
    w.PackLoaded installed ∨ ∃ pack ∈ w.locatorPack,
      (installed.packs.any fun p => p.id == pack) = false := by
  by_cases loaded : w.PackLoaded installed
  · exact .inl loaded
  · simp only [PackLoaded, not_forall, Bool.not_eq_true] at loaded
    obtain ⟨pack, named, absent⟩ := loaded
    exact .inr ⟨pack, named, absent⟩

theorem fits_iff : w.Fits installed ↔ w.PackLoaded installed ∧ w.KnowsActions installed :=
  ⟨fun h => ⟨h.pack, h.actions⟩, fun h => ⟨h.1, h.2⟩⟩

theorem isProblem_of_findings_iff :
    (∀ finding ∈ w.findings installed, finding.isProblem = false) ↔ w.Fits installed := by
  refine ⟨fits_of_findings, fun fits => ?_⟩
  obtain ⟨loaded, knows⟩ := fits_iff.mp fits
  rw [findings_of_loaded loaded, actionFindings, unknownActions_eq_nil_iff.mpr knows]
  exact List.forall_mem_singleton.mpr rfl

theorem told_findings : ((w.findings installed).map Finding.text).filter Finding.isProblemLine =
    ((w.findings installed).filter Finding.isProblem).map Finding.text := by
  rw [List.filter_map]
  exact congrArg _ (List.filter_congr fun finding _ => finding.isProblemLine_text)

theorem verdict_of_missing {pack : String} (named : pack ∈ w.locatorPack)
    (absent : (installed.packs.any fun p => p.id == pack) = false) :
    Finding.OneVerdict ((w.findings installed).map Finding.text) ∧
      ((w.findings installed).map Finding.text).filter Finding.isProblemLine =
        (w.problems installed).map Finding.text ↔ w.KnowsActions installed := by
  rw [told_findings, findings_of_missing named absent, problems_of_missing named absent,
    ← unknownActions_eq_nil_iff]
  constructor
  · rintro ⟨-, same⟩
    have rest := (List.cons.inj same).2
    exact List.map_eq_nil_iff.mp rest.symm
  · intro none
    rw [none]
    refine ⟨.problems (List.cons_ne_nil _ _) (List.forall_mem_singleton.mpr ?_), rfl⟩
    exact Finding.isProblemLine_text _

theorem verdict_of_loaded (loaded : w.PackLoaded installed) :
    Finding.OneVerdict ((w.findings installed).map Finding.text) ∧
      ((w.findings installed).map Finding.text).filter Finding.isProblemLine =
        (w.problems installed).map Finding.text ↔ w.KnowsActions installed := by
  have good : Finding.isProblemLine w.successLine = false := Finding.isProblemLine_text _
  rw [told_findings, findings_of_loaded loaded, problems_of_loaded loaded,
    ← unknownActions_eq_nil_iff, actionFindings, List.map_append]
  constructor
  · rintro ⟨one, -⟩
    generalize given : (w.unknownActions installed.expander).map Finding.text ++ _ = lines at one
    cases one with
    | success =>
        have short := congrArg List.length given
        rw [List.length_append, List.length_map] at short
        exact List.length_eq_zero_iff.mp (Nat.succ.inj short)
    | problems _ all =>
        have last := all w.successLine (given ▸ List.mem_append_right _ List.mem_cons_self)
        rw [good] at last
        cases last
  · intro none
    rw [none]
    exact ⟨.success (Finding.isSuccessLine_text _), rfl⟩

theorem reported_findings (w : Workflow) (installed : Installed) :
    w.Reported installed ((w.findings installed).map Finding.text) where
  missing := by
    intro pack named absent
    rw [findings_of_missing named absent]
    rfl
  loaded := by
    intro loaded
    rw [findings_of_loaded loaded, actionFindings, List.map_append]
    rfl
  clean := by
    rw [← isProblem_of_findings_iff, List.forall_mem_map]
    exact forall₂_congr fun finding _ => by rw [finding.isProblemLine_text]
  verdict := by
    rcases w.packLoaded_or_missing installed with loaded | ⟨pack, named, absent⟩
    · exact verdict_of_loaded loaded
    · exact verdict_of_missing named absent

end Workflow

namespace Command

theorem gives_validated {s : Surroundings (StateM ρ) ς} {location : String}
    {config : Option String} {d d' d'' : ρ} {settings : Settings} {installed : Installed}
    {ws : List Workflow}
    (prepared : Gives (prepare s.files s.yaml config) d (settings, installed) d')
    (compiled : Gives (compile s.files location settings installed.registry) d' ws d'')
    (some : ws ≠ []) :
    Gives (runValidate s location config) d (validated (Finding.all installed ws)) d'' := by
  refine prepared.bind (compiled.bind ?_)
  have filled : ws.isEmpty = false := by simpa using some
  simp only [filled]
  rfl

/-- A validation that finds workflows prints for each of them, in order, what is reported of it, and ends
well exactly if no problem is among the lines. -/
theorem validate_reports {s : Surroundings (StateM ρ) ς} {location : String} {config : Option String}
    {d d' d'' : ρ} {settings : Settings} {installed : Installed} {ws : List Workflow}
    (prepared : Gives (prepare s.files s.yaml config) d (settings, installed) d')
    (compiled : Gives (compile s.files location settings installed.registry) d' ws d'')
    (some : ws ≠ []) :
    ∃ outcome reports, (execute s (.validate location config)).run d = (outcome, d'') ∧
      outcome.err = [] ∧ outcome.out = reports.flatten ∧
      List.Forall₂ (Workflow.Reported installed) ws reports ∧
      outcome.code = if outcome.out.any Finding.isProblemLine then 1 else 0 := by
  have ran : (runValidate s location config).run.run d =
      (.ok (validated (Finding.all installed ws)), d'') := gives_validated prepared compiled some
  refine ⟨validated (Finding.all installed ws),
    ws.map fun w => (w.findings installed).map Finding.text, ?_, rfl, ?_, ?_, ?_⟩
  · simp only [execute, StateT.run_bind, ran]
    rfl
  · rw [← List.flatMap_def, ← List.map_flatMap]
    rfl
  · rw [List.forall₂_map_right_iff, List.forall₂_same]
    exact fun w _ => w.reported_findings installed
  · have same : (validated (Finding.all installed ws)).out.any Finding.isProblemLine =
        (Finding.all installed ws).any Finding.isProblem := by
      refine List.any_map.trans (congrArg _ (funext fun finding => ?_))
      exact finding.isProblemLine_text
    rw [same, validated, verdict]
    cases (Finding.all installed ws).any Finding.isProblem <;> rfl

theorem validate_greeting_reports : ∃ settings installed ws d' d'' outcome reports,
    Gives (prepare Disk.storage Node.Yaml.parse? (some "config")) (.greeting "browser.screenshot")
      (settings, installed) d' ∧
    Gives (compile Disk.storage "page" settings installed.registry) d' ws d'' ∧ ws ≠ [] ∧
    (execute .offline (.validate "page" (some "config"))).run (.greeting "browser.screenshot") =
      (outcome, d'') ∧
    outcome.err = [] ∧ outcome.out = reports.flatten ∧
    List.Forall₂ (Workflow.Reported installed) ws reports ∧
    outcome.code = if outcome.out.any Finding.isProblemLine then 1 else 0 := by
  have succeeds : ((execute .offline (.validate "page" (some "config"))).run
      (.greeting "browser.screenshot")).1.code = 0 := by decide +kernel
  have errors : ((rehearse .offline "page" (some "config")).run.run
      (.greeting "browser.screenshot")).1 = .ok [some [none]] := by decide +kernel
  obtain ⟨settings, installed, ws, d', d'', prepared, compiled, -⟩ := gives_of_validate succeeds
  have rehearsed : Gives (rehearse .offline "page" (some "config")) _ _ d'' :=
    prepared.bind (compiled.bind rfl)
  rw [rehearsed] at errors
  have some : ws ≠ [] := by
    rintro rfl
    cases Except.ok.inj errors
  obtain ⟨outcome, reports, ran, printed⟩ := validate_reports (s := .offline) prepared compiled some
  exact ⟨settings, installed, ws, d', d'', outcome, reports, prepared, compiled, some, ran, printed⟩

end Command

/-- A folder with one workflow, the only step of which is a semantic action that nobody knows. -/
def Disk.unknown (head : String) : Disk :=
  Disk.empty.addFile ["page"] (some s!"{head}\nphase: one\ndo greet\nend phase\nend workflow")

namespace Command

/-- The workflow is called sound behind the problem that it has. If it lacks a pack as well, the unknown
semantic action is not told. -/
theorem validate_unknown_misreported :
    (∃ problem success,
      ((execute .offline (.validate "page" none)).run (.unknown "workflow: w")).1.out =
        [problem, success] ∧ ¬ Finding.OneVerdict [problem, success]) ∧
    ((execute .offline (.validate "page" none)).run (.unknown "workflow: w\nlocators: app")).1.out =
      ["✗ w: locator pack 'app' is not loaded"] := by
  refine ⟨⟨"✗ w: unknown semantic action 'greet' (page:3)",
    "✓ w (1 phases, 1 steps, digest e50d888ebaa1)", by decide +kernel, ?_⟩, by decide +kernel⟩
  intro one
  cases one with
  | problems _ all =>
      have last := all _ (List.mem_cons_of_mem _ List.mem_cons_self)
      cases last

end Command
end Journey
