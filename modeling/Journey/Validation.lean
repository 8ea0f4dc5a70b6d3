import Journey.Adapter
import Journey.Workflow

/-!
Validation: what is left to check of a compiled workflow once packs and semantic actions are known.
-/

namespace Journey

inductive Finding where
  | packMissing (workflow pack : String)
  | unknownAction (workflow keyword : String) (source : SourceRef)
  | sound (workflow : String) (phases steps : Nat) (digest : String)
  deriving DecidableEq

namespace Finding

def isProblem : Finding → Bool
  | packMissing _ _ | unknownAction _ _ _ => true
  | sound _ _ _ _ => false

/-- The beginning of a digest, enough to tell workflows apart by eye. -/
def shortDigest (digest : String) : String := String.ofList (digest.toList.take 12)

def text : Finding → String
  | packMissing workflow pack => s!"✗ {workflow}: locator pack '{pack}' is not loaded"
  | unknownAction workflow keyword source =>
      s!"✗ {workflow}: unknown semantic action '{keyword}' ({source.text})"
  | sound workflow phases steps digest =>
      s!"✓ {workflow} ({phases} phases, {steps} steps, digest {shortDigest digest})"

end Finding

namespace Workflow

def unknownActions (w : Workflow) (expander : Expander) : List Finding :=
  (w.steps.filter fun step => step.isSemantic && !expander.has step.keyword).map fun step =>
    .unknownAction w.name step.keyword step.source

def actionFindings (w : Workflow) (expander : Expander) : List Finding :=
  w.unknownActions expander ++ [.sound w.name w.phases.length w.steps.length w.digest]

/-- Validates a workflow. One whose pack is not loaded is not looked at any further. -/
def findings (w : Workflow) (installed : Installed) : List Finding :=
  match w.locatorPack with
  | some pack =>
      if installed.packs.any fun p => p.id == pack then w.actionFindings installed.expander
      else [.packMissing w.name pack]
  | none => w.actionFindings installed.expander

end Workflow

def Finding.all (installed : Installed) (workflows : List Workflow) : List Finding :=
  workflows.flatMap fun w => w.findings installed

end Journey
