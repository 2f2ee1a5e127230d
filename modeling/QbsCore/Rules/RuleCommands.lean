import QbsCore.Serialization.Types
import Mathlib.Data.List.Forall2

/-!
# Commands of rules

A prepare script gives a list of commands: each starts a process or evaluates a script.  Lists
of commands are compared to find out whether the outputs of a transformer are still right.

Main results:

- Definition {lit}`RuleCommands.isEqual`: the comparison of two lists of commands.
- Theorem {lit}`RuleCommands.isEqual_iff`: what it compares.

Current gaps:

- The comparison of variant maps is given.
- The keys of environments are compared by their letters, as on Unix.
-/

namespace Qbs

namespace RuleCommands

open Serialization

structure CodeLocation where
  filePath : String
  line : Int
  column : Int
deriving DecidableEq

/-- What all commands have. -/
structure AbstractCommand where
  description : String
  extendedDescription : String
  highlight : String
  ignoreDryRun : Bool
  silent : Bool
  codeLocation : Option CodeLocation
  jobPool : String
  timeout : Int
  properties : QVariantMap

structure ProcessCommand extends AbstractCommand where
  program : String
  arguments : List String
  workingDir : String
  maxExitCode : Int
  stdoutFilterFunction : String
  stderrFilterFunction : String
  responseFileThreshold : Int
  responseFileArgumentIndex : Int
  responseFileUsagePrefix : String
  responseFileSeparator : String
  environment : QProcessEnvironment
  relevantEnvVars : List String
  relevantEnvValues : QProcessEnvironment
  stdoutFilePath : String
  stderrFilePath : String

structure JavaScriptCommand extends AbstractCommand where
  /-- The name of the import that the script sees the contents of, if any. -/
  scopeName : String
  sourceCode : String

inductive Command where
  | process (cmd : ProcessCommand)
  | javaScript (cmd : JavaScriptCommand)

abbrev CommandList :=
  List Command

def Command.base : Command → AbstractCommand
  | .process cmd => cmd.toAbstractCommand
  | .javaScript cmd => cmd.toAbstractCommand

/-- The name of the import scope of a script; a process has none. -/
def Command.scopeName : Command → String
  | .process _ => ""
  | .javaScript cmd => cmd.scopeName

/-! ## Comparison -/

section

variable (sameValues : QVariantMap → QVariantMap → Bool)

/-- Compare what all commands have. -/
def AbstractCommand.equals (c other : AbstractCommand) : Bool :=
  c.description = other.description
    && c.extendedDescription = other.extendedDescription
    && c.highlight = other.highlight
    && c.ignoreDryRun = other.ignoreDryRun
    && c.silent = other.silent
    && c.jobPool = other.jobPool
    && c.timeout = other.timeout
    && sameValues c.properties other.properties

def ProcessCommand.equals (c other : ProcessCommand) : Bool :=
  if !c.toAbstractCommand.equals sameValues other.toAbstractCommand then false
  else c.program = other.program
    && c.arguments = other.arguments
    && c.workingDir = other.workingDir
    && c.maxExitCode = other.maxExitCode
    && c.stdoutFilterFunction = other.stdoutFilterFunction
    && c.stderrFilterFunction = other.stderrFilterFunction
    && c.responseFileThreshold = other.responseFileThreshold
    && c.responseFileArgumentIndex = other.responseFileArgumentIndex
    && c.responseFileUsagePrefix = other.responseFileUsagePrefix
    && c.responseFileSeparator = other.responseFileSeparator
    && c.stdoutFilePath = other.stdoutFilePath
    && c.stderrFilePath = other.stderrFilePath
    && c.relevantEnvVars = other.relevantEnvVars
    && c.relevantEnvValues = other.relevantEnvValues
    && c.environment = other.environment

def JavaScriptCommand.equals (c other : JavaScriptCommand) : Bool :=
  if !c.toAbstractCommand.equals sameValues other.toAbstractCommand then false
  else c.sourceCode = other.sourceCode

/-- Commands of different types are different. -/
def Command.equals : Command → Command → Bool
  | .process c, .process other => c.equals sameValues other
  | .javaScript c, .javaScript other => c.equals sameValues other
  | .process _, .javaScript _ | .javaScript _, .process _ => false

/-- Compare the commands at the same places. -/
def commandsEqual : CommandList → CommandList → Bool
  | c :: l₁, other :: l₂ => if !c.equals sameValues other then false else commandsEqual l₁ l₂
  | _, _ => true

/-- The comparison of two lists of commands. -/
def isEqual (l₁ l₂ : CommandList) : Bool :=
  if l₁.length ≠ l₂.length then false
  else commandsEqual sameValues l₁ l₂

end

/-! ## What the comparison compares -/

variable {sameValues : QVariantMap → QVariantMap → Bool}

/-- The compared data of two commands of the same type agree. -/
def ComparedDataAgree (sameValues : QVariantMap → QVariantMap → Bool) : Command → Command → Prop
  | .process c, .process c' =>
      sameValues c.properties c'.properties = true ∧
        { c with codeLocation := none, properties := .empty } =
          { c' with codeLocation := none, properties := .empty }
  | .javaScript c, .javaScript c' =>
      sameValues c.properties c'.properties = true ∧
        { c with codeLocation := none, properties := .empty, scopeName := "" } =
          { c' with codeLocation := none, properties := .empty, scopeName := "" }
  | .process _, .javaScript _ | .javaScript _, .process _ => False

theorem Command.equals_iff {c c' : Command} :
    c.equals sameValues c' = true ↔ ComparedDataAgree sameValues c c' := by
  cases c with
  | process c =>
      cases c' with
      | process c' =>
          simp only [equals, ProcessCommand.equals, AbstractCommand.equals, ComparedDataAgree,
            ProcessCommand.mk.injEq, AbstractCommand.mk.injEq]
          grind
      | javaScript c' => simp [equals, ComparedDataAgree]
  | javaScript c =>
      cases c' with
      | process c' => simp [equals, ComparedDataAgree]
      | javaScript c' =>
          simp only [equals, JavaScriptCommand.equals, AbstractCommand.equals, ComparedDataAgree,
            JavaScriptCommand.mk.injEq, AbstractCommand.mk.injEq]
          grind

theorem commandsEqual_iff {l₁ l₂ : CommandList} (hlength : l₁.length = l₂.length) :
    commandsEqual sameValues l₁ l₂ = true ↔
      List.Forall₂ (ComparedDataAgree sameValues) l₁ l₂ := by
  induction l₁ generalizing l₂ with
  | nil =>
      cases l₂ with
      | nil => exact iff_of_true rfl List.Forall₂.nil
      | cons c' l₂ => cases hlength
  | cons c l₁ ih =>
      cases l₂ with
      | nil => cases hlength
      | cons c' l₂ =>
          rw [List.forall₂_cons, ← ih (Nat.succ.inj hlength), ← Command.equals_iff, commandsEqual]
          cases c.equals sameValues c' with
          | false => simp
          | true => simp

/-- Lists of commands are equal exactly if the compared data agree at all places. -/
theorem isEqual_iff {l₁ l₂ : CommandList} :
    isEqual sameValues l₁ l₂ = true ↔ List.Forall₂ (ComparedDataAgree sameValues) l₁ l₂ := by
  unfold isEqual
  split_ifs with hlength
  · exact iff_of_false (by simp) fun h => hlength h.length_eq
  · rw [not_not] at hlength
    exact commandsEqual_iff hlength

end RuleCommands

end Qbs
