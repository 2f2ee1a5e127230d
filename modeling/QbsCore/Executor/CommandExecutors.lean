import QbsCore.Rules.RuleCommands
import QbsCore.Library.SortedSet
import QbsCore.Tools.Error

/-!
# Execution of commands

What the executors for processes and scripts do with a command: what they report, what they
start, and what they make of the output.

Main results:

- Definition {lit}`RuleCommands.Command.execute`: what is reported and started for a command.
- Definition {lit}`RuleCommands.Command.readData`: the data of a command that executors read.
- Theorems {lit}`RuleCommands.Command.execute_readData` and
  {lit}`RuleCommands.jobPools_readData`: no other data matter.

Current gaps:

- The file system, the quoting of arguments and the engine for scripts are given.
- The locations in errors are left out, and so are errors while the output is saved.
- The index of the first argument that goes into a response file is not negative.
-/

namespace Qbs

namespace RuleCommands

open Serialization

inductive CommandEchoMode where
  | silent
  | summary
  | commandLine
  | commandLineWithEnvironment
deriving DecidableEq

/-- The host that commands run on. -/
structure Host where
  isWindows : Bool
  pathListSeparator : String
  /-- Two names of variables are the same, as the names of files are. -/
  sameVariable : String → String → Bool
  shellQuote : String → String
  toNativeSeparators : String → String
  fromNativeSeparators : String → String
  isDirectory : String → Bool
  /-- The contents of a file, if it can be opened. -/
  readFile : String → Option String
  /-- The name of a new temporary file, if one can be opened. -/
  temporaryFile : Option String

/-- What an executor has besides the command. -/
structure ExecutionContext where
  host : Host
  echoMode : CommandEchoMode
  dryRun : Bool
  productName : String
  buildEnvironment : QProcessEnvironment
  /-- Find a program that is started in a directory. -/
  findExecutable : String → String → String

/-- What is reported about a command before it is started. -/
inductive DescriptionReport where
  | nothing
  | warning (text : String)
  | description (highlight text : String)
deriving DecidableEq

/-- A process that is started; the contents of the response file are there if it is used. -/
structure ProcessStart where
  program : String
  arguments : List String
  workingDirectory : String
  environment : QProcessEnvironment
  responseFile : Option String

/-- A script that is evaluated, with the properties in its scope. -/
structure ScriptStart where
  importScope : Option String
  properties : QVariantMap
  sourceCode : String

/-- What becomes of a command that is started. -/
inductive CommandStart where
  | skipped
  | failed (error : ErrorInfo)
  | process (start : ProcessStart)
  | script (start : ScriptStart)

/-- What is reported for a command and what is started, with the seconds until it is cancelled,
if it is. -/
structure Execution where
  report : DescriptionReport
  start : CommandStart
  timeout : Option Int

/-- The value of a variable, empty if there is none. -/
def environmentValue (env : QProcessEnvironment) (key : String) : String :=
  (env.1.lookup key).getD ""

namespace ExecutionContext

variable (ctx : ExecutionContext)

/-- What an executor reports about a command. -/
def doReportCommandDescription (c : AbstractCommand) : DescriptionReport :=
  if c.silent || ctx.echoMode = .silent then .nothing
  else if c.description.isEmpty then
    .warning "Command is not marked silent, but has no description."
  else .description c.highlight s!"{c.description} [{ctx.productName}]"

def echoesCommandLine : Bool :=
  ctx.echoMode = .commandLine || ctx.echoMode = .commandLineWithEnvironment

/-- The time after which a command that has been started is cancelled. -/
def startTimeout (c : AbstractCommand) : Option Int :=
  if (!ctx.dryRun || c.ignoreDryRun) && c.timeout > 0 then some c.timeout else none

/-! ## Processes -/

def pathListVariables : List String :=
  ["PATH", "LD_LIBRARY_PATH", "DYLD_LIBRARY_PATH", "DYLD_FRAMEWORK_PATH"]

/-- The variables of a command override the others; lists of paths are prepended. -/
def mergeEnvironments (baseEnv additionalEnv : QProcessEnvironment) : QProcessEnvironment :=
  additionalEnv.1.foldl (fun env (e : String × String) =>
    let oldValue := environmentValue baseEnv e.1
    if pathListVariables.any (ctx.host.sameVariable e.1) && !oldValue.isEmpty then
      env.insert (e.1, e.2 ++ ctx.host.pathListSeparator ++ oldValue)
    else env.insert e) baseEnv

def program (c : ProcessCommand) : String :=
  ctx.findExecutable c.program c.workingDir

def commandEnvironment (c : ProcessCommand) : QProcessEnvironment :=
  ctx.mergeEnvironments ctx.buildEnvironment c.environment

def shellInvocation (c : ProcessCommand) : String :=
  " ".intercalate ((ctx.host.toNativeSeparators (ctx.program c) :: c.arguments).map
    ctx.host.shellQuote)

def environmentVariableString (e : String × String) : String :=
  (if ctx.host.isWindows then "set " else "") ++ ctx.host.shellQuote s!"{e.1}={e.2}" ++
    (if ctx.host.isWindows then "\n" else " ")

/-- What is reported about a process command: its command line, if this is asked for. -/
def doReportProcess (c : ProcessCommand) : DescriptionReport :=
  if ctx.echoesCommandLine then
    let settings :=
      if ctx.echoMode = .commandLineWithEnvironment then
        "".intercalate ((ctx.commandEnvironment c).1.map ctx.environmentVariableString)
      else ""
    .description c.highlight
      (if !c.extendedDescription.isEmpty then c.extendedDescription
      else settings ++ ctx.shellInvocation c)
  else ctx.doReportCommandDescription c.toAbstractCommand

/-- The contents of a response file: arguments that name other such files are replaced by what
these contain. -/
def responseFileContents (c : ProcessCommand) : List String → Except ErrorInfo String
  | [] => .ok ""
  | arg :: rest =>
      if arg.startsWith c.responseFileUsagePrefix then
        let name := (arg.drop c.responseFileUsagePrefix.length).toString
        match ctx.host.readFile name with
        | none =>
            .error (.message s!"Cannot open command file '{ctx.host.toNativeSeparators name}'.")
        | some contents =>
            (responseFileContents c rest).map (contents ++ c.responseFileSeparator ++ ·)
      else
        (responseFileContents c rest).map
          (ctx.host.shellQuote arg ++ c.responseFileSeparator ++ ·)

/-- The arguments of a process with what goes into the response file, if the command line is too
long without one. -/
def commandLine (c : ProcessCommand) : Except ErrorInfo (List String × Option String) :=
  if !c.responseFileUsagePrefix.isEmpty && 0 ≤ c.responseFileThreshold &&
      c.responseFileThreshold < (ctx.shellInvocation c).length then
    match ctx.host.temporaryFile with
    | none => .error (.message "Cannot create response file ''.")
    | some name =>
        (ctx.responseFileContents c (c.arguments.drop c.responseFileArgumentIndex.toNat)).map
          fun contents =>
            (c.arguments.take c.responseFileArgumentIndex.toNat ++
              [ctx.host.toNativeSeparators (c.responseFileUsagePrefix ++ name)], some contents)
  else .ok (c.arguments, none)

/-- Start the process of a command. -/
def doStartProcess (c : ProcessCommand) : CommandStart :=
  let workingDir := ctx.host.fromNativeSeparators c.workingDir
  if ctx.dryRun && !c.ignoreDryRun then .skipped
  else if !workingDir.isEmpty && !ctx.host.isDirectory workingDir then
    .failed (.message (s!"The working directory '{ctx.host.toNativeSeparators workingDir}' for " ++
      s!"process '{ctx.host.toNativeSeparators (ctx.program c)}' is invalid."))
  else
    match ctx.commandLine c with
    | .error error => .failed error
    | .ok (arguments, responseFile) =>
        .process ⟨ctx.program c, arguments, workingDir, ctx.commandEnvironment c, responseFile⟩

/-! ## Scripts -/

/-- What is reported about a script. -/
def doReportScript (c : JavaScriptCommand) : DescriptionReport :=
  if ctx.echoesCommandLine && !c.extendedDescription.isEmpty then
    .description c.highlight c.extendedDescription
  else ctx.doReportCommandDescription c.toAbstractCommand

/-- Evaluate the script of a command. -/
def doStartScript (c : JavaScriptCommand) : CommandStart :=
  if ctx.dryRun && !c.ignoreDryRun then .skipped
  else
    .script ⟨if c.scopeName.isEmpty then none else some c.scopeName, c.properties, c.sourceCode⟩

end ExecutionContext

/-- A started command is watched. -/
def ExecutionContext.watched (ctx : ExecutionContext) (c : AbstractCommand)
    (report : DescriptionReport) (start : CommandStart) : Execution where
  report := report
  start := start
  timeout :=
    match start with
    | .process _ | .script _ => ctx.startTimeout c
    | .skipped | .failed _ => none

/-- Execute a command with the executor for its type. -/
def Command.execute (ctx : ExecutionContext) : Command → Execution
  | .process c =>
      ctx.watched c.toAbstractCommand (ctx.doReportProcess c) (ctx.doStartProcess c)
  | .javaScript c =>
      ctx.watched c.toAbstractCommand (ctx.doReportScript c) (ctx.doStartScript c)

/-! ## Output of processes -/

/-- What has become of a process. -/
structure ProcessOutcome where
  exitCode : Int
  processError : Bool
  stdOut : String
  stdErr : String

/-- What is done with a kind of output: its lines are reported, or it goes to a file. -/
inductive OutputTarget where
  | lines (l : List String)
  | file (path contents : String)
deriving DecidableEq

/-- Filter some output and send it to where it belongs. The filter is a function of the
properties in its scope, its source code and the output. -/
def processOutput (filterProcessOutput : QVariantMap → String → String → String)
    (c : ProcessCommand) (filterFunction redirectPath content : String) : OutputTarget :=
  let contentString :=
    if filterFunction.isEmpty then content
    else filterProcessOutput c.properties filterFunction content
  if !redirectPath.isEmpty then .file redirectPath contentString
  else .lines ((contentString.splitOn "\n").filter fun l => !l.isEmpty)

/-- The result of a process with its output: whether it has succeeded, and both outputs. -/
def sendProcessOutput (filterProcessOutput : QVariantMap → String → String → String)
    (c : ProcessCommand) (outcome : ProcessOutcome) : Bool × OutputTarget × OutputTarget :=
  let failureExit := outcome.exitCode % 0x100000000 > c.maxExitCode % 0x100000000
  (!outcome.processError && !failureExit,
    processOutput filterProcessOutput c c.stdoutFilterFunction c.stdoutFilePath outcome.stdOut,
    processOutput filterProcessOutput c c.stderrFilterFunction c.stderrFilePath outcome.stdErr)

/-! ## Job pools -/

/-- The pools that the job for a list of commands needs. -/
def jobPools (l : CommandList) : SortedSet String :=
  SortedSet.ofList ((l.map fun c => c.base.jobPool).filter fun pool => !pool.isEmpty)

/-! ## Data that are read -/

/-- The data of a command that executors read: all but its location and the values of variables,
which are cleared before a process is set up. -/
def Command.readData : Command → Command
  | .process c => .process { c with codeLocation := none, relevantEnvValues := .empty }
  | .javaScript c => .javaScript { c with codeLocation := none }

theorem responseFileContents_readData (ctx : ExecutionContext) (c : ProcessCommand)
    (location : Option CodeLocation) (values : QProcessEnvironment) (arguments : List String) :
    ctx.responseFileContents { c with codeLocation := location, relevantEnvValues := values }
      arguments = ctx.responseFileContents c arguments := by
  induction arguments with
  | nil => rfl
  | cons arg rest ih =>
      unfold ExecutionContext.responseFileContents
      rw [ih]

/-- Executing a command depends on the data that are read only. -/
theorem Command.execute_readData (ctx : ExecutionContext) (c : Command) :
    c.readData.execute ctx = c.execute ctx := by
  cases c with
  | process c =>
      have hline : ctx.commandLine { c with codeLocation := none, relevantEnvValues := .empty } =
          ctx.commandLine c := by
        unfold ExecutionContext.commandLine
        rw [responseFileContents_readData]
        rfl
      have hstart : ctx.doStartProcess { c with codeLocation := none, relevantEnvValues := .empty } =
          ctx.doStartProcess c := by
        unfold ExecutionContext.doStartProcess
        rw [hline]
        rfl
      unfold readData execute
      dsimp only
      rw [hstart]
      rfl
  | javaScript c => rfl

@[simp]
theorem Command.jobPool_readData (c : Command) : c.readData.base.jobPool = c.base.jobPool := by
  cases c <;> rfl

@[simp]
theorem Command.properties_readData (c : Command) :
    c.readData.base.properties = c.base.properties := by
  cases c <;> rfl

@[simp]
theorem Command.scopeName_readData (c : Command) : c.readData.scopeName = c.scopeName := by
  cases c <;> rfl

/-- The job pools depend on the data that are read only. -/
theorem jobPools_readData (l : CommandList) : jobPools (l.map Command.readData) = jobPools l := by
  unfold jobPools
  rw [List.map_map]
  simp only [Function.comp_def, Command.jobPool_readData]

/-- Lists with the same data for executors are executed in the same way. -/
theorem map_execute_eq {l₁ l₂ : CommandList}
    (h : l₁.map Command.readData = l₂.map Command.readData) (ctx : ExecutionContext) :
    l₁.map (Command.execute ctx) = l₂.map (Command.execute ctx) := by
  have hread (l : CommandList) :
      (l.map Command.readData).map (Command.execute ctx) = l.map (Command.execute ctx) := by
    rw [List.map_map]
    exact List.map_congr_left fun c _ => Command.execute_readData ctx c
  rw [← hread l₁, h, hread]

end RuleCommands

end Qbs
