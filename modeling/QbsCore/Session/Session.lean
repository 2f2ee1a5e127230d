import QbsCore.Api.ProjectDataJson

/-!
# Sessions

A session keeps a project for a client.  Requests come in at any time, also while a job is running,
and a job ends at any time after it was started.  A request is answered right away, by the job that
it starts, or not at all.

Main results:

- Definition {lit}`Session.handlePacket`: what a session does with a request.
- Definition {lit}`Session.handleFinished`: what it does when a job has ended.
- Definition {lit}`Session.Step`: one of the two.

Current gaps:

- Messages about progress, commands and processes, and log messages.
- What a job does is only seen by its outcome.
-/

namespace Qbs

namespace Session

open Api

/-! ## Errors -/

structure ErrorItem where
  description : String
  codeLocation : Api.CodeLocation

structure ErrorInfo where
  items : List ErrorItem
  internalError : Bool

namespace ErrorInfo

def none : ErrorInfo :=
  ⟨[], false⟩

def ofText (description : String) : ErrorInfo :=
  ⟨[⟨description, Api.CodeLocation.none⟩], false⟩

def hasError (error : ErrorInfo) : Bool :=
  !error.items.isEmpty

/-- Append the items of another error. -/
def append (error e : ErrorInfo) : ErrorInfo :=
  { error with items := error.items ++ e.items }

end ErrorInfo

/-! ## Requests -/

inductive RequestType where
  | resolveProject
  | buildProject
  | cleanProject
  | installProject
  | addFiles
  | removeFiles
  | getRunEnvironment
  | getGeneratedFilesForSources
  | releaseProject
  | quit
  | cancelJob
  | unknown
deriving DecidableEq

def requestTypeOfString (type : String) : RequestType :=
  if type = "resolve-project" then .resolveProject
  else if type = "build-project" then .buildProject
  else if type = "clean-project" then .cleanProject
  else if type = "install-project" then .installProject
  else if type = "add-files" then .addFiles
  else if type = "remove-files" then .removeFiles
  else if type = "get-run-environment" then .getRunEnvironment
  else if type = "get-generated-files-for-sources" then .getGeneratedFilesForSources
  else if type = "release-project" then .releaseProject
  else if type = "quit" then .quit
  else if type = "cancel-job" then .cancelJob
  else .unknown

def requestType (request : JsonObject) : RequestType :=
  requestTypeOfString (request.value "type").toString

inductive ProjectDataMode where
  | never
  | always
  | onlyIfChanged
deriving DecidableEq

def dataModeFromRequest (request : JsonObject) : ProjectDataMode :=
  if (request.value "data-mode").toString = "only-if-changed" then .onlyIfChanged
  else if (request.value "data-mode").toString = "always" then .always
  else .never

/-- The elements of an array. There are none in any other value. -/
def toArray : Variant → List Variant
  | .list l => l
  | _ => []

def stringListFromJson (v : Variant) : List String :=
  (toArray v).map Variant.toString

def modulePropertiesFromRequest (request : JsonObject) : List String :=
  stringListFromJson (request.value "module-properties")

/-- The values of an environment are strings. -/
def environmentFromJson (v : Variant) : List (String × String) :=
  v.toMap.map fun e => (e.1, e.2.toString)

/-! ## Projects -/

/-- What a session can find out about its project. -/
structure Project where
  projectData : ProjectData
  buildSystemFiles : List String
  bgFilePath : String
  profileData : VariantMap
  overriddenProperties : VariantMap

/-- The data of no project. -/
def noProjectData : ProjectData :=
  ⟨"", Api.CodeLocation.none, false, false, [], [], ""⟩

/-- Data cannot be had from a project that is not valid. -/
def projectDataOf : Option Project → ProjectData
  | none => noProjectData
  | some project => project.projectData

/-- The operations of a project that give their result right away. -/
structure ProjectApi where
  /-- Add a file after a number of others. -/
  addFiles : Project → Api.ProductData → GroupData → Nat → String → ErrorInfo
  /-- Remove a file after a number of others. -/
  removeFiles : Project → Api.ProductData → GroupData → Nat → String → ErrorInfo
  runEnvironment : Project → Api.ProductData → List (String × String) → List String →
    ErrorInfo × List (String × String)
  generatedFiles : Project → Api.ProductData → String → Bool → List String → List String

/-! ## Products by name -/

section Names

variable (multiplexIdToString : String → String)

def fullDisplayName (p : Api.ProductData) : String :=
  Qbs.fullDisplayName multiplexIdToString p.name p.multiplexConfigurationId

/-- The products with one of the names, each of which stands for one product, and the names that
are left. -/
def productsByName : List Api.ProductData → List String → List Api.ProductData × List String
  | [], productNames => ([], productNames)
  | p :: products, productNames =>
      if productNames = [] then ([], [])
      else if fullDisplayName multiplexIdToString p ∈ productNames then
        let found := productsByName products
          (productNames.erase (fullDisplayName multiplexIdToString p))
        (p :: found.1, found.2)
      else productsByName products productNames

mutual

def getProductsByNameForProject : ProjectData → List String → List Api.ProductData × List String
  | ⟨_, _, _, _, products, subProjects, _⟩, productNames =>
      let found := productsByName multiplexIdToString products productNames
      if found.2 = [] then found
      else
        let rest := getProductsByNameForProjects subProjects found.2
        (found.1 ++ rest.1, rest.2)

def getProductsByNameForProjects :
    List ProjectData → List String → List Api.ProductData × List String
  | [], productNames => ([], productNames)
  | p :: projects, productNames =>
      let found := getProductsByNameForProject p productNames
      if found.2 = [] then found
      else
        let rest := getProductsByNameForProjects projects found.2
        (found.1 ++ rest.1, rest.2)

end

end Names

inductive ProductSelectionType where
  | defaultOnly
  | withNonDefault
deriving DecidableEq

/-- All products of a kind or, if there are any, some products. -/
structure ProductSelection where
  selection : ProductSelectionType
  products : List Api.ProductData

/-! ## Jobs -/

inductive JobType where
  | setupProject
  | build
  | clean
  | install
deriving DecidableEq

inductive JobState where
  | running
  | canceling
  | finished
deriving DecidableEq

/-- A job with the request that it was started for. At its end it calls the session if it is
connected, and ends the program if it quits. -/
structure AbstractJob where
  type : JobType
  request : JsonObject
  selection : ProductSelection
  state : JobState
  error : ErrorInfo
  connected : Bool
  quits : Bool

namespace AbstractJob

def cancel (job : AbstractJob) : AbstractJob :=
  if job.state = .running then { job with state := .canceling } else job

def disconnect (job : AbstractJob) : AbstractJob :=
  { job with connected := false }

def finish (job : AbstractJob) (error : ErrorInfo) : AbstractJob :=
  { job with state := .finished, error := error }

end AbstractJob

/-- What comes of the work of a job. -/
structure Outcome where
  error : ErrorInfo
  /-- What the work makes of the project of the session. -/
  existingProject : Project → Project
  /-- Whether the build data of that project were moved to the new project. -/
  buildDataMoved : Bool
  /-- The project that a setup job gives. -/
  newProject : Option Project

/-! ## Replies -/

structure Reply where
  type : String
  error : ErrorInfo
  projectData : Option JsonObject
  failedFiles : List String
  /-- The entries that belong to one type of reply. -/
  entries : JsonObject

/-- A reply and the request in whose handler it is sent. -/
structure Answer where
  request : JsonObject
  reply : Reply

def Reply.ofType (type : String) : Reply :=
  ⟨type, ErrorInfo.none, none, [], []⟩

/-- The type of the replies to requests of a type, if they are answered. -/
def replyType : RequestType → Option String
  | .resolveProject => some "project-resolved"
  | .buildProject => some "project-built"
  | .cleanProject => some "project-cleaned"
  | .installProject => some "install-done"
  | .addFiles => some "files-added"
  | .removeFiles => some "files-removed"
  | .getRunEnvironment => some "run-environment"
  | .getGeneratedFilesForSources => some "generated-files-for-sources"
  | .releaseProject => some "project-released"
  | .quit => none
  | .cancelJob => none
  | .unknown => some "protocol-error"

end Session

open Api in
/-- The state of a session. Its jobs are numbered in the order in which they were started. -/
structure Session where
  jobs : List Session.AbstractJob
  currentJob : Option Nat
  project : Option Session.Project
  projectData : ProjectData
  /-- The directory of the settings. -/
  settings : Option String
  /-- A request to resolve that waits for the end of a job that was canceled. -/
  resolveRequest : JsonObject
  moduleProperties : List String
  /-- Whether requests are still read. -/
  reading : Bool
  exited : Bool
  sent : List Session.Answer

namespace Session

open Api

def initial : Session :=
  ⟨[], none, none, noProjectData, none, [], [], true, false, []⟩

/-! ## Replies with errors -/

def sendPacket (s : Session) (request : JsonObject) (reply : Reply) : Session :=
  { s with sent := s.sent ++ [⟨request, reply⟩] }

def sendErrorInfo (s : Session) (request : JsonObject) (replyType : String) (error : ErrorInfo) :
    Session :=
  s.sendPacket request { Reply.ofType replyType with error := error }

def sendErrorReply (s : Session) (request : JsonObject) (replyType message : String) : Session :=
  s.sendErrorInfo request replyType (ErrorInfo.ofText message)

/-- Why a request cannot be handled that needs a project and no running job. -/
def prerequisiteError (s : Session) : Option String :=
  if s.currentJob.isSome then some "Another job is still running."
  else if s.project.isNone then some "No valid project. You need to resolve first."
  else none

/-! ## Project data in replies -/

section Data

variable (ext : Externals)

/-- The entries that only a reply about resolving has. -/
def insertTopLevelData (s : Session) (projectData : JsonObject) : JsonObject :=
  let project := s.project.getD ⟨noProjectData, [], "", [], []⟩
  [("build-directory", Variant.string s.projectData.buildDir),
    ("build-system-files", .ofStringList project.buildSystemFiles),
    ("build-graph-file-path", .string project.bgFilePath),
    ("profile-data", .map project.profileData),
    ("overridden-properties", .map project.overriddenProperties)].foldl
      (fun obj e => obj.insert e.1 e.2) projectData

def insertProjectDataIfNecessary (s : Session) (reply : Reply) (dataMode : ProjectDataMode)
    (oldProjectData : ProjectData) (includeTopLevelData : Bool) : Reply :=
  if dataMode = .always ∨
      (dataMode = .onlyIfChanged ∧ s.projectData.equals ext oldProjectData = false) then
    let projectData := s.projectData.toJson ext s.moduleProperties
    { reply with
      projectData :=
        some (if includeTopLevelData then s.insertTopLevelData projectData else projectData) }
  else reply

def getProductsByName (s : Session) (productNames : List String) : List Api.ProductData :=
  (getProductsByNameForProject ext.multiplexIdToString s.projectData productNames).1

/-- The product with a name, if there is one that is valid. -/
def getProductByName (s : Session) (productName : String) : Option Api.ProductData :=
  (s.getProductsByName ext [productName]).head?.filter Api.ProductData.isValid

def getProductSelection (s : Session) (request : JsonObject) : ProductSelection :=
  match request.value "products" with
  | .list l =>
      ⟨.defaultOnly, s.getProductsByName ext (stringListFromJson (.list l))⟩
  | v => ⟨if v.toString = "all" then .withNonDefault else .defaultOnly, []⟩

/-! ## Requests that start a job -/

def modifyJob (s : Session) (id : Nat) (f : AbstractJob → AbstractJob) : Session :=
  { s with jobs := s.jobs.modify id f }

/-- Start a job, which becomes the current one. -/
def startJob (s : Session) (type : JobType) (request : JsonObject) (selection : ProductSelection) :
    Session :=
  { s with
    jobs := s.jobs ++ [⟨type, request, selection, .running, ErrorInfo.none, true, false⟩]
    currentJob := some s.jobs.length }

/-- Whether the current job resolves the project and was canceled. -/
def resolvingCanceled (s : Session) : Bool :=
  match s.currentJob.bind fun id => s.jobs[id]? with
  | some job => job.type = .setupProject && job.state = .canceling
  | none => false

def setupProject (s : Session) (request : JsonObject) : Session :=
  if s.currentJob.isSome then
    if s.resolvingCanceled then { s with resolveRequest := request }
    else
      s.sendErrorReply request "project-resolved"
        "Cannot start resolving while another job is still running."
  else
    startJob
      { s with
        moduleProperties := modulePropertiesFromRequest request
        settings := some (request.value "settings-directory").toString }
      .setupProject request ⟨.defaultOnly, []⟩

/-- The settings must be there. -/
def buildProject (s : Session) (request : JsonObject) : Option Session :=
  match s.prerequisiteError with
  | some message => some (s.sendErrorReply request "project-built" message)
  | none =>
      s.settings.map fun _ =>
        { s.startJob .build request (s.getProductSelection ext request) with
          moduleProperties := modulePropertiesFromRequest request }

def cleanProject (s : Session) (request : JsonObject) : Session :=
  match s.prerequisiteError with
  | some message => s.sendErrorReply request "project-cleaned" message
  | none => s.startJob .clean request (s.getProductSelection ext request)

def installProject (s : Session) (request : JsonObject) : Session :=
  match s.prerequisiteError with
  | some message => s.sendErrorReply request "install-done" message
  | none => s.startJob .install request (s.getProductSelection ext request)

/-! ## Changes of source file lists -/

/-- What is to be changed, or why that cannot be done. -/
structure FileUpdateData where
  product : Option Api.ProductData
  group : Option GroupData
  filePaths : List String
  error : Option String

def prepareFileUpdate (s : Session) (request : JsonObject) : FileUpdateData :=
  let productName := (request.value "product").toString
  let groupName := (request.value "group").toString
  let product := s.getProductByName ext productName
  let group := (product.bind fun p => p.groups.find? fun g => g.name = groupName).filter
    GroupData.isValid
  { product := product
    group := group
    filePaths := stringListFromJson (request.value "files")
    error :=
      if s.project.isNone then some "No valid project. You need to resolve first."
      else if s.currentJob.isSome then
        some "Cannot update the list of source files while a job is running."
      else if product.isNone then some ("Product '" ++ productName ++ "' not found in project.")
      else if group.isNone then
        some ("Group '" ++ groupName ++ "' not found in product '" ++ productName ++ "'.")
      else none }

/-- The main message stands twice in the error: what is appended to it are its own items. -/
def createErrorReply (data : FileUpdateData) (type mainMessage : String) : Reply :=
  { Reply.ofType type with
    error := (ErrorInfo.ofText mainMessage).append (ErrorInfo.ofText mainMessage)
    failedFiles := data.filePaths }

/-- Update the files one by one. -/
def updateFiles (s : Session) (request : JsonObject) (replyType failure : String)
    (update : Project → Api.ProductData → GroupData → Nat → String → ErrorInfo) : Session :=
  let data := s.prepareFileUpdate ext request
  match data.error, s.project, data.product, data.group with
  | none, some project, some product, some group =>
      let errors := data.filePaths.mapIdx fun i filePath =>
        (filePath, update project product group i filePath)
      let failed := errors.filter fun e => e.2.hasError
      let reply :=
        { Reply.ofType replyType with
          error := failed.foldl (fun error e => error.append e.2) ErrorInfo.none
          failedFiles := failed.map Prod.fst }
      s.sendPacket request
        (if reply.failedFiles.length ≠ data.filePaths.length then
          s.insertProjectDataIfNecessary ext reply .always noProjectData false
        else reply)
  | error, _, _, _ =>
      s.sendPacket request (createErrorReply data replyType (failure ++ error.getD ""))

def addFiles (s : Session) (api : ProjectApi) (request : JsonObject) : Session :=
  s.updateFiles ext request "files-added" "Failed to add files to project: "
    api.addFiles

def removeFiles (s : Session) (api : ProjectApi) (request : JsonObject) : Session :=
  s.updateFiles ext request "files-removed"
    "Failed to remove files from project: " api.removeFiles

/-! ## Requests for information -/

/-- The environment to run a product in. The program also hands the pointer to its settings on; here
they are left to `api` and not read. -/
def getRunEnvironment (s : Session) (api : ProjectApi) (request : JsonObject) : Session :=
  let productName := (request.value "product").toString
  match s.prerequisiteError, s.project, s.getProductByName ext productName with
  | some message, _, _ => s.sendErrorReply request "run-environment" message
  | none, some project, some product =>
      let result := api.runEnvironment project product
        (environmentFromJson (request.value "base-environment"))
        (stringListFromJson (request.value "config"))
      if result.1.hasError then s.sendErrorInfo request "run-environment" result.1
      else
        s.sendPacket request
          { Reply.ofType "run-environment" with
            entries := objectOf
              [("full-environment", .map (objectOf (result.2.map fun e => (e.1, .string e.2))))] }
  | none, _, _ =>
      s.sendErrorReply request "run-environment" ("No such product '" ++ productName ++ "'.")

/-- The files generated from one source file, if there are any. -/
def generatedFilesForSource (api : ProjectApi) (project : Project) (product : Api.ProductData)
    (request : JsonObject) : Option Variant :=
  let filePath := (request.value "source-file").toString
  let files := api.generatedFiles project product filePath
    (request.value "recursive" = .bool true) (stringListFromJson (request.value "tags"))
  if files = [] then none
  else some (.map (objectOf
    [("source-file", .string filePath), ("generated-files", .ofStringList files)]))

/-- The files generated from some source files of a product, if there are any. -/
def generatedFilesForProduct (s : Session) (api : ProjectApi) (project : Project)
    (productObject : JsonObject) : Option Variant := do
  let product ← s.getProductByName ext
    (productObject.value "full-display-name").toString
  let results := (toArray (productObject.value "requests")).filterMap fun r =>
    generatedFilesForSource api project product r.toMap
  if results = [] then none
  else some (.map (objectOf
    [("full-display-name", .string (fullDisplayName ext.multiplexIdToString product)),
      ("results", .list results)]))

def getGeneratedFilesForSources (s : Session) (api : ProjectApi) (request : JsonObject) :
    Session :=
  match s.prerequisiteError, s.project with
  | some message, _ => s.sendErrorReply request "generated-files-for-sources" message
  | none, project =>
      s.sendPacket request
        { Reply.ofType "generated-files-for-sources" with
          entries := objectOf
            [("products", .list ((toArray (request.value "products")).filterMap fun p =>
              project.bind fun project =>
                s.generatedFilesForProduct ext api project p.toMap))] }

/-! ## The end of jobs, projects and sessions -/

/-- The current job is canceled and does not call the session any more. -/
def dropCurrentJob (s : Session) : Session :=
  match s.currentJob with
  | some id => s.modifyJob id fun job => job.disconnect.cancel
  | none => s

def releaseProject (s : Session) (request : JsonObject) : Session :=
  if s.project.isNone then s.sendErrorReply request "project-released" "No open project."
  else
    { s.dropCurrentJob with
      currentJob := none
      project := none
      projectData := noProjectData
      resolveRequest := [] }.sendPacket request (Reply.ofType "project-released")

def cancelCurrentJob (s : Session) : Session :=
  match s.currentJob with
  | some id => { s.modifyJob id AbstractJob.cancel with resolveRequest := [] }
  | none => s

def quitSession (s : Session) : Session :=
  match s.currentJob with
  | some id =>
      { s.modifyJob id fun job => { job.disconnect with quits := true }.cancel with
        reading := false }
  | none => { s with reading := false, exited := true }

/-! ## Requests -/

/-- What a session does with a request. There is no result if something is used that is not
there. -/
def handlePacket (s : Session) (api : ProjectApi) (request : JsonObject) : Option Session :=
  match requestType request with
  | .resolveProject => some (s.setupProject request)
  | .buildProject => s.buildProject ext request
  | .cleanProject => some (s.cleanProject ext request)
  | .installProject => some (s.installProject ext request)
  | .addFiles => some (s.addFiles ext api request)
  | .removeFiles => some (s.removeFiles ext api request)
  | .getRunEnvironment => some (s.getRunEnvironment ext api request)
  | .getGeneratedFilesForSources =>
      some (s.getGeneratedFilesForSources ext api request)
  | .releaseProject => some (s.releaseProject request)
  | .quit => some s.quitSession
  | .cancelJob => some s.cancelCurrentJob
  | .unknown =>
      some (s.sendErrorReply request "protocol-error"
        ("Unknown request type '" ++ (request.value "type").toString ++ "'."))

/-! ## Jobs that have ended -/

/-- The current job is deleted. -/
def deleteCurrentJob (s : Session) : Option Session :=
  s.currentJob.map fun _ => { s with currentJob := none }

/-- The error of the current job. -/
def currentError (s : Session) : Option ErrorInfo :=
  (s.currentJob.bind fun id => s.jobs[id]?).map AbstractJob.error

/-- A setup job makes the existing project invalid if there is a new one or the build data of the
existing one are gone. -/
def finishSetup (s : Session) (outcome : Outcome) : Session :=
  if outcome.error.hasError = false ∨ outcome.buildDataMoved then { s with project := none } else s

def setupFinished (s : Session) (job : AbstractJob) (outcome : Outcome) : Option Session :=
  if s.resolveRequest ≠ [] then
    -- The job was canceled and superseded by a newer request.
    ({ s with resolveRequest := [] } : Session).deleteCurrentJob.map fun t =>
      t.setupProject s.resolveRequest
  else
    let t :=
      { s with project := outcome.newProject, projectData := projectDataOf outcome.newProject }
    let reply := Reply.ofType "project-resolved"
    (t.sendPacket job.request
      (if outcome.error.hasError then { reply with error := outcome.error }
      else t.insertProjectDataIfNecessary ext reply
        (dataModeFromRequest job.request) s.projectData true)).deleteCurrentJob

def buildFinished (s : Session) (job : AbstractJob) (outcome : Outcome) : Option Session := do
  let t := { s with projectData := projectDataOf s.project }
  let reply := Reply.ofType "project-built"
  let reply ←
    if outcome.error.hasError then t.currentError.map fun error => { reply with error := error }
    else some (t.insertProjectDataIfNecessary ext reply
      (dataModeFromRequest job.request) s.projectData false)
  (t.sendPacket job.request reply).deleteCurrentJob

/-- The end of a job after which the project data is what it was. -/
def plainFinished (s : Session) (job : AbstractJob) (outcome : Outcome) (type : String) :
    Option Session := do
  let error ← if outcome.error.hasError then s.currentError else some ErrorInfo.none
  (s.sendErrorInfo job.request type error).deleteCurrentJob

/-- A job has ended. -/
def handleFinished (s : Session) (id : Nat) (job : AbstractJob) (outcome : Outcome) :
    Option Session :=
  let t := s.modifyJob id fun job => job.finish outcome.error
  if job.connected then
    let t := { t with project := s.project.map outcome.existingProject }
    match job.type with
    | .setupProject => (t.finishSetup outcome).setupFinished ext job outcome
    | .build => t.buildFinished ext job outcome
    | .clean => t.plainFinished job outcome "project-cleaned"
    | .install => t.plainFinished job outcome "install-done"
  else if job.quits then some { t with exited := true }
  else some t

/-! ## Steps -/

end Data

/-- What happens next: a request comes in, or a job ends. -/
inductive Event where
  | packet (request : JsonObject) (api : ProjectApi)
  | finished (id : Nat) (outcome : Outcome)

/-- Whether an event can happen. -/
def Enabled (s : Session) : Event → Prop
  | .packet _ _ => s.exited = false ∧ s.reading = true
  | .finished id _ =>
      s.exited = false ∧ ∃ job, s.jobs[id]? = some job ∧ job.state ≠ .finished

/-- What the session does with an event. -/
def handle (ext : Externals) (s : Session) : Event → Option Session
  | .packet request api => s.handlePacket ext api request
  | .finished id outcome =>
      s.jobs[id]?.bind fun job => s.handleFinished ext id job outcome

def Step (ext : Externals) (s : Session) (e : Event) (s' : Session) : Prop :=
  s.Enabled e ∧ s.handle ext e = some s'

end Session

end Qbs
