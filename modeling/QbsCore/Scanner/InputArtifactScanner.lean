import Mathlib.Data.List.Infix
import QbsCore.Executor.Scheduling
import QbsCore.Tools.FileInfo

/-!
# Scanning input artifacts

Before a transformer runs, scanners look through its inputs for the files that these include,
and through these files in turn.  What is found becomes a dependency of the output.  The results
of the scanners are kept with the build data, and the paths to which included names lead are kept
for all scans of a build.

Main results:

- Definition {lit}`InputArtifactScanner.scan`: the scan of the inputs of an output.

Current gaps:

- The table of the scanners for a file tag is not modeled: it only keeps what depends on the
  product and the tag.
- The paths of resources contain a slash.
-/

namespace Qbs

/-! ## Raw dependencies -/

/-- A name that a scanner has found, split at its last slash. -/
structure RawScannedDependency where
  dirPath : String
  fileName : String
deriving DecidableEq

namespace RawScannedDependency

def ofText (filePath : String) : RawScannedDependency :=
  ⟨String.ofList (FileInfo.beforeLastSlash filePath.toList),
    String.ofList (FileInfo.fileName filePath.toList)⟩

def filePath (d : RawScannedDependency) : FilePath :=
  if d.dirPath = "" then d.fileName else d.dirPath ++ "/" ++ d.fileName

def isClean (d : RawScannedDependency) : Bool :=
  !d.dirPath.toList.contains '.' && !decide (['/', '/'] <:+: d.dirPath.toList)

end RawScannedDependency

/-- What a scanner has found in a file, for a certain set of module properties. -/
structure ScanData where
  scannerId : String
  moduleProperties : VariantMap
  lastScanTime : FileTime
  rawScanResult : List RawScannedDependency

namespace InputArtifactScanner

/-! ## Scanners and caches -/

/-- A scanner for files with certain tags. Scanners with one key share their caches. -/
structure DependencyScanner where
  id : String
  key : Nat
  recursive : Bool
  cacheIsPerFile : Bool
deriving DecidableEq

/-- What is outside of the scan: the scanners, the products and the files on disk. Each property
map of an artifact is an object of its own. -/
structure ScanEnvironment where
  homePath : PathText
  dependencies : ProductId → List ProductId
  propertiesOf : NodeId → Nat
  scannersForTags : ProductId → FileTags → List DependencyScanner
  collectSearchPaths : DependencyScanner → NodeId → Except ErrorInfo (List FilePath)
  collectDependencies : DependencyScanner → NodeId → FilePath → Except ErrorInfo (List String)
  areModulePropertiesCompatible : DependencyScanner → VariantMap → VariantMap → Bool
  fileExists : FilePath → Bool
  lastModified : FilePath → FileTime
  currentTime : FileTime

/-- The search paths of a scanner, and the files to which names have led so far. A name that led
nowhere is kept as well. -/
structure ScannerResolvedDependenciesCache where
  valid : Bool
  searchPaths : List FilePath
  resolvedDependenciesCache : RawScannedDependency → Option (Option ScannedFile)

/-- The caches of a file, or of a property map. -/
inductive CacheId where
  | perFile (input : NodeId)
  | perProperties (properties : Nat)
deriving DecidableEq

/-- The state of a scan: the build data, the caches of the build, and whether a dependency on an
artifact was added. -/
structure ScanState where
  graph : BuildGraph
  rawScanResults : FilePath → List ScanData
  fileDependencyTimes : FilePath → FileTime
  cache : CacheId → Nat → ScannerResolvedDependenciesCache
  newDependencyAdded : Bool

/-- The ways in which a scan does not return: an exception, and a work list that does not become
empty within the given number of rounds. -/
inductive ScanFailure where
  | error (e : ErrorInfo)
  | unfinished

/-- An operation of the scanner. -/
abbrev ScanOp (α : Type) :=
  StateOp ScanState ScanFailure α

namespace ScanState

variable (s : ScanState)

def filePath : ScannedFile → FilePath
  | .artifact n => (s.graph.artifact n).filePath
  | .file filePath => filePath

def timestamp : ScannedFile → FileTime
  | .artifact n => (s.graph.artifact n).timestamp
  | .file filePath => s.fileDependencyTimes filePath

/-- Change the cache of a scanner. -/
def modifyCache (id : CacheId) (key : Nat)
    (f : ScannerResolvedDependenciesCache → ScannerResolvedDependenciesCache) : ScanState :=
  { s with cache := Function.update s.cache id (Function.update (s.cache id) key
      (f (s.cache id key))) }

def setScanData (filePath : FilePath) (data : List ScanData) : ScanState :=
  { s with rawScanResults := Function.update s.rawScanResults filePath data }

/-- Keep the file to which a name leads. -/
def setResolved (id : CacheId) (key : Nat) (dependency : RawScannedDependency)
    (resolved : Option ScannedFile) : ScanState :=
  s.modifyCache id key fun c => { c with
    resolvedDependenciesCache :=
      Function.update c.resolvedDependenciesCache dependency (some resolved) }

end ScanState

variable (env : ScanEnvironment)

/-! ## Resolving names -/

/-- The resources with a path. -/
def lookupFiles (g : BuildGraph) (dirPath fileName : String) : List FileResource :=
  g.lookupTable (dirPath ++ "/" ++ fileName)

/-- What has been seen of the resources with a path. -/
structure LookupResult where
  fileDependency : Bool
  dependencyInProduct : Option NodeId
  dependencyInOtherProduct : Option NodeId
  productOfDependencyIsDependency : Bool

/-- Look through resources until there is an artifact of the product. Of the artifacts of other
products, the first one counts whose product is a dependency, or else the last one. -/
def lookThrough (g : BuildGraph) (product : ProductId) :
    List FileResource → LookupResult → LookupResult
  | [], found => found
  | .fileDependency :: files, found =>
      lookThrough g product files { found with fileDependency := true }
  | .artifact n :: files, found =>
      if g.productOf n = product then { found with dependencyInProduct := some n }
      else if !found.productOfDependencyIsDependency then
        lookThrough g product files { found with
          dependencyInOtherProduct := some n
          productOfDependencyIsDependency := g.productOf n ∈ env.dependencies product }
      else lookThrough g product files found

/-- The file to which a name leads from a directory, or an absolute name by itself. -/
def resolveDependency (g : BuildGraph) (product : ProductId) (dependency : RawScannedDependency)
    (baseDir : FilePath) : Option ScannedFile :=
  let dirPath :=
    if baseDir = "" then dependency.dirPath
    else if dependency.dirPath = "" then baseDir
    else String.ofList
      (FileInfo.resolvePath env.homePath baseDir.toList dependency.dirPath.toList)
  let absDirPath :=
    if dependency.isClean then dirPath else String.ofList (FileInfo.cleanPath dirPath.toList)
  let found := lookThrough env g product (lookupFiles g absDirPath dependency.fileName)
    ⟨false, none, none, false⟩
  match found.dependencyInProduct <|> found.dependencyInOtherProduct with
  | some n => some (.artifact n)
  | none =>
      if found.fileDependency then some (.file (absDirPath ++ "/" ++ dependency.fileName))
      else
        let absFilePath :=
          if baseDir = "" then dependency.filePath else absDirPath ++ "/" ++ dependency.fileName
        if env.fileExists absFilePath then some (.file absFilePath) else none

/-- The file to which a name leads, with the search paths if it is a relative one. -/
def resolve (g : BuildGraph) (product : ProductId) (searchPaths : List FilePath)
    (dependency : RawScannedDependency) : Option ScannedFile :=
  if FileInfo.isAbsolute dependency.filePath.toList then
    resolveDependency env g product dependency ""
  else searchPaths.findSome? (resolveDependency env g product dependency)

/-- The file to which a name leads, which is looked for once only. -/
def getResolvedDependency (input : NodeId) (id : CacheId) (key : Nat)
    (dependency : RawScannedDependency) : ScanOp (Option ScannedFile) :=
  StateOp.transform fun s =>
    match (s.cache id key).resolvedDependenciesCache dependency with
    | some resolved => (.ok resolved, s)
    | none =>
        let resolved := resolve env s.graph (s.graph.productOf input) (s.cache id key).searchPaths
          dependency
        (.ok resolved, s.setResolved id key dependency resolved)

/-! ## Scanning files -/

variable (a : NodeId)

/-- Attach a file to the output. -/
def handleDependency (dependency : ScannedFile) : ScanOp Unit :=
  StateOp.transform fun s =>
    if (s.graph.artifact a).artifactType ≠ .generated then
      (.error (.error (.check "m_artifact->artifactType == Artifact::Generated")), s)
    else
      match Executor.handleDependency a (s.graph, s.newDependencyAdded) dependency with
      | .error e => (.error (.error e), s)
      | .ok found =>
          (.ok (), { s with
            graph := found.1
            newDependencyAdded := found.2
            fileDependencyTimes :=
              match dependency with
              | .artifact _ => s.fileDependencyTimes
              | .file filePath =>
                  if s.fileDependencyTimes filePath = 0 then
                    Function.update s.fileDependencyTimes filePath (env.lastModified filePath)
                  else s.fileDependencyTimes })

/-- An artifact that is not built yet is not scanned: its contents might still change. -/
def canBeScanned (g : BuildGraph) : ScannedFile → Bool
  | .artifact n => (g.artifact n).artifactType = .sourceFile || g.buildState n = .built
  | .file _ => true

/-- Attach the files to which names lead; returns those that have to be scanned. -/
def resolveScanResultDependencies (input : NodeId) (id : CacheId) (scanner : DependencyScanner) :
    List RawScannedDependency → ScanOp (List ScannedFile)
  | [] => pure []
  | dependency :: deps =>
      getResolvedDependency env input id scanner.key dependency >>= fun resolved =>
      match resolved with
      | none => resolveScanResultDependencies input id scanner deps
      | some file =>
          handleDependency env a file >>= fun _ =>
          StateOp.query (fun s => .ok (scanner.recursive && canBeScanned s.graph file)) >>=
            fun mustBeScanned =>
          resolveScanResultDependencies input id scanner deps >>= fun files =>
          pure (if mustBeScanned then file :: files else files)

/-- The data of a scanner for certain properties, and the list with other data in their place. -/
def findScanData (scanner : DependencyScanner) (moduleProperties : VariantMap) :
    List ScanData → ScanData × (ScanData → List ScanData)
  | [] => (⟨scanner.id, moduleProperties, 0, []⟩, fun data => [data])
  | data :: rest =>
      if scanner.id = data.scannerId ∧
          env.areModulePropertiesCompatible scanner moduleProperties data.moduleProperties then
        (data, fun data' => data' :: rest)
      else
        let found := findScanData scanner moduleProperties rest
        (found.1, fun data' => data :: found.2 data')

/-- What a scanner finds in a file: it looks again if the file is newer than what it found last. An
error of the scanner is only reported. -/
def rawScanResult (input : NodeId) (scanner : DependencyScanner) (file : ScannedFile) :
    ScanOp (List RawScannedDependency) :=
  StateOp.transform fun s =>
    let found := findScanData env scanner (s.graph.artifact a).properties
      (s.rawScanResults (s.filePath file))
    if found.1.lastScanTime < s.timestamp file then
      match env.collectDependencies scanner input (s.filePath file) with
      | .ok texts =>
          let deps := texts.map RawScannedDependency.ofText
          (.ok deps, s.setScanData (s.filePath file) (found.2 { found.1 with
            lastScanTime := env.currentTime
            rawScanResult := deps }))
      | .error _ =>
          (.ok [], s.setScanData (s.filePath file) (found.2 { found.1 with rawScanResult := [] }))
    else (.ok found.1.rawScanResult, s.setScanData (s.filePath file) (found.2 found.1))

/-- The cache of a scanner for an input. -/
def cacheId (input : NodeId) (scanner : DependencyScanner) : CacheId :=
  if scanner.cacheIsPerFile then .perFile input else .perProperties (env.propertiesOf input)

/-- The search paths are collected once. -/
def provideSearchPaths (input : NodeId) (scanner : DependencyScanner) : ScanOp Unit :=
  StateOp.query (fun s => .ok (s.cache (cacheId env input scanner) scanner.key).valid) >>=
    fun valid =>
  if valid then pure ()
  else
    StateOp.update (fun s => s.modifyCache (cacheId env input scanner) scanner.key
      fun c => { c with valid := true }) >>= fun _ =>
    StateOp.query (fun _ =>
      (env.collectSearchPaths scanner input).mapError ScanFailure.error) >>= fun searchPaths =>
    StateOp.update fun s => s.modifyCache (cacheId env input scanner) scanner.key
      fun c => { c with searchPaths := searchPaths }

/-- Scan a file with a scanner; returns the files that have to be scanned next. -/
def scanForScannerFileDependencies (input : NodeId) (file : ScannedFile)
    (scanner : DependencyScanner) : ScanOp (List ScannedFile) :=
  provideSearchPaths env input scanner >>= fun _ =>
  rawScanResult env a input scanner file >>= fun deps =>
  resolveScanResultDependencies env a input (cacheId env input scanner) scanner deps

/-- Scan a file with several scanners. -/
def scanWithAll (input : NodeId) (file : ScannedFile) :
    List DependencyScanner → ScanOp (List ScannedFile)
  | [] => pure []
  | scanner :: scanners =>
      scanForScannerFileDependencies env a input file scanner >>= fun files =>
      scanWithAll input file scanners >>= fun others =>
      pure (files ++ others)

/-- The loop over the files that have to be scanned, with the paths that have been visited. -/
def scanFiles (input : NodeId) (scanners : List DependencyScanner) :
    Nat → List ScannedFile → List FilePath → ScanOp Unit
  | _, [], _ => pure ()
  | 0, _ :: _, _ => StateOp.fail .unfinished
  | fuel + 1, file :: filesToScan, visitedFilePaths =>
      StateOp.query (fun s => .ok (s.filePath file)) >>= fun filePath =>
      if filePath ∈ visitedFilePaths then
        scanFiles input scanners fuel filesToScan visitedFilePaths
      else
        scanWithAll env a input file scanners >>= fun files =>
        scanFiles input scanners fuel (filesToScan ++ files) (filePath :: visitedFilePaths)

/-- Scan an input, and what it leads to. -/
def scanForFileDependencies (fuel : Nat) (inputArtifact : NodeId) : ScanOp Unit :=
  StateOp.query (fun s => .ok (env.scannersForTags (s.graph.productOf inputArtifact)
    (s.graph.artifact inputArtifact).fileTags)) >>= fun scanners =>
  if scanners.isEmpty then pure ()
  else scanFiles env a inputArtifact scanners fuel [.artifact inputArtifact] []

/-- Forget the dependencies that the last scan has found. -/
def withoutScannedDependencies (g : BuildGraph) : BuildGraph :=
  (g.artifact a).childrenAddedByScanner.elems.foldl (fun g child => g.disconnect a child)
    (g.modifyArtifact a fun d =>
      { d with inputsScanned := true, fileDependencies := ∅, childrenAddedByScanner := ∅ })

/-- The inputs of the transformer of the output. -/
def inputs (g : BuildGraph) : List NodeId :=
  (g.artifact a).transformer.elim [] fun t => (g.transformer t).inputs.elems

/-- Scan the inputs of an output, unless that was done. Each output has a scanner of its own. -/
def scan (fuel : Nat) : ScanOp Unit :=
  StateOp.update (fun s => { s with newDependencyAdded := false }) >>= fun _ =>
  StateOp.query (fun s => .ok ((s.graph.artifact a).inputsScanned, inputs a s.graph)) >>=
    fun data =>
  if data.1 then pure ()
  else
    StateOp.update (fun s => { s with graph := withoutScannedDependencies a s.graph }) >>= fun _ =>
    data.2.forM (scanForFileDependencies env a fuel)

end InputArtifactScanner

end Qbs
