import QbsCore.Language.Project
import QbsCore.Library.AssocMap

/-!
# Records of what a script has read

A transformer keeps one set of records for its prepare script and one for its
commands: the properties, artifact properties, imported files, dependency lists,
artifact sets and exported modules that were read, with the values they had.

Main results:

- Structure {lit}`ScriptRecords`: the records of one script.

Current gaps:

- None.
-/

namespace Qbs

/-! ## Records -/

/-- For each product whose dependency list was read, the names in that list. -/
abbrev RequestedDependencies := AssocMap ProductId (SortedSet String)

/-- What was read of the artifacts map of one product. -/
structure RequestedArtifactsPerProduct where
  allTags : SortedSet FileTag
  requestedTags : AssocMap FileTag (SortedSet FilePath)
  artifactsEnumerated : Bool

instance : Inhabited RequestedArtifactsPerProduct where
  default := ⟨∅, ∅, false⟩

/-- What was read of the artifacts maps of all products. -/
abbrev RequestedArtifacts := AssocMap ProductId RequestedArtifactsPerProduct

/-- The records of one script, with the time at which it was last executed. -/
structure ScriptRecords where
  propertiesRequested : PropertySet
  propertiesRequestedFromArtifact : AssocMap FilePath PropertySet
  importedFilesUsed : List FilePath
  depsRequested : RequestedDependencies
  artifactsMapRequested : RequestedArtifacts
  exportedModulesAccessed : AssocMap ProductId ExportedModule
  lastExecutionTime : FileTime

namespace ScriptRecords

/-- The records of a transformer that was just created. -/
def empty : ScriptRecords :=
  ⟨[], ∅, [], ∅, ∅, ∅, 0⟩

instance : Inhabited ScriptRecords where
  default := empty

end ScriptRecords

/-! ## Commands -/

/-- A command of a transformer. The fields that only take part in the comparison of
two commands are kept as one value. -/
structure Command where
  isProcessCommand : Bool
  content : Variant
  jobPool : String
  relevantEnvVars : List String
  relevantEnvValues : List (String × String)
deriving DecidableEq

/-- The recorded value of an environment variable, empty when there is none. -/
def Command.relevantEnvValue (c : Command) (var : String) : String :=
  (c.relevantEnvValues.lookup var).getD ""

end Qbs
