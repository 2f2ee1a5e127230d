import QbsCore.Library.TransitionSystem
import QbsCore.Session.Session

/-!
# Steps of sessions

What a request does to a session, what the end of a job does, and the invariant that both of them
keep: a job whose end the session waits for is the current one, and a request to resolve waits only
behind a current job that resolves and was canceled.

Main results:

- Inductives {lit}`Session.Handled` and {lit}`Session.Ended`: what a request and the end of a job
  do to a session.
- Structure {lit}`Session.Consistent`: the invariant of sessions.
- Theorems {lit}`Session.Step.consistent` and {lit}`Session.Consistent.exists_step`: each step keeps
  it, and every event can be handled.

Current gaps:

- None.
-/

namespace Qbs

namespace Session

open Api TransitionSystem

variable {ext : Externals} {s s' : Session} {request : JsonObject} {api : ProjectApi}

/-! ## What a request does -/

/-- The type of the requests that start jobs of a type. -/
def JobType.requestType : JobType → RequestType
  | .setupProject => .resolveProject
  | .build => .buildProject
  | .clean => .cleanProject
  | .install => .installProject

/-- The types of requests that concern the project data. -/
def RetrievesData (type : RequestType) : Prop :=
  type = .resolveProject ∨ type = .buildProject

instance (type : RequestType) : Decidable (RetrievesData type) :=
  inferInstanceAs (Decidable (_ ∨ _))

/-- An immediate reply. Its data are the current ones, and it does not tell that the project was
resolved or built. -/
structure Immediate (ext : Externals) (s : Session) (request : JsonObject)
    (reply : Reply) : Prop where
  answers : replyType (requestType request) = some reply.type
  data : ∀ obj, reply.projectData = some obj →
    s.project.isSome ∧ obj = s.projectData.toJson ext s.moduleProperties
  error : RetrievesData (requestType request) → reply.error.hasError = true

/-- A job can be started for a request. -/
structure Startable (s : Session) (type : JobType) (request : JsonObject)
    (moduleProperties : List String) (settings : Option String) : Prop where
  idle : s.currentJob = none
  asked : requestType request = type.requestType
  properties : moduleProperties =
    if RetrievesData type.requestType then modulePropertiesFromRequest request
    else s.moduleProperties
  settings : settings.isSome ∧ (type ≠ .setupProject → s.project.isSome)

/-- What becomes of a session when a request comes in. -/
inductive Handled (ext : Externals) (s : Session) (request : JsonObject) :
    Session → Prop
  | answered (reply : Reply) (hreply : Immediate ext s request reply)
      (hresolve : requestType request = .resolveProject → s.resolvingCanceled = false)
      (hrelease : requestType request = .releaseProject → s.project = none) :
      Handled ext s request (s.sendPacket request reply)
  | started (type : JobType) (selection : ProductSelection) (moduleProperties : List String)
      (settings : Option String) (hstart : Startable s type request moduleProperties settings) :
      Handled ext s request
        (startJob { s with moduleProperties := moduleProperties, settings := settings } type request
          selection)
  | stored (htype : requestType request = .resolveProject)
      (hcanceled : s.resolvingCanceled = true) :
      Handled ext s request { s with resolveRequest := request }
  | released (htype : requestType request = .releaseProject) (hproject : s.project.isSome) :
      Handled ext s request (s.releaseProject request)
  | quit (htype : requestType request = .quit) :
      Handled ext s request s.quitSession
  | canceled (htype : requestType request = .cancelJob) :
      Handled ext s request s.cancelCurrentJob

theorem prerequisiteError_eq_none (h : s.prerequisiteError = none) :
    s.currentJob = none ∧ s.project.isSome := by
  unfold prerequisiteError at h
  split at h
  · simp at h
  · split at h
    · simp at h
    · rename_i hjob hproject
      exact ⟨by simpa using hjob, by simpa [Option.isSome_iff_ne_none] using hproject⟩

variable {type : String}

/-- A reply with an error. -/
theorem Handled.failed {error : ErrorInfo} (htype : replyType (requestType request) = some type)
    (herror : error.hasError = true)
    (hresolve : requestType request = .resolveProject → s.resolvingCanceled = false)
    (hrelease : requestType request = .releaseProject → s.project = none) :
    Handled ext s request (s.sendErrorInfo request type error) :=
  Handled.answered _ ⟨htype, by simp [Reply.ofType], fun _ => herror⟩ hresolve hrelease

theorem handled_setupProject (htype : requestType request = .resolveProject) :
    Handled ext s request (s.setupProject request) := by
  unfold setupProject
  split_ifs with hjob hcanceled
  · exact Handled.stored htype hcanceled
  · exact Handled.failed (by simp [htype, replyType]) rfl (fun _ => by simpa using hcanceled)
      (by simp [htype])
  · refine Handled.started .setupProject _ _ _ ⟨by simpa using hjob, htype, ?_, by simp⟩
    exact (if_pos (Or.inl rfl)).symm

theorem handled_buildProject (htype : requestType request = .buildProject)
    (h : s.buildProject ext request = some s') :
    Handled ext s request s' := by
  unfold buildProject at h
  split at h
  · obtain rfl := Option.some.inj h
    exact Handled.failed (by simp [htype, replyType]) rfl (by simp [htype]) (by simp [htype])
  · rename_i hprerequisites
    obtain ⟨hjob, hproject⟩ := prerequisiteError_eq_none hprerequisites
    obtain ⟨directory, hsettings, rfl⟩ := Option.map_eq_some_iff.mp h
    exact Handled.started .build (s.getProductSelection ext request)
      (modulePropertiesFromRequest request) s.settings
      ⟨hjob, htype, (if_pos (Or.inr rfl)).symm, by simp [hsettings], fun _ => hproject⟩

/-- A request that starts a job after which the data is the same. -/
theorem Handled.of_plain {type : JobType} {reply : String}
    (hplain : type = .clean ∨ type = .install) (htype : requestType request = type.requestType)
    (hreply : replyType type.requestType = some reply)
    (hsettings : s.project.isSome → s.settings.isSome)
    (selection : ProductSelection) :
    Handled ext s request
      (match s.prerequisiteError with
        | some message => s.sendErrorReply request reply message
        | none => s.startJob type request selection) := by
  have hne : requestType request ≠ .resolveProject ∧ requestType request ≠ .buildProject ∧
      requestType request ≠ .releaseProject := by
    rcases hplain with rfl | rfl
    · simp [htype, JobType.requestType]
    · simp [htype, JobType.requestType]
  split
  · exact Handled.failed (htype ▸ hreply) rfl (fun h => absurd h hne.1) (fun h => absurd h hne.2.2)
  · rename_i hprerequisites
    obtain ⟨hjob, hproject⟩ := prerequisiteError_eq_none hprerequisites
    refine Handled.started type _ s.moduleProperties s.settings
      ⟨hjob, htype, ?_, hsettings hproject, fun _ => hproject⟩
    rw [if_neg]
    rw [← htype]
    exact fun h => h.elim hne.1 hne.2.1

theorem handled_updateFiles {failure : String}
    {update : Project → Api.ProductData → GroupData → Nat → String → ErrorInfo}
    (htype : replyType (requestType request) = some type)
    (hne : requestType request = .addFiles ∨ requestType request = .removeFiles) :
    Handled ext s request
      (s.updateFiles ext request type failure update) := by
  have hother : ¬RetrievesData (requestType request) ∧
      requestType request ≠ .releaseProject ∧ requestType request ≠ .resolveProject := by
    rcases hne with hne | hne
    · simp [hne, RetrievesData]
    · simp [hne, RetrievesData]
  unfold updateFiles
  dsimp only
  split
  · rename_i project _ _ _ hproject _ _
    refine Handled.answered _ ⟨?_, ?_, fun h => absurd h hother.1⟩ (fun h => absurd h hother.2.2)
      (fun h => absurd h hother.2.1)
    · rw [htype]
      split_ifs
      · simp [insertProjectDataIfNecessary, Reply.ofType]
      · rfl
    · intro obj hobj
      split_ifs at hobj
      · simp only [insertProjectDataIfNecessary, true_or, if_true, Bool.false_eq_true, if_false,
          Option.some.injEq] at hobj
        exact ⟨by simp [hproject], hobj.symm⟩
      · simp [Reply.ofType] at hobj
  · exact Handled.answered _ ⟨htype, by simp [createErrorReply, Reply.ofType],
      fun h => absurd h hother.1⟩ (fun h => absurd h hother.2.2) (fun h => absurd h hother.2.1)

/-- A reply without project data to a request for information. -/
theorem Handled.informed {reply : Reply} (htype : replyType (requestType request) = some reply.type)
    (hne : requestType request = .getRunEnvironment ∨
      requestType request = .getGeneratedFilesForSources)
    (hdata : reply.projectData = none) :
    Handled ext s request (s.sendPacket request reply) := by
  have hother : ¬RetrievesData (requestType request) ∧
      requestType request ≠ .releaseProject ∧ requestType request ≠ .resolveProject := by
    rcases hne with hne | hne
    · simp [hne, RetrievesData]
    · simp [hne, RetrievesData]
  exact Handled.answered _ ⟨htype, by simp [hdata], fun h => absurd h hother.1⟩
    (fun h => absurd h hother.2.2) (fun h => absurd h hother.2.1)

theorem handled_getRunEnvironment (htype : requestType request = .getRunEnvironment) :
    Handled ext s request
      (s.getRunEnvironment ext api request) := by
  have hreply : replyType (requestType request) = some "run-environment" := by
    rw [htype, replyType]
  unfold getRunEnvironment
  dsimp only
  split
  · exact Handled.informed hreply (Or.inl htype) rfl
  · split_ifs
    · exact Handled.informed hreply (Or.inl htype) rfl
    · exact Handled.informed hreply (Or.inl htype) rfl
  · exact Handled.informed hreply (Or.inl htype) rfl

theorem handled_getGeneratedFilesForSources
    (htype : requestType request = .getGeneratedFilesForSources) :
    Handled ext s request
      (s.getGeneratedFilesForSources ext api request) := by
  have hreply : replyType (requestType request) = some "generated-files-for-sources" := by
    rw [htype, replyType]
  unfold getGeneratedFilesForSources
  split
  · exact Handled.informed hreply (Or.inr htype) rfl
  · exact Handled.informed hreply (Or.inr htype) rfl

/-- What the handler of a request does. -/
theorem handled_of_handlePacket (hsettings : s.project.isSome → s.settings.isSome)
    (h : s.handlePacket ext api request = some s') :
    Handled ext s request s' := by
  unfold handlePacket at h
  split at h
  case h_1 htype =>
    obtain rfl := Option.some.inj h
    exact handled_setupProject htype
  case h_2 htype => exact handled_buildProject htype h
  case h_3 htype =>
    obtain rfl := Option.some.inj h
    exact Handled.of_plain (Or.inl rfl) htype rfl hsettings _
  case h_4 htype =>
    obtain rfl := Option.some.inj h
    exact Handled.of_plain (Or.inr rfl) htype rfl hsettings _
  case h_5 htype =>
    obtain rfl := Option.some.inj h
    exact handled_updateFiles (by rw [htype, replyType]) (Or.inl htype)
  case h_6 htype =>
    obtain rfl := Option.some.inj h
    exact handled_updateFiles (by rw [htype, replyType]) (Or.inr htype)
  case h_7 htype =>
    obtain rfl := Option.some.inj h
    exact handled_getRunEnvironment htype
  case h_8 htype =>
    obtain rfl := Option.some.inj h
    exact handled_getGeneratedFilesForSources htype
  case h_9 htype =>
    obtain rfl := Option.some.inj h
    cases hproject : s.project with
    | none =>
        rw [releaseProject, if_pos (by simp [hproject])]
        exact Handled.failed (by simp [htype, replyType]) rfl (by simp [htype]) (fun _ => hproject)
    | some project => exact Handled.released htype (by simp [hproject])
  case h_10 htype =>
    obtain rfl := Option.some.inj h
    exact Handled.quit htype
  case h_11 htype =>
    obtain rfl := Option.some.inj h
    exact Handled.canceled htype
  case h_12 htype =>
    obtain rfl := Option.some.inj h
    exact Handled.failed (by simp [htype, replyType]) rfl (by simp [htype]) (by simp [htype])

/-! ## Consistent sessions -/

/-- A job that was disconnected was also canceled, and it works on a request of its type. -/
structure SoundJob (job : AbstractJob) : Prop where
  canceled : job.connected = false → job.state ≠ .running
  asked : requestType job.request = job.type.requestType

/-- Whether the session waits for the end of a job. -/
def IsActive (job : AbstractJob) : Prop :=
  job.connected = true ∧ job.state ≠ .finished

/-- The session waits for no job. -/
def NoneActive (s : Session) : Prop :=
  ∀ (id : Nat) (job : AbstractJob), s.jobs[id]? = some job → ¬IsActive job

structure Consistent (s : Session) : Prop where
  jobs : ∀ job, job ∈ s.jobs → SoundJob job
  current : ∀ id, s.reading = true → s.currentJob = some id →
    ∃ job, s.jobs[id]? = some job ∧ IsActive job
  active : ∀ id job, s.jobs[id]? = some job → IsActive job →
    s.reading = true ∧ s.currentJob = some id
  stored : s.reading = true → s.resolveRequest ≠ [] →
    s.resolvingCanceled = true ∧ requestType s.resolveRequest = .resolveProject
  settings : s.jobs ≠ [] → s.settings.isSome
  project : s.project.isSome → s.jobs ≠ []

theorem consistent_initial : Consistent initial where
  jobs := by simp [initial]
  current := by simp [initial]
  active := by simp [initial]
  stored := by simp [initial]
  settings := by simp [initial]
  project := by simp [initial]

theorem getElem?_modifyJob (s : Session) (id i : Nat) (f : AbstractJob → AbstractJob) :
    (s.modifyJob id f).jobs[i]? = if id = i then s.jobs[i]?.map f else s.jobs[i]? := by
  rw [modifyJob, List.getElem?_modify]
  split_ifs
  · rfl
  · simp

variable {job : AbstractJob} {f : AbstractJob → AbstractJob}

theorem modifyJob_ne_nil {id : Nat} :
    (s.modifyJob id f).jobs ≠ [] ↔ s.jobs ≠ [] := by
  rw [← List.length_pos_iff, ← List.length_pos_iff, modifyJob, List.length_modify]

theorem soundJobs_modifyJob (h : ∀ job, job ∈ s.jobs → SoundJob job)
    (hf : ∀ job, SoundJob job → SoundJob (f job)) (id : Nat) :
    ∀ job, job ∈ (s.modifyJob id f).jobs → SoundJob job := by
  intro job hjob
  obtain ⟨i, hi⟩ := List.mem_iff_getElem?.mp hjob
  rw [getElem?_modifyJob] at hi
  split_ifs at hi
  · obtain ⟨old, hold, rfl⟩ := Option.map_eq_some_iff.mp hi
    exact hf old (h old (List.mem_of_getElem? hold))
  · exact h job (List.mem_of_getElem? hi)

theorem soundJob_cancel (h : SoundJob job) : SoundJob job.cancel := by
  unfold AbstractJob.cancel
  split_ifs
  · exact ⟨by simp, h.asked⟩
  · exact h

theorem state_cancel (job : AbstractJob) : job.cancel.state ≠ .running := by
  unfold AbstractJob.cancel
  split_ifs with hrunning
  · simp
  · exact hrunning

theorem connected_cancel (job : AbstractJob) : job.cancel.connected = job.connected := by
  unfold AbstractJob.cancel
  split_ifs
  · rfl
  · rfl

theorem isActive_cancel : IsActive job.cancel ↔ IsActive job := by
  unfold IsActive AbstractJob.cancel
  split_ifs with hrunning
  · simp [hrunning]
  · rfl

theorem Consistent.noneActive (h : Consistent s) (hid : s.currentJob = none) : NoneActive s := by
  intro i job hjob hactive
  have hcurrent := (h.active i job hjob hactive).2
  rw [hid] at hcurrent
  simp at hcurrent

/-- When the current job is not active any more, no job is. -/
theorem Consistent.noneActive_modifyJob (h : Consistent s) {id : Nat} (hid : s.currentJob = some id)
    (hf : ∀ job, ¬IsActive (f job)) :
    NoneActive (s.modifyJob id f) := by
  intro i job hjob
  rw [getElem?_modifyJob] at hjob
  split_ifs at hjob with hi
  · obtain ⟨old, -, rfl⟩ := Option.map_eq_some_iff.mp hjob
    exact hf old
  · intro hactive
    have hcurrent := (h.active i job hjob hactive).2
    rw [hid] at hcurrent
    exact hi (Option.some.inj hcurrent)

/-- A request waits only behind the current job. -/
theorem Consistent.stored_eq_nil (h : Consistent s) (hreading : s.reading = true)
    (hid : s.currentJob = none) : s.resolveRequest = [] := by
  by_contra hne
  have hcanceled := (h.stored hreading hne).1
  simp [resolvingCanceled, hid] at hcanceled

theorem Consistent.settings_of_project (h : Consistent s) (hproject : s.project.isSome) :
    s.settings.isSome :=
  h.settings (h.project hproject)

/-- Starting a job while no job is active. -/
theorem consistent_startJob {t : Session} {type : JobType} {selection : ProductSelection}
    (hjobs : ∀ job, job ∈ t.jobs → SoundJob job)
    (hidle : NoneActive t) (hreading : t.reading = true)
    (hstored : t.resolveRequest = []) (hsettings : t.settings.isSome)
    (htype : requestType request = type.requestType) :
    Consistent (t.startJob type request selection) where
  jobs := by
    intro job hjob
    rcases List.mem_append.mp hjob with hjob | hjob
    · exact hjobs job hjob
    · rw [List.mem_singleton.mp hjob]
      exact ⟨by simp, htype⟩
  current := by
    intro id _ hid
    obtain rfl := Option.some.inj hid
    exact ⟨_, List.getElem?_concat_length, rfl, by simp⟩
  active := by
    intro id job hjob hactive
    refine ⟨hreading, ?_⟩
    rcases lt_trichotomy id t.jobs.length with hlt | rfl | hlt
    · rw [startJob, List.getElem?_append_left hlt] at hjob
      exact absurd hactive (hidle id job hjob)
    · rfl
    · rw [startJob, List.getElem?_eq_none (by simp; omega)] at hjob
      simp at hjob
  stored := fun _ hne => absurd hstored hne
  settings := fun _ => hsettings
  project := fun _ => by simp [startJob]

/-- The state after the end or the dropping of the current job. -/
theorem consistent_of_idle {t : Session} (hjobs : ∀ job, job ∈ t.jobs → SoundJob job)
    (hidle : NoneActive t)
    (hcurrent : t.reading = true → t.currentJob = none ∧ t.resolveRequest = [])
    (hsettings : t.jobs ≠ [] → t.settings.isSome) (hproject : t.project.isSome → t.jobs ≠ []) :
    Consistent t where
  jobs := hjobs
  current := by
    intro id hreading hid
    rw [(hcurrent hreading).1] at hid
    simp at hid
  active := fun id job hjob hactive => absurd hactive (hidle id job hjob)
  stored := fun hreading hne => absurd (hcurrent hreading).2 hne
  settings := hsettings
  project := hproject

theorem not_isActive_drop (job : AbstractJob) : ¬IsActive job.disconnect.cancel :=
  fun h => by simpa [connected_cancel, AbstractJob.disconnect] using h.1

theorem soundJob_drop (h : SoundJob job) : SoundJob job.disconnect.cancel where
  canceled := fun _ => state_cancel _
  asked := by
    unfold AbstractJob.cancel AbstractJob.disconnect
    split_ifs
    · exact h.asked
    · exact h.asked

theorem Consistent.dropCurrentJob (h : Consistent s) :
    (∀ job, job ∈ s.dropCurrentJob.jobs → SoundJob job) ∧
      NoneActive s.dropCurrentJob ∧
      (s.dropCurrentJob.jobs ≠ [] ↔ s.jobs ≠ []) ∧ s.dropCurrentJob.settings = s.settings := by
  unfold Session.dropCurrentJob
  cases hid : s.currentJob with
  | none => exact ⟨h.jobs, h.noneActive hid, Iff.rfl, rfl⟩
  | some id =>
      exact ⟨soundJobs_modifyJob h.jobs (fun _ => soundJob_drop) id,
        h.noneActive_modifyJob hid not_isActive_drop, modifyJob_ne_nil, rfl⟩

theorem consistent_quitSession (h : Consistent s) : Consistent s.quitSession := by
  unfold quitSession
  cases hid : s.currentJob with
  | none =>
      exact consistent_of_idle h.jobs (h.noneActive hid) (by simp) h.settings h.project
  | some id =>
      dsimp only
      have hdrop : ∀ job : AbstractJob,
          ¬IsActive { job.disconnect with quits := true }.cancel :=
        fun job hactive => by simpa [connected_cancel, AbstractJob.disconnect] using hactive.1
      refine consistent_of_idle (soundJobs_modifyJob h.jobs (fun job hjob => ?_) id)
        (h.noneActive_modifyJob hid hdrop) (by simp)
        (fun hne => h.settings (modifyJob_ne_nil.mp hne))
        (fun hproject => modifyJob_ne_nil.mpr (h.project hproject))
      refine ⟨fun _ => state_cancel _, ?_⟩
      unfold AbstractJob.cancel AbstractJob.disconnect
      split_ifs
      · exact hjob.asked
      · exact hjob.asked

theorem consistent_cancelCurrentJob (h : Consistent s) : Consistent s.cancelCurrentJob := by
  unfold cancelCurrentJob
  cases hid : s.currentJob with
  | none => exact h
  | some id =>
      dsimp only
      refine ⟨soundJobs_modifyJob h.jobs (fun _ => soundJob_cancel) id, ?_, ?_, by simp,
        fun hne => h.settings (modifyJob_ne_nil.mp hne),
        fun hproject => modifyJob_ne_nil.mpr (h.project hproject)⟩
      · intro i hreading hi
        obtain rfl := Option.some.inj (hid.symm.trans hi)
        obtain ⟨job, hjob, hactive⟩ := h.current id hreading hid
        refine ⟨job.cancel, ?_, isActive_cancel.mpr hactive⟩
        simp [getElem?_modifyJob, hjob]
      · intro i job hjob hactive
        rw [getElem?_modifyJob] at hjob
        split_ifs at hjob with hi
        · obtain ⟨old, hold, rfl⟩ := Option.map_eq_some_iff.mp hjob
          exact h.active i old hold (isActive_cancel.mp hactive)
        · exact h.active i job hjob hactive

theorem Handled.consistent (h : Consistent s) (hreading : s.reading = true)
    (hhandled : Handled ext s request s') : Consistent s' := by
  cases hhandled with
  | answered reply => exact ⟨h.jobs, h.current, h.active, h.stored, h.settings, h.project⟩
  | started type selection moduleProperties settings hstart =>
      exact consistent_startJob h.jobs (h.noneActive hstart.idle) hreading
        (h.stored_eq_nil hreading hstart.idle) hstart.settings.1 hstart.asked
  | stored htype hcanceled =>
      exact ⟨h.jobs, h.current, h.active, fun _ _ => ⟨hcanceled, htype⟩, h.settings, h.project⟩
  | released htype hproject =>
      rw [releaseProject, if_neg (by simpa [Option.isSome_iff_ne_none] using hproject)]
      obtain ⟨hjobs, hidle, hnil, hsettings⟩ := h.dropCurrentJob
      refine consistent_of_idle hjobs hidle (fun _ => ⟨rfl, rfl⟩) ?_ (by simp [sendPacket])
      intro hne
      exact (congrArg Option.isSome hsettings).trans (h.settings (hnil.mp hne))
  | quit => exact consistent_quitSession h
  | canceled => exact consistent_cancelCurrentJob h

/-! ## What the end of a job does -/

/-- The entries that a reply may have in addition to those of the project data. -/
def topLevelKeys : List String :=
  ["build-directory", "build-system-files", "build-graph-file-path", "profile-data",
    "overridden-properties"]

/-- Apart from those entries, an object is that of some project data. -/
def Shows (attached json : JsonObject) : Prop :=
  ∀ key, key ∉ topLevelKeys → attached.value key = json.value key

theorem shows_refl (json : JsonObject) : Shows json json :=
  fun _ _ => rfl

theorem value_foldl_insert {entries : List (String × Variant)} {key : String}
    (hkey : key ∉ entries.map Prod.fst) (obj : JsonObject) :
    (entries.foldl (fun obj e => obj.insert e.1 e.2) obj).value key = obj.value key := by
  induction entries generalizing obj with
  | nil => rfl
  | cons e entries ih =>
      rw [List.map_cons, List.mem_cons, not_or] at hkey
      rw [List.foldl_cons, ih hkey.2, VariantMap.value_insert, if_neg (Ne.symm hkey.1)]

theorem shows_insertTopLevelData (s : Session) (json : JsonObject) :
    Shows (s.insertTopLevelData json) json :=
  fun _ hkey => value_foldl_insert hkey json

/-- The project data that the session reads at the end of a job. -/
def dataRead (s : Session) (job : AbstractJob) (outcome : Outcome) : ProjectData :=
  match job.type with
  | .setupProject => projectDataOf outcome.newProject
  | .build => projectDataOf (s.project.map outcome.existingProject)
  | .clean => s.projectData
  | .install => s.projectData

/-- The reply of a job. Its data is the data that was read, and that is left out only if it was not
asked for, if there was an error or if it is the same as before. -/
structure Concluding (ext : Externals) (s : Session) (job : AbstractJob)
    (outcome : Outcome) (reply : Reply) : Prop where
  answers : replyType job.type.requestType = some reply.type
  error : reply.error.hasError = outcome.error.hasError
  data : ∀ obj, reply.projectData = some obj → RetrievesData job.type.requestType ∧
    Shows obj ((s.dataRead job outcome).toJson ext s.moduleProperties)
  unchanged : reply.projectData = none → outcome.error.hasError = false →
    RetrievesData job.type.requestType → dataModeFromRequest job.request ≠ .never →
      (s.dataRead job outcome).equals ext s.projectData = true

/-- The session after the end of one of its jobs, before that is handled. -/
def afterJob (s : Session) (id : Nat) (outcome : Outcome) : Session :=
  s.modifyJob id fun job => job.finish outcome.error

/-- What becomes of a session when a job ends. -/
inductive Ended (ext : Externals) (s : Session) (id : Nat)
    (job : AbstractJob) (outcome : Outcome) : Session → Prop
  | silent (exited : Bool) (hconnected : job.connected = false) :
      Ended ext s id job outcome { s.afterJob id outcome with exited := exited }
  | superseded (project : Option Project) (hconnected : job.connected = true)
      (htype : job.type = .setupProject) (hstored : s.resolveRequest ≠ []) :
      Ended ext s id job outcome
        (startJob
          { s.afterJob id outcome with
            project := project
            resolveRequest := []
            currentJob := none
            moduleProperties := modulePropertiesFromRequest s.resolveRequest
            settings := some (s.resolveRequest.value "settings-directory").toString }
          .setupProject s.resolveRequest ⟨.defaultOnly, []⟩)
  | answered (project : Option Project) (reply : Reply) (hconnected : job.connected = true)
      (hstored : job.type = .setupProject → s.resolveRequest = [])
      (hreply : Concluding ext s job outcome reply) :
      Ended ext s id job outcome
        { s.afterJob id outcome with
          project := project
          projectData := s.dataRead job outcome
          currentJob := none
          sent := s.sent ++ [⟨job.request, reply⟩] }

/-- Data in a reply. -/
theorem insertProjectDataIfNecessary_cases (ext : Externals) (s : Session)
    (reply : Reply) (dataMode : ProjectDataMode) (old : ProjectData) (topLevel : Bool) :
    (∃ obj, s.insertProjectDataIfNecessary ext reply dataMode old topLevel =
        { reply with projectData := some obj } ∧
      Shows obj (s.projectData.toJson ext s.moduleProperties)) ∨
    s.insertProjectDataIfNecessary ext reply dataMode old topLevel = reply ∧
      (dataMode ≠ .never → s.projectData.equals ext old = true) := by
  unfold insertProjectDataIfNecessary
  split_ifs with hmode htop
  · exact Or.inl ⟨_, rfl, shows_insertTopLevelData s _⟩
  · exact Or.inl ⟨_, rfl, shows_refl _⟩
  · refine Or.inr ⟨rfl, fun hne => ?_⟩
    cases dataMode with
    | never => exact absurd rfl hne
    | always => simp at hmode
    | onlyIfChanged => simpa using hmode

/-- The reply to a request that concerns the project data. -/
theorem Concluding.of_data {outcome : Outcome} (t : Session) (topLevel : Bool)
    (hdata : t.projectData = s.dataRead job outcome)
    (hproperties : t.moduleProperties = s.moduleProperties)
    (htype : replyType job.type.requestType = some type)
    (hretrieves : RetrievesData job.type.requestType) :
    Concluding ext s job outcome
      (if outcome.error.hasError then { Reply.ofType type with error := outcome.error }
      else t.insertProjectDataIfNecessary ext (Reply.ofType type)
        (dataModeFromRequest job.request) s.projectData topLevel) := by
  cases herror : outcome.error.hasError with
  | true =>
      rw [if_pos rfl]
      exact ⟨htype, rfl, by simp [Reply.ofType], by simp [herror]⟩
  | false =>
      rw [if_neg (by simp)]
      rcases insertProjectDataIfNecessary_cases ext t (Reply.ofType type)
        (dataModeFromRequest job.request) s.projectData topLevel with
        ⟨obj, hreply, hshows⟩ | ⟨hreply, hequal⟩
      · rw [hreply]
        rw [hdata, hproperties] at hshows
        refine ⟨htype, by rw [herror]; rfl, fun o ho => ⟨hretrieves, ?_⟩, by simp⟩
        rw [← Option.some.inj ho]
        exact hshows
      · rw [hreply]
        rw [hdata] at hequal
        exact ⟨htype, by rw [herror]; rfl, by simp [Reply.ofType], fun _ _ _ => hequal⟩

/-- The current job is the one that has ended. -/
theorem currentError_afterJob {id : Nat} (hjob : s.jobs[id]? = some job)
    (hid : s.currentJob = some id) (outcome : Outcome) :
    (s.afterJob id outcome).currentError = some outcome.error := by
  have hfinished := getElem?_modifyJob s id id fun job => job.finish outcome.error
  rw [if_pos rfl, hjob] at hfinished
  have hcurrent : (s.afterJob id outcome).currentJob = some id := hid
  rw [currentError, hcurrent, Option.bind_some, afterJob, hfinished]
  rfl

theorem finishSetup_eq (s : Session) (outcome : Outcome) :
    ∃ project, s.finishSetup outcome = { s with project := project } := by
  unfold finishSetup
  split_ifs
  · exact ⟨none, rfl⟩
  · exact ⟨s.project, rfl⟩

theorem setupProject_of_idle (hid : s.currentJob = none) (request : JsonObject) :
    s.setupProject request =
      startJob
        { s with
          moduleProperties := modulePropertiesFromRequest request
          settings := some (request.value "settings-directory").toString }
        .setupProject request ⟨.defaultOnly, []⟩ := by
  rw [setupProject, if_neg (by simp [hid])]

variable {id : Nat} {job : AbstractJob} {outcome : Outcome}

theorem setupFinished_of_stored (hstored : s.resolveRequest ≠ []) (hid : s.currentJob = some id) :
    s.setupFinished ext job outcome =
      some (startJob
        { s with
          resolveRequest := []
          currentJob := none
          moduleProperties := modulePropertiesFromRequest s.resolveRequest
          settings := some (s.resolveRequest.value "settings-directory").toString }
        .setupProject s.resolveRequest ⟨.defaultOnly, []⟩) := by
  rw [setupFinished, if_pos hstored, deleteCurrentJob, hid, Option.map_some, Option.map_some,
    setupProject_of_idle rfl]

theorem setupFinished_of_not_stored (hstored : s.resolveRequest = [])
    (hid : s.currentJob = some id) :
    s.setupFinished ext job outcome =
      some
        { s with
          project := outcome.newProject
          projectData := projectDataOf outcome.newProject
          currentJob := none
          sent := s.sent ++ [⟨job.request,
            if outcome.error.hasError then
              { Reply.ofType "project-resolved" with error := outcome.error }
            else
              insertProjectDataIfNecessary ext
                { s with
                  project := outcome.newProject
                  projectData := projectDataOf outcome.newProject }
                (Reply.ofType "project-resolved") (dataModeFromRequest job.request) s.projectData
                true⟩] } := by
  rw [setupFinished, if_neg (not_not.mpr hstored)]
  simp only [deleteCurrentJob, sendPacket, hid, Option.map_some]

theorem ended_setupFinished (hid : s.currentJob = some id) (hconnected : job.connected = true)
    (htype : job.type = .setupProject) (project : Option Project) :
    ∃ s', setupFinished ext { s.afterJob id outcome with project := project } job
        outcome = some s' ∧ Ended ext s id job outcome s' := by
  have hread : s.dataRead job outcome = projectDataOf outcome.newProject := by
    rw [dataRead, htype]
  by_cases hstored : s.resolveRequest = []
  · refine ⟨_, setupFinished_of_not_stored hstored hid, ?_⟩
    rw [← hread]
    exact Ended.answered outcome.newProject _ hconnected (fun _ => hstored)
      (Concluding.of_data _ true rfl rfl (by rw [htype]; rfl) (by rw [htype]; exact Or.inl rfl))
  · exact ⟨_, setupFinished_of_stored hstored hid,
      Ended.superseded project hconnected htype hstored⟩

theorem buildFinished_of_current (hid : s.currentJob = some id)
    (herror : s.currentError = some outcome.error) :
    s.buildFinished ext job outcome =
      some
        { s with
          projectData := projectDataOf s.project
          currentJob := none
          sent := s.sent ++ [⟨job.request,
            if outcome.error.hasError then
              { Reply.ofType "project-built" with error := outcome.error }
            else
              insertProjectDataIfNecessary ext
                { s with projectData := projectDataOf s.project }
                (Reply.ofType "project-built") (dataModeFromRequest job.request) s.projectData
                false⟩] } := by
  have herror' : currentError { s with projectData := projectDataOf s.project } =
      some outcome.error := herror
  unfold buildFinished
  split_ifs
  · dsimp only
    rw [herror']
    simp [deleteCurrentJob, sendPacket, hid]
  · simp [deleteCurrentJob, sendPacket, hid]

theorem ended_buildFinished (hjob : s.jobs[id]? = some job) (hid : s.currentJob = some id)
    (hconnected : job.connected = true) (htype : job.type = .build) :
    ∃ s', buildFinished ext
        { s.afterJob id outcome with project := s.project.map outcome.existingProject } job
        outcome = some s' ∧ Ended ext s id job outcome s' := by
  have hread : s.dataRead job outcome = projectDataOf (s.project.map outcome.existingProject) := by
    rw [dataRead, htype]
  refine ⟨_, buildFinished_of_current hid (currentError_afterJob hjob hid outcome), ?_⟩
  rw [← hread]
  exact Ended.answered (s.project.map outcome.existingProject) _ hconnected (by simp [htype])
    (Concluding.of_data _ false rfl rfl (by rw [htype]; rfl) (by rw [htype]; exact Or.inr rfl))

theorem plainFinished_of_current (hid : s.currentJob = some id)
    (herror : s.currentError = some outcome.error) (type : String) :
    s.plainFinished job outcome type =
      some
        { s with
          currentJob := none
          sent := s.sent ++ [⟨job.request,
            { Reply.ofType type with
              error := if outcome.error.hasError then outcome.error else ErrorInfo.none }⟩] } := by
  unfold plainFinished
  split_ifs
  · simp [herror, deleteCurrentJob, sendErrorInfo, sendPacket, hid]
  · simp [deleteCurrentJob, sendErrorInfo, sendPacket, hid]

theorem ended_plainFinished (hjob : s.jobs[id]? = some job) (hid : s.currentJob = some id)
    (hconnected : job.connected = true) (htype : job.type = .clean ∨ job.type = .install)
    (hreply : replyType job.type.requestType = some type) :
    ∃ s', plainFinished
        { s.afterJob id outcome with project := s.project.map outcome.existingProject } job
        outcome type = some s' ∧ Ended ext s id job outcome s' := by
  have hplain : job.type ≠ .setupProject ∧ ¬RetrievesData job.type.requestType ∧
      s.dataRead job outcome = s.projectData := by
    rcases htype with htype | htype
    · simp [dataRead, htype, RetrievesData, JobType.requestType]
    · simp [dataRead, htype, RetrievesData, JobType.requestType]
  have hconcluding : Concluding ext s job outcome
      { Reply.ofType type with
        error := if outcome.error.hasError then outcome.error else ErrorInfo.none } := by
    refine ⟨hreply, ?_, by simp [Reply.ofType], fun _ _ h => absurd h hplain.2.1⟩
    split_ifs with hfailed
    · rfl
    · simpa [ErrorInfo.hasError, ErrorInfo.none] using hfailed
  refine ⟨_, plainFinished_of_current
    (s := { s.afterJob id outcome with project := s.project.map outcome.existingProject }) hid
    (currentError_afterJob hjob hid outcome) type, ?_⟩
  have hended : Ended ext s id job outcome _ :=
    Ended.answered (s.project.map outcome.existingProject) _ hconnected
      (fun h => absurd h hplain.1) hconcluding
  rw [hplain.2.2] at hended
  exact hended

/-- The end of each job can be handled. -/
theorem Consistent.ended (h : Consistent s) (ext : Externals)
    (hjob : s.jobs[id]? = some job) (hstate : job.state ≠ .finished) (outcome : Outcome) :
    ∃ s', s.handleFinished ext id job outcome = some s' ∧
      Ended ext s id job outcome s' := by
  unfold handleFinished
  dsimp only
  cases hconnected : job.connected with
  | false =>
      rw [if_neg (by simp)]
      split_ifs
      · exact ⟨_, rfl, Ended.silent true hconnected⟩
      · exact ⟨_, rfl, Ended.silent s.exited hconnected⟩
  | true =>
      rw [if_pos rfl]
      obtain ⟨-, hid⟩ := h.active id job hjob ⟨hconnected, hstate⟩
      cases htype : job.type with
      | setupProject =>
          obtain ⟨project, hproject⟩ := finishSetup_eq
            { s.afterJob id outcome with project := s.project.map outcome.existingProject } outcome
          rw [afterJob] at hproject
          dsimp only at hproject ⊢
          rw [hproject]
          exact ended_setupFinished hid hconnected htype project
      | build => exact ended_buildFinished hjob hid hconnected htype
      | clean => exact ended_plainFinished hjob hid hconnected (Or.inl htype) (by rw [htype]; rfl)
      | install => exact ended_plainFinished hjob hid hconnected (Or.inr htype) (by rw [htype]; rfl)

/-! ## Steps -/

theorem soundJob_finish (h : SoundJob job) (error : ErrorInfo) :
    SoundJob (job.finish error) :=
  ⟨by simp [AbstractJob.finish], h.asked⟩

theorem not_isActive_finish (error : ErrorInfo) (job : AbstractJob) :
    ¬IsActive (job.finish error) :=
  fun h => h.2 rfl

theorem soundJobs_afterJob (h : Consistent s) :
    ∀ job, job ∈ (s.afterJob id outcome).jobs → SoundJob job :=
  soundJobs_modifyJob h.jobs (fun _ hjob => soundJob_finish hjob outcome.error) id

theorem afterJob_ne_nil (hjob : s.jobs[id]? = some job) (outcome : Outcome) :
    (s.afterJob id outcome).jobs ≠ [] := by
  refine modifyJob_ne_nil.mpr fun hnil => ?_
  simp [hnil] at hjob

/-- Nothing waits behind a job that does not resolve the project. -/
theorem Consistent.stored_of_type (h : Consistent s) (hreading : s.reading = true)
    (hjob : s.jobs[id]? = some job) (hid : s.currentJob = some id)
    (htype : job.type ≠ .setupProject) : s.resolveRequest = [] := by
  by_contra hne
  have hcanceled := (h.stored hreading hne).1
  simp [resolvingCanceled, hid, hjob, htype] at hcanceled

theorem Consistent.stored_of_answered (h : Consistent s) (hjob : s.jobs[id]? = some job)
    (hreading : s.reading = true) (hid : s.currentJob = some id)
    (hstored : job.type = .setupProject → s.resolveRequest = []) : s.resolveRequest = [] := by
  by_cases htype : job.type = .setupProject
  · exact hstored htype
  · exact h.stored_of_type hreading hjob hid htype

theorem consistent_silent (h : Consistent s) (hjob : s.jobs[id]? = some job)
    (hconnected : job.connected = false) (exited : Bool) :
    Consistent { s.afterJob id outcome with exited := exited } := by
  -- The current job is another one.
  have hother : ∀ i, s.reading = true → s.currentJob = some i →
      (s.afterJob id outcome).jobs[i]? = s.jobs[i]? := by
    intro i hreading hi
    obtain ⟨current, hcurrent, hactive⟩ := h.current i hreading hi
    refine (getElem?_modifyJob s id i _).trans (if_neg ?_)
    rintro rfl
    rw [Option.some.inj (hjob.symm.trans hcurrent), hactive.1] at hconnected
    simp at hconnected
  refine ⟨soundJobs_afterJob h, ?_, ?_, ?_, fun _ => h.settings ?_,
    fun _ => afterJob_ne_nil hjob outcome⟩
  · intro i hreading hi
    obtain ⟨current, hcurrent, hactive⟩ := h.current i hreading hi
    exact ⟨current, (hother i hreading hi).trans hcurrent, hactive⟩
  · intro i old hold hactive
    have hold' := (getElem?_modifyJob s id i _).symm.trans hold
    split_ifs at hold' with hi
    · obtain ⟨job', -, rfl⟩ := Option.map_eq_some_iff.mp hold'
      exact absurd hactive (not_isActive_finish outcome.error job')
    · exact h.active i old hold' hactive
  · intro hreading hne
    obtain ⟨hcanceled, htype⟩ := h.stored hreading hne
    refine ⟨?_, htype⟩
    cases hid : s.currentJob with
    | none => simp [resolvingCanceled, hid] at hcanceled
    | some i =>
        have hid' : (s.afterJob id outcome).currentJob = some i := hid
        rw [resolvingCanceled, hid, Option.bind_some, ← hother i hreading hid] at hcanceled
        rw [resolvingCanceled]
        dsimp only
        rw [hid', Option.bind_some]
        exact hcanceled
  · exact modifyJob_ne_nil.mp (afterJob_ne_nil hjob outcome)

theorem Ended.consistent (h : Consistent s) (hjob : s.jobs[id]? = some job)
    (hstate : job.state ≠ .finished) (hended : Ended ext s id job outcome s') :
    Consistent s' := by
  cases hended with
  | silent exited hconnected => exact consistent_silent h hjob hconnected exited
  | superseded project hconnected htype hstored =>
      obtain ⟨hreading, hid⟩ := h.active id job hjob ⟨hconnected, hstate⟩
      exact consistent_startJob (soundJobs_afterJob h)
        (h.noneActive_modifyJob hid (not_isActive_finish outcome.error)) hreading rfl rfl
        (h.stored hreading hstored).2
  | answered project reply hconnected hstored hreply =>
      obtain ⟨hreading, hid⟩ := h.active id job hjob ⟨hconnected, hstate⟩
      have hnil := h.stored_of_answered hjob hreading hid hstored
      exact consistent_of_idle (soundJobs_afterJob h)
        (h.noneActive_modifyJob hid (not_isActive_finish outcome.error)) (fun _ => ⟨rfl, hnil⟩)
        (fun hne => h.settings (modifyJob_ne_nil.mp hne)) (fun _ => afterJob_ne_nil hjob outcome)

/-- What a step does. -/
theorem Step.cases {e : Event} (h : Consistent s) (hstep : Step ext s e s') :
    (∃ request api, e = .packet request api ∧ s.reading = true ∧
      Handled ext s request s') ∨
    ∃ id outcome job, e = .finished id outcome ∧ s.jobs[id]? = some job ∧
      job.state ≠ .finished ∧ Ended ext s id job outcome s' := by
  obtain ⟨henabled, hhandle⟩ := hstep
  cases e with
  | packet request api =>
      exact Or.inl ⟨request, api, rfl, henabled.2,
        handled_of_handlePacket h.settings_of_project hhandle⟩
  | finished id outcome =>
      obtain ⟨-, job, hjob, hstate⟩ := henabled
      refine Or.inr ⟨id, outcome, job, rfl, hjob, hstate, ?_⟩
      rw [handle, hjob, Option.bind_some] at hhandle
      obtain ⟨t, ht, hended⟩ := h.ended ext hjob hstate outcome
      rw [hhandle] at ht
      rw [Option.some.inj ht]
      exact hended

theorem Step.consistent {e : Event} (h : Consistent s) (hstep : Step ext s e s') :
    Consistent s' := by
  rcases hstep.cases h with ⟨request, api, rfl, hreading, hhandled⟩ |
    ⟨id, outcome, job, rfl, hjob, hstate, hended⟩
  · exact hhandled.consistent h hreading
  · exact hended.consistent h hjob hstate

theorem consistent_of_run {trace : List (Session × Event)}
    (hrun : Run (Step ext) initial trace s) : Consistent s :=
  hrun.invariant_of_steps (fun _ _ _ h hstep => hstep.consistent h) consistent_initial

/-- Every event can be handled. -/
theorem Consistent.exists_step (h : Consistent s) (ext : Externals)
    {e : Event} (henabled : s.Enabled e) : ∃ s', Step ext s e s' := by
  cases e with
  | packet request api =>
      suffices hhandle : ∃ s', s.handlePacket ext api request = some s' by
        obtain ⟨s', hs'⟩ := hhandle
        exact ⟨s', henabled, hs'⟩
      unfold handlePacket
      split
      case h_2 =>
        unfold buildProject
        split
        · exact ⟨_, rfl⟩
        · rename_i hprerequisites
          have hsettings := h.settings_of_project (prerequisiteError_eq_none hprerequisites).2
          obtain ⟨directory, hdirectory⟩ := Option.isSome_iff_exists.mp hsettings
          exact ⟨_, by rw [hdirectory, Option.map_some]⟩
      all_goals exact ⟨_, rfl⟩
  | finished id outcome =>
      obtain ⟨hexited, job, hjob, hstate⟩ := henabled
      obtain ⟨s', hs', -⟩ := h.ended ext hjob hstate outcome
      refine ⟨s', ⟨hexited, job, hjob, hstate⟩, ?_⟩
      rw [handle, hjob, Option.bind_some, hs']

end Session

end Qbs
