import QbsCore.Session.SessionRuns

/-!
# The project data that a client has

A client that asks for project data only if they have changed keeps those that it got last.  They
are the current ones as long as a failed job does not change the data, and as long as what the
comparison of project data leaves out or takes loosely does not change alone.

Main results:

- Structure {lit}`Session.Tracked`: the invariant of such sessions.
- Theorem {lit}`Session.client_current`: the client has the current data.
- Theorem {lit}`Session.upToDate_of_run`: it has them after replies without errors.

Current gaps:

- None.
-/

namespace Qbs

namespace Session

open Api TransitionSystem

variable {ext : Externals} {s s' : Session} {request : JsonObject} {names : List String} {id : Nat}
  {job : AbstractJob} {outcome : Outcome}

/-- The project data that came with the last reply that had some. -/
def clientData (s : Session) : Option JsonObject :=
  (s.sent.filterMap fun a => a.reply.projectData).getLast?

/-- If there is a project, the client has its data, with some module properties. -/
def Current (ext : Externals) (names : List String) (s : Session) : Prop :=
  s.projectData.isValid = true → ∃ attached, s.clientData = some attached ∧
    Shows attached (s.projectData.toJson ext names)

/-- The client asks for data, and always for the same module properties. -/
structure AsksForData (names : List String) (request : JsonObject) : Prop where
  mode : dataModeFromRequest request ≠ .never
  properties : modulePropertiesFromRequest request = names

/-- Requests ask for data. A job that fails changes no data that stay valid, and one that does not
fail gives valid data. If these equal the old data then the parts are the same that the comparison
leaves out or takes loosely. -/
def Tracks (ext : Externals) (names : List String) (s : Session) :
    Event → Prop
  | .packet request _ => RetrievesData (requestType request) → AsksForData names request
  | .finished id outcome =>
      ∀ job, s.jobs[id]? = some job → job.connected = true →
        RetrievesData job.type.requestType → (job.type = .setupProject → s.resolveRequest = []) →
          if outcome.error.hasError then
            (s.dataRead job outcome).isValid = true →
              (s.dataRead job outcome).toJson ext names =
                s.projectData.toJson ext names
          else
            (s.dataRead job outcome).isValid = true ∧
              ((s.dataRead job outcome).equals ext s.projectData = true →
                (s.dataRead job outcome).SameOmitted ext names s.projectData)

structure Tracked (ext : Externals) (names : List String) (s : Session) :
    Prop where
  properties : s.jobs ≠ [] → s.moduleProperties = names
  modes : ∀ job, job ∈ s.jobs → RetrievesData job.type.requestType →
    dataModeFromRequest job.request ≠ .never
  waiting : s.resolveRequest ≠ [] → AsksForData names s.resolveRequest
  current : Current ext names s
  /-- After a reply about data without an error there are data. -/
  succeeded : ∀ a, s.sent.getLast? = some a → RetrievesData (requestType a.request) →
    a.reply.error.hasError = false → s.projectData.isValid = true

theorem tracked_initial : Tracked ext names initial where
  properties := by simp [initial]
  modes := by simp [initial]
  waiting := by simp [initial]
  current := by simp [Current, initial, noProjectData]
  succeeded := by simp [initial]

/-! ## Changes of jobs -/

/-- Types and requests of jobs do not change. -/
theorem modes_modifyJob {f : AbstractJob → AbstractJob}
    (hf : ∀ job, (f job).type = job.type ∧ (f job).request = job.request)
    (h : ∀ job, job ∈ s.jobs → RetrievesData job.type.requestType →
      dataModeFromRequest job.request ≠ .never) (id : Nat) :
    ∀ job, job ∈ (s.modifyJob id f).jobs → RetrievesData job.type.requestType →
      dataModeFromRequest job.request ≠ .never := by
  intro job hjob
  obtain ⟨i, hi⟩ := List.mem_iff_getElem?.mp hjob
  rw [getElem?_modifyJob] at hi
  split_ifs at hi
  · obtain ⟨old, hold, rfl⟩ := Option.map_eq_some_iff.mp hi
    rw [(hf old).1, (hf old).2]
    exact h old (List.mem_of_getElem? hold)
  · exact h job (List.mem_of_getElem? hi)

theorem type_cancel (job : AbstractJob) : job.cancel.type = job.type := by
  unfold AbstractJob.cancel
  split_ifs
  · rfl
  · rfl

theorem Tracked.modifyJob (h : Tracked ext names s) (id : Nat)
    {f : AbstractJob → AbstractJob}
    (hf : ∀ job, (f job).type = job.type ∧ (f job).request = job.request) :
    Tracked ext names (s.modifyJob id f) where
  properties := fun hne => h.properties (modifyJob_ne_nil.mp hne)
  modes := modes_modifyJob hf h.modes id
  waiting := h.waiting
  current := h.current
  succeeded := h.succeeded

/-- A job is added, for a request that asks for data if its type does. -/
theorem Tracked.startJob (h : Tracked ext names s) {type : JobType}
    (hmode : RetrievesData type.requestType → dataModeFromRequest request ≠ .never)
    {moduleProperties : List String} (hproperties : moduleProperties = names)
    (settings : Option String) (selection : ProductSelection) :
    Tracked ext names
      (startJob { s with moduleProperties := moduleProperties, settings := settings } type request
        selection) where
  properties := fun _ => hproperties
  modes := by
    intro job hjob
    rcases List.mem_append.mp hjob with hjob | hjob
    · exact h.modes job hjob
    · rw [List.mem_singleton.mp hjob]
      exact hmode
  waiting := h.waiting
  current := h.current
  succeeded := h.succeeded

/-! ## Replies -/

theorem clientData_append (sent : List Answer) (a : Answer) (s : Session) :
    clientData { s with sent := sent ++ [a] } =
      a.reply.projectData.or (clientData { s with sent := sent }) := by
  unfold clientData
  rw [List.filterMap_append]
  cases hdata : a.reply.projectData with
  | none => simp [hdata]
  | some obj => simp [hdata]

/-- After a reply the client has the data of the reply or, if that has none, those from before. -/
theorem current_of_reply {reply : Reply} {projectData : ProjectData}
    (hdata : ∀ obj, reply.projectData = some obj →
      Shows obj (projectData.toJson ext names))
    (hnone : reply.projectData = none → projectData.isValid = true →
      ∃ attached, s.clientData = some attached ∧
        Shows attached (projectData.toJson ext names)) :
    Current ext names
      { s with projectData := projectData, sent := s.sent ++ [⟨request, reply⟩] } := by
  intro hvalid
  have hclient : clientData
      { s with projectData := projectData, sent := s.sent ++ [⟨request, reply⟩] } =
        reply.projectData.or s.clientData :=
    clientData_append s.sent ⟨request, reply⟩ { s with projectData := projectData }
  rw [hclient]
  cases hreply : reply.projectData with
  | none =>
      rw [Option.none_or]
      exact hnone hreply hvalid
  | some obj => exact ⟨obj, by rw [Option.some_or], hdata obj hreply⟩

theorem toJson_ne_nil_iff (ext : Externals) (names : List String)
    (p : ProjectData) : p.toJson ext names ≠ [] ↔ p.isValid = true := by
  rw [ProjectData.toJson_unfold]
  split_ifs with hvalid
  · simp [hvalid, objectOf_ne_nil]
  · simp [hvalid]

/-! ## Steps -/

theorem Handled.tracked (hconsistent : Consistent s) (h : Tracked ext names s)
    (hasks : RetrievesData (requestType request) → AsksForData names request)
    (hhandled : Handled ext s request s') :
    Tracked ext names s' := by
  cases hhandled with
  | answered reply hreply =>
      have hcurrent : Current ext names
          { s with projectData := s.projectData, sent := s.sent ++ [⟨request, reply⟩] } := by
        refine current_of_reply (fun obj hobj => ?_) fun _ => h.current
        obtain ⟨hproject, rfl⟩ := hreply.data obj hobj
        rw [h.properties (hconsistent.project hproject)]
        exact shows_refl _
      refine ⟨h.properties, h.modes, h.waiting, hcurrent, fun a ha hretrieves herror => ?_⟩
      rw [sendPacket, List.getLast?_concat] at ha
      obtain rfl := Option.some.inj ha
      rw [hreply.error hretrieves] at herror
      simp at herror
  | started type selection moduleProperties settings hstart =>
      refine h.startJob (fun hretrieves => (hasks (hstart.asked ▸ hretrieves)).mode) ?_ settings
        selection
      rw [hstart.properties]
      split_ifs with hretrieves
      · exact (hasks (hstart.asked ▸ hretrieves)).properties
      · have hne : type ≠ .setupProject := by
          rintro rfl
          exact hretrieves (Or.inl rfl)
        exact h.properties (hconsistent.project (hstart.settings.2 hne))
  | stored htype =>
      exact ⟨h.properties, h.modes, fun _ => hasks (Or.inl htype), h.current, h.succeeded⟩
  | released htype hproject =>
      rw [releaseProject, if_neg (by simpa [Option.isSome_iff_ne_none] using hproject)]
      have hdrop : Tracked ext names s.dropCurrentJob := by
        unfold dropCurrentJob
        cases s.currentJob with
        | none => exact h
        | some id => exact h.modifyJob id fun job => ⟨type_cancel _, request_cancel _⟩
      refine ⟨hdrop.properties, hdrop.modes, fun hne => absurd rfl hne, fun hvalid => ?_,
        fun a ha hretrieves => ?_⟩
      · simp [sendPacket, noProjectData] at hvalid
      · rw [sendPacket, List.getLast?_concat] at ha
        obtain rfl := Option.some.inj ha
        simp [RetrievesData, htype] at hretrieves
  | quit =>
      unfold quitSession
      cases s.currentJob with
      | none => exact ⟨h.properties, h.modes, h.waiting, h.current, h.succeeded⟩
      | some id =>
          have hmodified := h.modifyJob id
            (f := fun job => { job.disconnect with quits := true }.cancel)
            fun job => ⟨type_cancel _, request_cancel _⟩
          exact ⟨hmodified.properties, hmodified.modes, hmodified.waiting, hmodified.current,
            hmodified.succeeded⟩
  | canceled =>
      unfold cancelCurrentJob
      cases s.currentJob with
      | none => exact h
      | some id =>
          have hmodified := h.modifyJob id fun job => ⟨type_cancel job, request_cancel job⟩
          exact ⟨hmodified.properties, hmodified.modes, fun hne => absurd rfl hne,
            hmodified.current, hmodified.succeeded⟩

/-- What a job has read is what the client has after the reply. -/
theorem current_of_concluding (h : Tracked ext names s)
    (hjob : s.jobs[id]? = some job) {reply : Reply}
    (hreply : Concluding ext s job outcome reply)
    (hdata : RetrievesData job.type.requestType →
      if outcome.error.hasError then
        (s.dataRead job outcome).isValid = true →
          (s.dataRead job outcome).toJson ext names =
            s.projectData.toJson ext names
      else
        (s.dataRead job outcome).isValid = true ∧
          ((s.dataRead job outcome).equals ext s.projectData = true →
            (s.dataRead job outcome).SameOmitted ext names s.projectData)) :
    Current ext names
      { s with
        projectData := s.dataRead job outcome
        sent := s.sent ++ [⟨job.request, reply⟩] } := by
  have hmem : job ∈ s.jobs := List.mem_of_getElem? hjob
  have hproperties := h.properties (List.ne_nil_of_mem hmem)
  refine current_of_reply (fun obj hobj => ?_) fun hnone hvalid => ?_
  · rw [← hproperties]
    exact (hreply.data obj hobj).2
  -- The data that the client already has show what was read.
  suffices hsame : (s.dataRead job outcome).toJson ext names =
      s.projectData.toJson ext names by
    rw [← toJson_ne_nil_iff ext names, hsame, toJson_ne_nil_iff] at hvalid
    rw [hsame]
    exact h.current hvalid
  by_cases hretrieves : RetrievesData job.type.requestType
  · have hdata' := hdata hretrieves
    split_ifs at hdata' with herror
    · exact hdata' hvalid
    · have hequal := hreply.unchanged hnone (by simpa using herror) hretrieves
        (h.modes job hmem hretrieves)
      exact (ProjectData.toJson_eq_iff hequal names).mpr (hdata'.2 hequal)
  · have hread : s.dataRead job outcome = s.projectData := by
      unfold dataRead
      cases htype : job.type with
      | setupProject => exact absurd (Or.inl (by rw [htype]; rfl)) hretrieves
      | build => exact absurd (Or.inr (by rw [htype]; rfl)) hretrieves
      | clean => rfl
      | install => rfl
    rw [hread]

theorem Ended.tracked (hconsistent : Consistent s) (h : Tracked ext names s)
    (hjob : s.jobs[id]? = some job)
    (hok : Tracks ext names s (.finished id outcome))
    (hended : Ended ext s id job outcome s') :
    Tracked ext names s' := by
  have hafter : Tracked ext names (s.afterJob id outcome) :=
    h.modifyJob id fun _ => ⟨rfl, rfl⟩
  cases hended with
  | silent exited =>
      exact ⟨hafter.properties, hafter.modes, hafter.waiting, hafter.current, hafter.succeeded⟩
  | superseded project hconnected htype hstored =>
      have hasks := h.waiting hstored
      have hreset : Tracked ext names
          { s.afterJob id outcome with
            project := project
            resolveRequest := []
            currentJob := none } :=
        ⟨hafter.properties, hafter.modes, fun hne => absurd rfl hne, hafter.current,
          hafter.succeeded⟩
      exact hreset.startJob (fun _ => hasks.mode) hasks.properties _ _
  | answered project reply hconnected hstored hreply =>
      have hdata := fun hretrieves => hok job hjob hconnected hretrieves hstored
      refine ⟨hafter.properties, hafter.modes, hafter.waiting,
        current_of_concluding h hjob hreply hdata, fun a ha hretrieves herror => ?_⟩
      dsimp only at ha
      rw [List.getLast?_concat] at ha
      obtain rfl := Option.some.inj ha
      rw [(hconsistent.jobs job (List.mem_of_getElem? hjob)).asked] at hretrieves
      have hdata' := hdata hretrieves
      rw [hreply.error] at herror
      rw [if_neg (by simp [herror])] at hdata'
      exact hdata'.1

theorem Step.tracked {e : Event} (hconsistent : Consistent s)
    (h : Tracked ext names s) (hok : Tracks ext names s e)
    (hstep : Step ext s e s') : Tracked ext names s' := by
  rcases hstep.cases hconsistent with ⟨request, api, rfl, -, hhandled⟩ |
    ⟨id, outcome, job, rfl, hjob, -, hended⟩
  · exact hhandled.tracked hconsistent h hok
  · exact hended.tracked hconsistent h hjob hok

/-! ## Main result -/

variable {trace : List (Session × Event)}

theorem tracked_of_run (hrun : Run (Step ext) initial trace s)
    (hok : ∀ e, e ∈ trace → Tracks ext names e.1 e.2) : Tracked ext names s := by
  have h : Consistent s ∧ Tracked ext names s := by
    refine hrun.invariant (P := fun s => Consistent s ∧ Tracked ext names s)
      (fun s e => Tracks ext names s e) ?_ ⟨consistent_initial, tracked_initial⟩ hok
    intro t e u ht hok hstep
    exact ⟨hstep.consistent ht.1, hstep.tracked ht.1 ht.2 hok⟩
  exact h.2

/-- In a session whose client always asks for data, with the same module properties, the client has
the current data of a valid project at all times, also while jobs run and after replies with errors.
After a reply about data without an error, there are such data. -/
theorem client_current {trace : List (Session × Event)}
    (hrun : Run (Step ext) initial trace s)
    (hok : ∀ e, e ∈ trace → Tracks ext names e.1 e.2) :
    (s.projectData.isValid = true → ∃ attached, s.clientData = some attached ∧
      Shows attached (s.projectData.toJson ext names)) ∧
    ∀ a, s.sent.getLast? = some a → RetrievesData (requestType a.request) →
      a.reply.error.hasError = false → s.projectData.isValid = true :=
  ⟨(tracked_of_run hrun hok).current, (tracked_of_run hrun hok).succeeded⟩

theorem tracks_resolved : ∀ e, e ∈ resolvedTrace → Tracks sampleExternals [] e.1 e.2 := by
  intro e he
  simp only [resolvedTrace, List.mem_cons, List.not_mem_nil, or_false] at he
  rcases he with rfl | rfl | rfl | rfl | rfl
  · exact fun _ => ⟨by decide, by decide⟩
  · exact fun hretrieves => absurd hretrieves (by decide)
  · exact fun _ => ⟨by decide, by decide⟩
  · intro job hjob
    obtain rfl : _ = job := Option.some.inj hjob
    exact fun _ _ _ => (if_pos rfl).mpr fun hvalid => absurd hvalid Bool.false_ne_true
  · intro job hjob
    obtain rfl : _ = job := Option.some.inj hjob
    exact fun _ _ _ => (if_neg (by decide)).mpr ⟨rfl, fun hequal => absurd hequal (by decide)⟩

/-- The project that was resolved after another request was canceled. -/
theorem client_current_resolved : ∃ attached, resolved.clientData = some attached ∧
    Shows attached (resolved.projectData.toJson sampleExternals []) :=
  (client_current run_resolved tracks_resolved).1 rfl

/-! ## Replies without errors -/

/-- If the last reply is one about data and without an error, the client has the current data. -/
def UpToDate (ext : Externals) (names : List String) (s : Session) : Prop :=
  ∀ a, s.sent.getLast? = some a → RetrievesData (requestType a.request) →
    a.reply.error.hasError = false → ∃ attached, s.clientData = some attached ∧
      Shows attached (s.projectData.toJson ext names)

/-- After each reply about data without an error the client has the current data, if the jobs before
it have changed no data without the client being told. -/
theorem upToDate_of_run (hrun : Run (Step ext) initial trace s)
    (hok : ∀ e, e ∈ trace → Tracks ext names e.1 e.2) : UpToDate ext names s := by
  intro a ha hretrieves herror
  have htracked := tracked_of_run hrun hok
  exact htracked.current (htracked.succeeded a ha hretrieves herror)

theorem upToDate_resolved : UpToDate sampleExternals [] resolved :=
  upToDate_of_run run_resolved tracks_resolved

/-- A request to resolve or to build that asks for data if they have changed. -/
def AsksIfChanged (names : List String) : Event → Prop
  | .packet request _ =>
      RetrievesData (requestType request) ∧ dataModeFromRequest request = .onlyIfChanged ∧
        modulePropertiesFromRequest request = names
  | .finished _ _ => True

/-- A project whose product has some generated files. -/
def projectWith (generatedFiles : List String) : Project where
  projectData :=
    ⟨"p", Api.CodeLocation.none, true, true,
      [⟨[], [], "p", "p", "", "", Api.CodeLocation.none, "/b/p", [], [], [],
        generatedFiles.map fun f => ⟨f, [], [], ⟨"", "", false, false⟩, true, true, false⟩,
        true, false, false, true⟩], [], "/b"⟩
  buildSystemFiles := []
  bgFilePath := ""
  profileData := []
  overriddenProperties := []

/-- A job leaves the project with some generated files. -/
def leaving (generatedFiles : List String) (error : ErrorInfo) : Outcome :=
  ⟨error, fun _ => projectWith generatedFiles, false, some (projectWith generatedFiles)⟩

/-- A build generates a file and fails, and the next one changes nothing: the client is not told of
the file. -/
theorem not_upToDate_rebuilt : ¬∀ (trace : List (Session × Event)) (s : Session),
    Run (Step sampleExternals) initial trace s → (∀ e, e ∈ trace → AsksIfChanged [] e.2) →
      UpToDate sampleExternals [] s := by
  intro hall
  have hresolved := run_after (.finished 0 (leaving [] ErrorInfo.none))
    (run_after (.packet (resolveSample "/a") sampleApi) Run.nil ⟨rfl, rfl⟩ rfl)
    ⟨rfl, _, rfl, by decide⟩ rfl
  have hfailed := run_after
    (.finished 1 (leaving ["/b/p/o"] (ErrorInfo.ofText "Build failed.")))
    (run_after (.packet buildSample sampleApi) hresolved ⟨rfl, rfl⟩ rfl)
    ⟨rfl, _, rfl, by decide⟩ rfl
  have hrebuilt := run_after (.finished 2 (leaving ["/b/p/o"] ErrorInfo.none))
    (run_after (.packet buildSample sampleApi) hfailed ⟨rfl, rfl⟩ rfl)
    ⟨rfl, _, rfl, by decide⟩ rfl
  have hasks : AsksIfChanged [] (.packet buildSample sampleApi) := by
    exact ⟨by decide, by decide, by decide⟩
  obtain ⟨attached, hclient, hshows⟩ := hall _ _ hrebuilt
    (by
      simp only [List.mem_append, List.mem_singleton, List.not_mem_nil, false_or]
      rintro e (((((rfl | rfl) | rfl) | rfl) | rfl) | rfl)
      · exact ⟨by decide, by decide, by decide⟩
      · trivial
      · exact hasks
      · trivial
      · exact hasks
      · trivial) _ rfl (by decide) rfl
  have hsame := hshows "products" (by decide)
  rw [← Option.some.inj hclient] at hsame
  revert hsame
  decide +kernel

end Session

end Qbs
