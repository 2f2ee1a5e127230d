import QbsCore.Session.SessionSteps

/-!
# Runs of sessions

Requests and the ends of jobs come in any order.  Each request that came in was answered once, was
dropped, or is still to be answered.

Main results:

- Theorem {lit}`Session.requests_accounted`: where the requests of a run are.
- Theorem {lit}`Session.handlers_sound`: a session can always go on, and what runs is the current
  job.
- Theorem {lit}`Session.protocol_of_run`: sessions keep to the protocol.

Current gaps:

- Whether the work of a job ends at all.
-/

namespace Qbs

namespace Session

open Api TransitionSystem

variable {ext : Externals} {s s' : Session} {request : JsonObject} {api : ProjectApi} {id : Nat}
  {job : AbstractJob} {outcome : Outcome}

/-! ## Requests and their answers -/

/-- The request that waits behind the current job, if there is any. -/
def waitingRequest (s : Session) : List JsonObject :=
  if s.resolveRequest = [] then [] else [s.resolveRequest]

/-- The request of the current job, if there is any. -/
def currentRequest (s : Session) : List JsonObject :=
  ((s.currentJob.bind fun id => s.jobs[id]?).map AbstractJob.request).toList

/-- The requests that are still to be answered. -/
def pending (s : Session) : List JsonObject :=
  if s.reading then s.currentRequest ++ s.waitingRequest else []

/-- The request that comes in, if it is one that is to be answered. -/
def received : Event → List JsonObject
  | .packet request _ => if (replyType (requestType request)).isSome then [request] else []
  | .finished _ _ => []

/-- The requests that will not be answered after all. A request that waits is dropped by a newer one
and by the cancelation of the current job. Everything is dropped with the project or the session.
The request of a canceled job is dropped if another one waits when the job has ended. -/
def dropped (s : Session) : Event → List JsonObject
  | .packet request _ =>
      match requestType request with
      | .resolveProject => if s.resolvingCanceled then s.waitingRequest else []
      | .cancelJob => s.waitingRequest
      | .releaseProject => if s.project.isSome then s.pending else []
      | .quit => s.pending
      | _ => []
  | .finished id _ =>
      if s.reading = true ∧ s.currentJob = some id ∧ s.resolveRequest ≠ [] then s.currentRequest
      else []

/-- The requests of a step go to where they belong. -/
structure Accounts (s : Session) (e : Event) (s' : Session) (answers : List Answer) : Prop where
  sent : s'.sent = s.sent ++ answers
  requests : (s.pending ++ received e).Perm
    (answers.map Answer.request ++ s.dropped e ++ s'.pending)
  types : ∀ a, a ∈ answers → replyType (requestType a.request) = some a.reply.type

theorem request_ne_nil (h : requestType request = .resolveProject) : request ≠ [] := by
  rintro rfl
  simp [requestType, requestTypeOfString, VariantMap.value, Variant.toString] at h

theorem currentRequest_modifyJob (s : Session) (id : Nat) {f : AbstractJob → AbstractJob}
    (hf : ∀ job, (f job).request = job.request) :
    (s.modifyJob id f).currentRequest = s.currentRequest := by
  unfold currentRequest
  have hcurrent : (s.modifyJob id f).currentJob = s.currentJob := rfl
  rw [hcurrent]
  cases s.currentJob with
  | none => rfl
  | some i =>
      rw [Option.bind_some, Option.bind_some, getElem?_modifyJob]
      split_ifs
      · simp [Function.comp_def, hf]
      · rfl

theorem currentRequest_of_idle (hid : s.currentJob = none) : s.currentRequest = [] := by
  rw [currentRequest, hid]
  rfl

theorem currentRequest_of_current (hjob : s.jobs[id]? = some job) (hid : s.currentJob = some id) :
    s.currentRequest = [job.request] := by
  rw [currentRequest, hid, Option.bind_some, hjob]
  rfl

theorem currentRequest_startJob (t : Session) (type : JobType) (selection : ProductSelection) :
    (t.startJob type request selection).currentRequest = [request] := by
  have hjob : (t.startJob type request selection).jobs[t.jobs.length]? =
      some ⟨type, request, selection, .running, ErrorInfo.none, true, false⟩ :=
    List.getElem?_concat_length
  exact currentRequest_of_current hjob rfl

theorem waitingRequest_of_nil (h : s.resolveRequest = []) : s.waitingRequest = [] :=
  if_pos h

theorem waitingRequest_of_ne (h : s.resolveRequest ≠ []) : s.waitingRequest = [s.resolveRequest] :=
  if_neg h

theorem request_cancel (job : AbstractJob) : job.cancel.request = job.request := by
  unfold AbstractJob.cancel
  split_ifs
  · rfl
  · rfl

theorem received_eq (h : (replyType (requestType request)).isSome) :
    received (.packet request api) = [request] :=
  if_pos h

theorem pending_of_reading (hreading : s.reading = true) :
    s.pending = s.currentRequest ++ s.waitingRequest :=
  if_pos hreading

theorem pending_of_not_reading (hreading : s.reading = false) : s.pending = [] :=
  if_neg (by simp [hreading])

theorem pending_startJob {t : Session} (hreading : t.reading = true) (hnil : t.resolveRequest = [])
    (type : JobType) (selection : ProductSelection) :
    (t.startJob type request selection).pending = [request] := by
  have hwaiting : (t.startJob type request selection).waitingRequest = [] :=
    waitingRequest_of_nil hnil
  have hpending : (t.startJob type request selection).pending = _ := pending_of_reading hreading
  rw [hpending, currentRequest_startJob, hwaiting]
  rfl

theorem resolvingCanceled_of_idle (hid : s.currentJob = none) : s.resolvingCanceled = false := by
  rw [resolvingCanceled, hid]
  rfl

/-- An immediate reply drops nothing. -/
theorem dropped_of_answered (htype : (replyType (requestType request)).isSome)
    (hresolve : requestType request = .resolveProject → s.resolvingCanceled = false)
    (hrelease : requestType request = .releaseProject → s.project = none) :
    s.dropped (.packet request api) = [] := by
  unfold dropped
  dsimp only
  split
  · rename_i hrequest
    simp [hresolve hrequest]
  · rename_i hrequest
    simp [hrequest, replyType] at htype
  · rename_i hrequest
    simp [hrelease hrequest]
  · rename_i hrequest
    simp [hrequest, replyType] at htype
  · rfl

theorem replyType_isSome (type : JobType) : (replyType type.requestType).isSome := by
  cases type <;> rfl

theorem Startable.accounts {type : JobType} {moduleProperties : List String}
    {settings : Option String} (hstart : Startable s type request moduleProperties settings)
    (h : Consistent s) (hreading : s.reading = true) (selection : ProductSelection) :
    Accounts s (.packet request api)
      (startJob { s with moduleProperties := moduleProperties, settings := settings } type request
        selection) [] := by
  have hnil : s.resolveRequest = [] := h.stored_eq_nil hreading hstart.idle
  have hsome : (replyType (requestType request)).isSome := by
    rw [hstart.asked]
    exact replyType_isSome type
  have hdropped : s.dropped (.packet request api) = [] := by
    refine dropped_of_answered hsome (fun _ => resolvingCanceled_of_idle hstart.idle) ?_
    rw [hstart.asked]
    cases type <;> simp [JobType.requestType]
  have hpending : pending (startJob
      { s with moduleProperties := moduleProperties, settings := settings } type request
        selection) = [request] := pending_startJob hreading hnil type selection
  refine ⟨(List.append_nil _).symm, ?_, by simp⟩
  rw [received_eq hsome, pending_of_reading hreading, currentRequest_of_idle hstart.idle,
    waitingRequest_of_nil hnil, hdropped, hpending]
  exact List.Perm.refl _

theorem Handled.accounts (h : Consistent s) (hreading : s.reading = true)
    (hhandled : Handled ext s request s') :
    ∃ answers, Accounts s (.packet request api) s' answers := by
  cases hhandled with
  | answered reply hreply hresolve hrelease =>
      have hsome : (replyType (requestType request)).isSome := by simp [hreply.answers]
      refine ⟨[⟨request, reply⟩], rfl, ?_, ?_⟩
      · rw [received_eq hsome, dropped_of_answered hsome hresolve hrelease, List.append_nil]
        exact List.perm_append_comm
      · intro a ha
        rw [List.mem_singleton.mp ha]
        exact hreply.answers
  | started type selection moduleProperties settings hstart =>
      exact ⟨[], hstart.accounts h hreading selection⟩
  | stored htype hcanceled =>
      have hdropped : s.dropped (.packet request api) = s.waitingRequest := by
        simp [dropped, htype, hcanceled]
      have hwaiting : waitingRequest { s with resolveRequest := request } = [request] :=
        waitingRequest_of_ne (s := { s with resolveRequest := request }) (request_ne_nil htype)
      have hpending : pending { s with resolveRequest := request } =
          s.currentRequest ++ [request] := by
        rw [← hwaiting]
        exact pending_of_reading hreading
      refine ⟨[], (List.append_nil _).symm, ?_, by simp⟩
      rw [received_eq (by simp [htype, replyType]), pending_of_reading hreading, hdropped, hpending,
        List.map_nil, List.nil_append, ← List.append_assoc]
      exact List.perm_append_comm.append_right _
  | released htype hproject =>
      have hdropped : s.dropped (.packet request api) = s.pending := by
        simp [dropped, htype, hproject]
      rw [releaseProject, if_neg (by simpa [Option.isSome_iff_ne_none] using hproject)]
      have hsent : s.dropCurrentJob.sent = s.sent := by
        unfold dropCurrentJob
        cases s.currentJob <;> rfl
      have hpending : pending
          ({ s.dropCurrentJob with
            currentJob := none
            project := none
            projectData := noProjectData
            resolveRequest := [] }.sendPacket request (Reply.ofType "project-released")) = [] :=
        ite_self []
      refine ⟨[⟨request, Reply.ofType "project-released"⟩], ?_, ?_, ?_⟩
      · rw [← hsent]
        rfl
      · rw [received_eq (by simp [htype, replyType]), hdropped, hpending, List.append_nil]
        exact List.perm_append_comm
      · intro a ha
        rw [List.mem_singleton.mp ha, htype]
        rfl
  | quit htype =>
      have hdropped : s.dropped (.packet request api) = s.pending := by
        simp [dropped, htype]
      have hquit : s.quitSession.sent = s.sent ∧ s.quitSession.reading = false := by
        unfold quitSession
        cases s.currentJob <;> exact ⟨rfl, rfl⟩
      refine ⟨[], by rw [hquit.1, List.append_nil], ?_, by simp⟩
      rw [hdropped, received, if_neg (by simp [htype, replyType]), pending_of_not_reading hquit.2,
        List.append_nil, List.append_nil, List.map_nil, List.nil_append]
  | canceled htype =>
      have hdropped : s.dropped (.packet request api) = s.waitingRequest := by
        simp [dropped, htype]
      have hcancel : s.cancelCurrentJob.sent = s.sent ∧
          s.cancelCurrentJob.pending = s.currentRequest := by
        unfold cancelCurrentJob
        cases hid : s.currentJob with
        | none =>
            refine ⟨rfl, ?_⟩
            rw [pending_of_reading hreading,
              waitingRequest_of_nil (h.stored_eq_nil hreading hid), List.append_nil]
        | some id =>
            have hpending : pending
                { s.modifyJob id AbstractJob.cancel with resolveRequest := [] } =
                  (s.modifyJob id AbstractJob.cancel).currentRequest ++ [] :=
              pending_of_reading hreading
            refine ⟨rfl, ?_⟩
            rw [hpending, List.append_nil, currentRequest_modifyJob s id request_cancel]
      refine ⟨[], by rw [hcancel.1, List.append_nil], ?_, by simp⟩
      rw [hdropped, received, if_neg (by simp [htype, replyType]), pending_of_reading hreading,
        hcancel.2, List.append_nil, List.map_nil, List.nil_append]
      exact List.perm_append_comm

theorem Ended.accounts (h : Consistent s) (hjob : s.jobs[id]? = some job)
    (hstate : job.state ≠ .finished) (hended : Ended ext s id job outcome s') :
    ∃ answers, Accounts s (.finished id outcome) s' answers := by
  cases hended with
  | silent exited hconnected =>
      have hdropped : s.dropped (.finished id outcome) = [] := by
        refine if_neg ?_
        rintro ⟨hreading, hid, -⟩
        obtain ⟨current, hcurrent, hactive⟩ := h.current id hreading hid
        rw [Option.some.inj (hjob.symm.trans hcurrent), hactive.1] at hconnected
        simp at hconnected
      have hcurrent : (s.afterJob id outcome).currentRequest = s.currentRequest :=
        currentRequest_modifyJob s id fun _ => rfl
      have hafter : (s.afterJob id outcome).pending = s.pending := by
        unfold pending
        rw [hcurrent]
        rfl
      have hpending : pending { s.afterJob id outcome with exited := exited } = s.pending := hafter
      refine ⟨[], (List.append_nil _).symm, ?_, by simp⟩
      rw [hdropped, hpending, received, List.append_nil, List.append_nil, List.map_nil,
        List.nil_append]
  | superseded project hconnected htype hstored =>
      obtain ⟨hreading, hid⟩ := h.active id job hjob ⟨hconnected, hstate⟩
      have hdropped : s.dropped (.finished id outcome) = s.currentRequest :=
        if_pos ⟨hreading, hid, hstored⟩
      refine ⟨[], (List.append_nil _).symm, ?_, by simp⟩
      rw [hdropped, pending_startJob (by exact hreading) rfl, pending_of_reading hreading,
        waitingRequest_of_ne hstored, received, List.append_nil, List.map_nil, List.nil_append]
  | answered project reply hconnected hstored hreply =>
      obtain ⟨hreading, hid⟩ := h.active id job hjob ⟨hconnected, hstate⟩
      have hnil := h.stored_of_answered hjob hreading hid hstored
      have hdropped : s.dropped (.finished id outcome) = [] :=
        if_neg fun hall => hall.2.2 hnil
      have hpending : pending
          { s.afterJob id outcome with
            project := project
            projectData := s.dataRead job outcome
            currentJob := none
            sent := s.sent ++ [⟨job.request, reply⟩] } = [] := by
        refine (pending_of_reading (by exact hreading)).trans ?_
        rw [currentRequest_of_idle rfl, waitingRequest_of_nil (by exact hnil)]
        rfl
      refine ⟨[⟨job.request, reply⟩], rfl, ?_, ?_⟩
      · rw [hdropped, hpending, pending_of_reading hreading, currentRequest_of_current hjob hid,
          waitingRequest_of_nil hnil, received]
        exact List.Perm.refl _
      · intro a ha
        rw [List.mem_singleton.mp ha, (h.jobs job (List.mem_of_getElem? hjob)).asked]
        exact hreply.answers

theorem Step.accounts {e : Event} (h : Consistent s) (hstep : Step ext s e s') :
    ∃ answers, Accounts s e s' answers := by
  rcases hstep.cases h with ⟨request, api, rfl, hreading, hhandled⟩ |
    ⟨id, outcome, job, rfl, hjob, hstate, hended⟩
  · exact hhandled.accounts h hreading
  · exact hended.accounts h hjob hstate

/-! ## A run -/

def resolveSample (buildRoot : String) : JsonObject :=
  [("build-root", .string buildRoot), ("data-mode", .string "only-if-changed"),
    ("type", .string "resolve-project")]

def buildSample : JsonObject :=
  [("data-mode", .string "only-if-changed"), ("type", .string "build-project")]

def cancelSample : JsonObject :=
  [("type", .string "cancel-job")]

def sampleApi : ProjectApi where
  addFiles _ _ _ _ _ := ErrorInfo.none
  removeFiles _ _ _ _ _ := ErrorInfo.none
  runEnvironment _ _ environment _ := (ErrorInfo.none, environment)
  generatedFiles _ _ _ _ _ := []

/-- A project without products is the result. -/
def resolvedOutcome : Outcome :=
  ⟨ErrorInfo.none, fun project => project, false,
    some ⟨⟨"p", Api.CodeLocation.none, true, true, [], [], "/b/default"⟩, [], "", [], []⟩⟩

def canceledOutcome : Outcome :=
  ⟨ErrorInfo.ofText "Operation canceled.", fun project => project, false, none⟩

def sampleExternals : Externals :=
  ⟨fun id => id, fun v w => v = w⟩

def after (s : Session) (e : Event) : Session :=
  (s.handle sampleExternals e).getD s

def resolving : Session :=
  after initial (.packet (resolveSample "/a") sampleApi)

def canceling : Session :=
  after resolving (.packet cancelSample sampleApi)

/-- A second request waits for the end of the job of the first one. -/
def superseding : Session :=
  after canceling (.packet (resolveSample "/b") sampleApi)

def superseded : Session :=
  after superseding (.finished 0 canceledOutcome)

def resolved : Session :=
  after superseded (.finished 1 resolvedOutcome)

theorem run_after (e : Event) (hrun : Run (Step sampleExternals) initial trace s)
    (henabled : s.Enabled e) (hsome : (s.handle sampleExternals e).isSome) :
    Run (Step sampleExternals) initial (trace ++ [(s, e)]) (after s e) := by
  obtain ⟨t, ht⟩ := Option.isSome_iff_exists.mp hsome
  rw [after, ht]
  exact hrun.snoc ⟨henabled, ht⟩

theorem run_superseding : Run (Step sampleExternals) initial
    [(initial, .packet (resolveSample "/a") sampleApi), (resolving, .packet cancelSample sampleApi),
      (canceling, .packet (resolveSample "/b") sampleApi)] superseding :=
  ((Run.nil.snoc ⟨⟨rfl, rfl⟩, rfl⟩).snoc ⟨⟨rfl, rfl⟩, rfl⟩).snoc ⟨⟨rfl, rfl⟩, rfl⟩

def resolvedTrace : List (Session × Event) :=
  [(initial, .packet (resolveSample "/a") sampleApi), (resolving, .packet cancelSample sampleApi),
    (canceling, .packet (resolveSample "/b") sampleApi),
    (superseding, .finished 0 canceledOutcome), (superseded, .finished 1 resolvedOutcome)]

theorem run_resolved : Run (Step sampleExternals) initial resolvedTrace resolved := by
  have hsuperseded : Run (Step sampleExternals) initial
      (_ ++ [(superseding, .finished 0 canceledOutcome)]) superseded :=
    run_superseding.snoc ⟨⟨rfl, _, rfl, by decide⟩, rfl⟩
  exact hsuperseded.snoc ⟨⟨rfl, _, rfl, by decide⟩, rfl⟩

/-! ## Main results -/

/-- Where the requests are, and the types of the answers. -/
def Accounted (trace : List (Session × Event)) (s : Session) : Prop :=
  (trace.flatMap fun e => received e.2).Perm
      (s.sent.map Answer.request ++ (trace.flatMap fun e => e.1.dropped e.2) ++ s.pending) ∧
    ∀ a, a ∈ s.sent → replyType (requestType a.request) = some a.reply.type

theorem accounted_of_run {trace : List (Session × Event)} (hrun : Run (Step ext) initial trace s) :
    Accounted trace s := by
  induction hrun with
  | nil => exact ⟨List.Perm.refl _, by simp [initial]⟩
  | @snoc trace t u e hrun hstep ih =>
      obtain ⟨answers, hanswers⟩ := hstep.accounts (consistent_of_run hrun)
      refine ⟨?_, ?_⟩
      · rw [List.flatMap_append, List.flatMap_append, hanswers.sent, List.map_append]
        have hstepPerm := hanswers.requests
        have hrunPerm := ih.1
        simp only [List.perm_iff_count, List.count_append, List.flatMap_singleton] at *
        intro r
        have h1 := hstepPerm r
        have h2 := hrunPerm r
        omega
      · intro a ha
        rw [hanswers.sent] at ha
        rcases List.mem_append.mp ha with ha | ha
        · exact ih.2 a ha
        · exact hanswers.types a ha

/-- In each run of a session the requests that came in are those that were answered, those that were
dropped and those that are still to be answered, each of them once. An answer has the type that
belongs to the type of its request. -/
theorem requests_accounted {trace : List (Session × Event)}
    (hrun : Run (Step ext) initial trace s) :
    (trace.flatMap fun e => received e.2).Perm
        (s.sent.map Answer.request ++ (trace.flatMap fun e => e.1.dropped e.2) ++ s.pending) ∧
      ∀ a, a ∈ s.sent → replyType (requestType a.request) = some a.reply.type :=
  accounted_of_run hrun

/-- The first request is dropped and the second one is answered. -/
theorem requests_accounted_resolved : ([resolveSample "/a", resolveSample "/b"]).Perm
    ([resolveSample "/b"] ++ [resolveSample "/a"] ++ []) :=
  (requests_accounted run_resolved).1

/-- In each state of a session every event can be handled. A job that neither was canceled nor has
ended is the current one, as is one whose end the session waits for. A request to resolve waits only
while the current job resolves and was canceled. -/
theorem handlers_sound {trace : List (Session × Event)}
    (hrun : Run (Step ext) initial trace s) :
    (∀ e, s.Enabled e → ∃ s', Step ext s e s') ∧
      (∀ id job, s.jobs[id]? = some job → job.state = .running ∨ IsActive job →
        s.currentJob = some id) ∧
      (s.reading = true → s.resolveRequest ≠ [] → s.resolvingCanceled = true) := by
  have h := consistent_of_run hrun
  refine ⟨fun e henabled => h.exists_step ext henabled,
    fun id job hjob hstate => ?_, fun hreading hne => (h.stored hreading hne).1⟩
  rcases hstate with hrunning | hactive
  · have hsound := h.jobs job (List.mem_of_getElem? hjob)
    cases hconnected : job.connected with
    | false => exact absurd hrunning (hsound.canceled hconnected)
    | true => exact (h.active id job hjob ⟨hconnected, by simp [hrunning]⟩).2
  · exact (h.active id job hjob hactive).2

theorem handlers_sound_superseding :
    superseding.resolveRequest = resolveSample "/b" ∧ superseding.resolvingCanceled = true :=
  ⟨rfl, (handlers_sound run_superseding).2.2 rfl (by decide)⟩

/-! ## The protocol -/

/-- The session waits for the end of one job at most, which is that of the current one, and the
others that still run were canceled. When all jobs have ended, no request waits for its answer. -/
structure Protocol (ext : Externals) (trace : List (Session × Event)) (s : Session) : Prop where
  alone : ∀ (i j : Nat) (job job' : AbstractJob), s.jobs[i]? = some job →
    s.jobs[j]? = some job' → IsActive job → IsActive job' → i = j
  canceled : ∀ (id : Nat) (job : AbstractJob), s.jobs[id]? = some job → job.state ≠ .finished →
    s.currentJob ≠ some id → job.connected = false ∧ job.state = .canceling
  accounted : Accounted trace s
  ended : (∀ job, job ∈ s.jobs → job.state = .finished) → s.pending = []
  current : ∀ id job, s.jobs[id]? = some job → IsActive job → s.currentJob = some id
  handled : ∀ e, s.Enabled e → ∃ s', Step ext s e s'

/-- Each session keeps to the protocol. -/
theorem protocol_of_run {trace : List (Session × Event)} (hrun : Run (Step ext) initial trace s) :
    Protocol ext trace s := by
  have h := consistent_of_run hrun
  have hcurrent : ∀ id job, s.jobs[id]? = some job → IsActive job → s.currentJob = some id :=
    fun id job hjob hactive => (h.active id job hjob hactive).2
  refine ⟨fun i j job job' hjob hjob' hactive hactive' => ?_, fun id job hjob hstate hother => ?_,
    accounted_of_run hrun, fun hended => ?_, hcurrent, fun e henabled => h.exists_step ext henabled⟩
  · have hi := hcurrent i job hjob hactive
    rw [hcurrent j job' hjob' hactive'] at hi
    exact (Option.some.inj hi).symm
  · have hconnected : job.connected = false := by
      by_contra hconnected
      exact hother (hcurrent id job hjob ⟨by simpa using hconnected, hstate⟩)
    have hrunning := (h.jobs job (List.mem_of_getElem? hjob)).canceled hconnected
    cases hjobState : job.state with
    | running => exact absurd hjobState hrunning
    | canceling => exact ⟨hconnected, rfl⟩
    | finished => exact absurd hjobState hstate
  · cases hreading : s.reading with
    | false => exact pending_of_not_reading hreading
    | true =>
        have hid : s.currentJob = none := by
          by_contra hne
          obtain ⟨id, hid⟩ := Option.ne_none_iff_exists'.mp hne
          obtain ⟨job, hjob, hactive⟩ := h.current id hreading hid
          exact hactive.2 (hended job (List.mem_of_getElem? hjob))
        rw [pending_of_reading hreading, currentRequest_of_idle hid,
          waitingRequest_of_nil (h.stored_eq_nil hreading hid)]
        rfl

theorem protocol_of_run_resolved : Protocol sampleExternals resolvedTrace resolved :=
  protocol_of_run run_resolved

/-- After a request to release the project the canceled job of a build runs beside that of a new
request to resolve. -/
theorem not_alone_released : ¬∀ (trace : List (Session × Event)) (s : Session),
    Run (Step sampleExternals) initial trace s → ∀ (i j : Nat) (job job' : AbstractJob),
      s.jobs[i]? = some job → s.jobs[j]? = some job' → job.state ≠ .finished →
        job'.state ≠ .finished → i = j := by
  intro hall
  have hresolved := run_after (.finished 0 resolvedOutcome)
    (run_after (.packet (resolveSample "/a") sampleApi) Run.nil ⟨rfl, rfl⟩ rfl)
    ⟨rfl, _, rfl, by decide⟩ rfl
  have hreleased := run_after (.packet [("type", .string "release-project")] sampleApi)
    (run_after (.packet buildSample sampleApi) hresolved ⟨rfl, rfl⟩ rfl) ⟨rfl, rfl⟩ rfl
  have hrun := run_after (.packet (resolveSample "/a") sampleApi) hreleased ⟨rfl, rfl⟩ rfl
  exact absurd (hall _ _ hrun 1 2 _ _ rfl rfl (by decide) (by decide)) (by decide)

end Session

end Qbs
