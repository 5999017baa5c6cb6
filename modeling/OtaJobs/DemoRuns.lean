import OtaJobs.Arrivals
import OtaJobs.JobStart

namespace OtaJobs.DemoRuns

open OtaJobs.CMemory
open OtaJobs.TopicMatching
open OtaJobs.OtaDemo
open OtaJobs.JobStart
open OtaJobs.Arrivals

/-- A call into the demo from the libraries around it: the OTA library's
document callback, the MQTT streams library's block callback, and the jobs
library's start-next callback. -/
inductive HandlerCall
  | processAfrOtaDocument (thingName : List UInt8) (params : AfrOtaJobDocumentFields)
  | blockArrived (dataBlock : DataBlockInfo)
  | startNextAccepted (c : StartNextCall)

def HandlerCall.isStartNext : HandlerCall → Bool
  | .startNextAccepted _ => true
  | _ => false

def isJobDocCall : Event → Bool
  | .handleJobDoc .. => true
  | _ => false

/-- One handler call on the demo's globals, with the calls the demo makes; the
flag `otaDemo_handleJobsStartNextAccepted` returns to the jobs library is
dropped, the call to `handleJobDoc` it reports is kept. -/
def handle (g : DemoGlobals) : HandlerCall → CResult (DemoGlobals × List Event)
  | .processAfrOtaDocument thingName params =>
      .ok (applicationSuppliedFunction_processAfrOtaDocument g thingName params)
  | .blockArrived dataBlock => otaDemo_handleMqttStreamsBlockArrived g dataBlock
  | .startNextAccepted c =>
      (fun r => (r.1, r.2.2)) <$> otaDemo_handleJobsStartNextAccepted g c.jobId c.jobIdLength
        c.jobDoc c.jobDocLength c.handleJobDocResult

def runCalls : DemoGlobals → List HandlerCall → CResult (DemoGlobals × List Event) :=
  runSteps handle

theorem otaDemo_handleMqttStreamsBlockArrived_with_globalJobId (g : DemoGlobals)
    (j : CArray maxJobIdLength) (dataBlock : DataBlockInfo) :
    otaDemo_handleMqttStreamsBlockArrived { g with globalJobId := j } dataBlock =
      (fun r => ({ r.1 with globalJobId := j }, r.2)) <$>
        otaDemo_handleMqttStreamsBlockArrived g dataBlock := by
  -- with `g` a variable the kernel would compare `g` with the updated record
  -- field by field, unfolding the wrapped counters
  obtain ⟨numOfBlocksRemaining, currentBlockOffset, currentFileId, totalBytesReceived,
    downloadedData, globalJobId⟩ := g
  unfold otaDemo_handleMqttStreamsBlockArrived
  dsimp only
  by_cases h : totalBytesReceived + dataBlock.payloadLength < configMaxFileSize
  · rewrite [if_neg (not_not.mpr h), if_neg (not_not.mpr h), pure_eq_ok, ok_bind, ok_bind]
    cases memcpy downloadedData totalBytesReceived dataBlock.payload dataBlock.payloadLength with
    | error e => rfl
    | ok d =>
        rewrite [ok_bind, ok_bind]
        by_cases h0 : (numOfBlocksRemaining + (2 ^ 32 - 1)) % 2 ^ 32 = 0
        · rewrite [if_pos h0, if_pos h0]
          cases cString d.bytes <;> rfl
        · rewrite [if_neg h0, if_neg h0]
          rfl
  · rewrite [if_pos h, if_pos h]
    rfl

theorem otaDemo_handleMqttStreamsBlockArrived_events {g g' : DemoGlobals}
    {dataBlock : DataBlockInfo} {events : List Event}
    (hok : otaDemo_handleMqttStreamsBlockArrived g dataBlock = .ok (g', events)) :
    events = otaDemo_finishDownload ∨
      events = [.requestDataBlock g.currentFileId configBlockSize
        ((g.currentBlockOffset + 1) % 2 ^ 32) numOfBlocksRequested] := by
  unfold otaDemo_handleMqttStreamsBlockArrived at hok
  dsimp only at hok
  by_cases h : g.totalBytesReceived + dataBlock.payloadLength < configMaxFileSize
  · rewrite [if_neg (not_not.mpr h), pure_eq_ok, ok_bind] at hok
    obtain ⟨d, -, hok⟩ := bind_eq_ok.mp hok
    split at hok
    · obtain ⟨s, -, hok⟩ := bind_eq_ok.mp hok
      simp only [pure_eq_ok, Except.ok.injEq, Prod.mk.injEq] at hok
      exact .inl hok.2.symm
    · simp only [pure_eq_ok, Except.ok.injEq, Prod.mk.injEq] at hok
      exact .inr hok.2.symm
  · rewrite [if_pos h] at hok
    cases hok

section Handle

variable {g g₁ : DemoGlobals} {events₁ : List Event}

theorem handle_reachable (hg : Reachable g) {call : HandlerCall}
    (hcall : handle g call = .ok (g₁, events₁)) : Reachable g₁ := by
  cases call with
  | processAfrOtaDocument thingName params =>
      cases hcall
      exact hg.processAfrOtaDocument thingName params
  | blockArrived dataBlock => exact hg.blockArrived hcall
  | startNextAccepted c =>
      obtain ⟨⟨g₂, handled, events₂⟩, hok, h⟩ := map_eq_ok.mp hcall
      cases h
      exact hg.startNextAccepted hok

theorem handle_with_globalJobId (g : DemoGlobals) (j : CArray maxJobIdLength)
    {call : HandlerCall} (hcall : call.isStartNext = false) :
    handle { g with globalJobId := j } call =
      (fun r => ({ r.1 with globalJobId := j }, r.2)) <$> handle g call := by
  cases call with
  | processAfrOtaDocument thingName params =>
      obtain ⟨numOfBlocksRemaining, currentBlockOffset, currentFileId, totalBytesReceived,
        downloadedData, globalJobId⟩ := g
      rfl
  | blockArrived dataBlock =>
      exact otaDemo_handleMqttStreamsBlockArrived_with_globalJobId g j dataBlock
  | startNextAccepted c => cases hcall

theorem handle_events_of_download {call : HandlerCall} (hcall : call.isStartNext = false)
    (hok : handle g call = .ok (g₁, events₁)) : ∀ e ∈ events₁, isJobDocCall e = false := by
  cases call with
  | processAfrOtaDocument thingName params =>
      cases hok
      simp [applicationSuppliedFunction_processAfrOtaDocument, isJobDocCall]
  | blockArrived dataBlock =>
      rcases otaDemo_handleMqttStreamsBlockArrived_events hok with rfl | rfl <;>
        simp [otaDemo_finishDownload, isJobDocCall]
  | startNextAccepted c => cases hcall

theorem handle_download {call : HandlerCall} (hcall : call.isStartNext = false)
    (hok : handle g call = .ok (g₁, events₁)) :
    g₁.globalJobId = g.globalJobId ∧ ∀ e ∈ events₁, isJobDocCall e = false := by
  have hsame : handle g call = _ := handle_with_globalJobId g g.globalJobId hcall
  rw [hok, map_ok, Except.ok.injEq, Prod.mk.injEq] at hsame
  exact ⟨(congrArg DemoGlobals.globalJobId hsame.1 :), handle_events_of_download hcall hok⟩

theorem handle_startNext {c : StartNextCall}
    (hok : handle g (.startNextAccepted c) = .ok (g₁, events₁)) :
    g₁ = { g with globalJobId := g₁.globalJobId } ∧ ∀ e ∈ events₁, isJobDocCall e = true := by
  obtain ⟨⟨g₂, handled, events₂⟩, hcall, h⟩ := map_eq_ok.mp hok
  cases h
  refine ⟨otaDemo_handleJobsStartNextAccepted_frame _ _ _ _ _ _ hcall, ?_⟩
  simp only [otaDemo_handleJobsStartNextAccepted, bind_eq_ok] at hcall
  obtain ⟨b, -, hcall⟩ := hcall
  split at hcall
  · obtain ⟨stored, -, hcall⟩ := bind_eq_ok.mp hcall
    cases hcall
    simp [isJobDocCall]
  · cases hcall
    simp

/-- A handler call from a reachable state fails only on the capacity assertion
of a block arrival whose payload does not fit, or on a start-next delivery,
with no id stored, whose `strncpy` leaves `globalJobId` or the readable id. -/
theorem handle_eq_error (hg : Reachable g) {call : HandlerCall} {e : Fault}
    (herr : handle g call = .error e) :
    (e = .assertion ∧ ∃ dataBlock, call = .blockArrived dataBlock ∧
        configMaxFileSize ≤ g.totalBytesReceived + dataBlock.payloadLength) ∨
      (e = .outOfBounds ∧ ∃ c, call = .startNextAccepted c ∧ g.globalJobId.read 0 = .ok 0 ∧
        ¬c.CopyInBounds) := by
  cases call with
  | processAfrOtaDocument thingName params => cases herr
  | blockArrived dataBlock =>
      obtain ⟨he, hcap⟩ :=
        (otaDemo_handleMqttStreamsBlockArrived_eq_error g dataBlock hg.terminated e).mp herr
      exact .inl ⟨he, dataBlock, rfl, hcap⟩
  | startNextAccepted c =>
      obtain ⟨b, hb⟩ := g.globalJobId.read_of_lt (show 0 < maxJobIdLength by decide)
      by_cases hb0 : b = 0
      · subst hb0
        simp only [handle, otaDemo_handleJobsStartNextAccepted, hb, ok_bind, if_pos] at herr
        cases hcopy : strncpy g.globalJobId c.jobId c.jobIdLength with
        | ok stored => simp [hcopy] at herr
        | error e' =>
            simp only [hcopy, error_bind, map_error, Except.error.injEq] at herr
            obtain ⟨rfl, hbad⟩ := (strncpy_eq_error _ _ _ _).mp (herr ▸ hcopy)
            refine .inr ⟨rfl, c, rfl, hb, fun ⟨hmax, hin⟩ => ?_⟩
            rcases hbad with ⟨hnul, hshort⟩ | hlong
            · exact hin.elim hnul (by omega)
            · omega
      · rw [handle, otaDemo_handleJobsStartNextAccepted_of_stored _ _ _ _ _ _ hb hb0] at herr
        cases herr

end Handle

/-- Once a job id is stored, it stays: in every run of the demo's handlers,
whatever documents, blocks and start-next deliveries it interleaves, the stored
id never changes and `handleJobDoc` is never called again. -/
theorem runCalls_keeps_stored_jobId {g g' : DemoGlobals} {b : UInt8}
    (hread : g.globalJobId.read 0 = .ok b) (hb : b ≠ 0) {calls : List HandlerCall}
    {events : List Event} (hrun : runCalls g calls = .ok (g', events)) :
    g'.globalJobId = g.globalJobId ∧ ∀ e ∈ events, isJobDocCall e = false := by
  refine runSteps_inv (P := fun g₁ : DemoGlobals => g₁.globalJobId = g.globalJobId)
    (R := fun _ => True) (fun g₁ call g₂ events₁ hg₁ _ hcall => ?_) rfl (fun _ _ => trivial) hrun
  cases call with
  | startNextAccepted c =>
      rw [handle, otaDemo_handleJobsStartNextAccepted_of_stored _ _ _ _ _ _ (hg₁ ▸ hread) hb,
        map_ok, Except.ok.injEq, Prod.mk.injEq] at hcall
      obtain ⟨rfl, rfl⟩ := hcall
      exact ⟨hg₁, nofun⟩
  | _ =>
      obtain ⟨hjob, hevents⟩ := handle_download (by rfl) hcall
      exact ⟨hjob.trans hg₁, hevents⟩

def jobSevenStored : DemoGlobals :=
  { DemoGlobals.init with globalJobId := ⟨55 :: List.replicate 63 0, rfl⟩ }

theorem stored_jobId_survives_document :
    jobSevenStored.globalJobId.read 0 = .ok 55 ∧ (55 : UInt8) ≠ 0 ∧
      runCalls jobSevenStored
          [.startNextAccepted ⟨lit "8", 1, [], 0, true⟩, .processAfrOtaDocument [] ⟨[], 7, 300⟩] =
        .ok ((applicationSuppliedFunction_processAfrOtaDocument jobSevenStored [] ⟨[], 7, 300⟩).1,
          (applicationSuppliedFunction_processAfrOtaDocument jobSevenStored [] ⟨[], 7, 300⟩).2) ∧
      (applicationSuppliedFunction_processAfrOtaDocument jobSevenStored [] ⟨[], 7, 300⟩).1.globalJobId =
          jobSevenStored.globalJobId ∧
        ∀ e ∈ (applicationSuppliedFunction_processAfrOtaDocument jobSevenStored [] ⟨[], 7, 300⟩).2,
          isJobDocCall e = false :=
  ⟨rfl, by decide, rfl, @runCalls_keeps_stored_jobId _ _ 55 (by rfl) (by decide)
    [.startNextAccepted ⟨lit "8", 1, [], 0, true⟩, .processAfrOtaDocument [] ⟨[], 7, 300⟩] _ (by rfl)⟩

/-- The jobs side never interferes with the download: dropping every
start-next delivery from a run that succeeds leaves a run that succeeds with the
same download state and the same calls, less those to `handleJobDoc`, whatever
job id is stored when it starts. `handleJobDoc` is not in the source: a call of
it is recorded with its result as a parameter, and the document callback the
OTA library makes from it is a call of its own in the run. -/
theorem runCalls_without_startNext {g g' : DemoGlobals} {calls : List HandlerCall}
    {events : List Event} (hrun : runCalls g calls = .ok (g', events))
    (j : CArray maxJobIdLength) :
    runCalls { g with globalJobId := j } (calls.filter fun call => !call.isStartNext) =
      .ok ({ g' with globalJobId := j }, events.filter fun e => !isJobDocCall e) := by
  induction calls generalizing g events with
  | nil =>
      cases hrun
      rfl
  | cons call calls ih =>
      obtain ⟨g₁, events₁, events₂, hcall, hrest, rfl⟩ := runSteps_cons_eq_ok hrun
      rw [List.filter_append]
      cases hs : call.isStartNext
      · have hcall' : handle { g with globalJobId := j } call =
            .ok ({ g₁ with globalJobId := j }, events₁) := by
          rw [handle_with_globalJobId g j hs, hcall, map_ok]
        have hkept : events₁.filter (fun e => !isJobDocCall e) = events₁ :=
          List.filter_eq_self.mpr fun e he => by simp [(handle_download hs hcall).2 e he]
        rw [List.filter_cons_of_pos (by simp [hs]), runCalls, runSteps_cons_of_ok hcall' _,
          ← runCalls, ih hrest, map_ok, hkept]
      · cases call with
        | startNextAccepted c =>
            obtain ⟨hframe, hjob⟩ := handle_startNext hcall
            have hj : { g₁ with globalJobId := j } = { g with globalJobId := j } := by
              rw [hframe]
            have hdropped : events₁.filter (fun e => !isJobDocCall e) = [] :=
              List.filter_eq_nil_iff.mpr fun e he => by simp [hjob e he]
            rw [List.filter_cons_of_neg (by simp [hs]), ← hj, ih hrest, hdropped, List.nil_append]
        | _ => cases hs

theorem job_start_dropped_from_document_run :
    runCalls DemoGlobals.init
        [.startNextAccepted ⟨lit "7", 1, [], 0, true⟩, .processAfrOtaDocument [] ⟨[], 7, 300⟩] =
      .ok ((applicationSuppliedFunction_processAfrOtaDocument jobSevenStored [] ⟨[], 7, 300⟩).1,
        .handleJobDoc (lit "7") 1 [] 0 ::
          (applicationSuppliedFunction_processAfrOtaDocument jobSevenStored [] ⟨[], 7, 300⟩).2) ∧
      runCalls { DemoGlobals.init with globalJobId := DemoGlobals.init.globalJobId }
          ([.startNextAccepted ⟨lit "7", 1, [], 0, true⟩, .processAfrOtaDocument [] ⟨[], 7, 300⟩].filter
            fun call => !call.isStartNext) =
        .ok ({ (applicationSuppliedFunction_processAfrOtaDocument jobSevenStored [] ⟨[], 7, 300⟩).1 with
            globalJobId := DemoGlobals.init.globalJobId },
          (.handleJobDoc (lit "7") 1 [] 0 ::
            (applicationSuppliedFunction_processAfrOtaDocument jobSevenStored [] ⟨[], 7, 300⟩).2).filter
              fun e => !isJobDocCall e) :=
  ⟨rfl, runCalls_without_startNext (by rfl) _⟩

section Incoming

/-- A callback the libraries make into the demo while it handles an incoming
message. The document callback reads the thing name itself. -/
inductive Callback
  | processAfrOtaDocument (params : AfrOtaJobDocumentFields)
  | blockArrived (dataBlock : DataBlockInfo)
  | startNextAccepted (c : StartNextCall)

def Callback.toHandlerCall (thingName : List UInt8) : Callback → HandlerCall
  | .processAfrOtaDocument params => .processAfrOtaDocument thingName params
  | .blockArrived dataBlock => .blockArrived dataBlock
  | .startNextAccepted c => .startNextAccepted c

/-- The document callback's `getThingName` into its zeroed 129-byte buffer.
The source declares no function of that name; its thing-name getter is
`mqttWrapper_getThingName`. -/
def getThingName (globalThingName : CArray (maxThingNameSize + 1)) : CResult (List UInt8) :=
  CArray.bytes <$> mqttWrapper_getThingName globalThingName (CArray.zero (maxThingNameSize + 1))

def callback (globalThingName : CArray (maxThingNameSize + 1)) (g : DemoGlobals) :
    Callback → CResult (DemoGlobals × List Event)
  | .processAfrOtaDocument params => do
      let thingName ← getThingName globalThingName
      handle g (.processAfrOtaDocument thingName params)
  | .blockArrived dataBlock => handle g (.blockArrived dataBlock)
  | .startNextAccepted c => handle g (.startNextAccepted c)

def runCallbacks (globalThingName : CArray (maxThingNameSize + 1)) :
    DemoGlobals → List Callback → CResult (DemoGlobals × List Event) :=
  runSteps (callback globalThingName)

/-- What a library handler does with a message the demo offers it: the
callbacks it makes into the demo, in order, and what it returns. -/
structure LibraryAnswer where
  callbacks : List Callback
  handled : Bool

def LibraryAnswer.made (coreJobs mqttStreams : LibraryAnswer) : List Callback :=
  coreJobs.callbacks ++ if coreJobs.handled then [] else mqttStreams.callbacks

theorem LibraryAnswer.mem_made {coreJobs mqttStreams : LibraryAnswer} {cb : Callback}
    (h : cb ∈ LibraryAnswer.made coreJobs mqttStreams) :
    cb ∈ coreJobs.callbacks ++ mqttStreams.callbacks := by
  rcases List.mem_append.mp h with h | h
  · exact List.mem_append_left _ h
  · split at h
    · cases h
    · exact List.mem_append_right _ h

/-- `otaDemo_handleIncomingMQTTMessage`, with what the two libraries do as
parameters; the `printf` of an unhandled message reads `topic` and `message`
with `%.*s`. -/
def otaDemo_handleIncomingMQTTMessage (globalThingName : CArray (maxThingNameSize + 1))
    (g : DemoGlobals) (coreJobs mqttStreams : LibraryAnswer) (topic : List UInt8)
    (topicLength : Nat) (message : List UInt8) (messageLength : Nat) :
    CResult ((DemoGlobals × List Event) × Bool) := do
  let (g, events) ← runCallbacks globalThingName g coreJobs.callbacks
  let ((g, events), handled) ←
    if coreJobs.handled then pure ((g, events), true)
    else do
      let (g, events') ← runCallbacks globalThingName g mqttStreams.callbacks
      pure ((g, events ++ events'), mqttStreams.handled)
  if !handled then
    let _ ← strnlen topic topicLength
    let _ ← strnlen message messageLength
  pure ((g, events), handled)

def InitsWithName (name : List UInt8) : Event → Prop
  | .mqttFileDownloaderInit _ thingName _ => ∃ R, thingName = name ++ 0 :: R
  | _ => True

/-- The faults of a callback from a reachable state, `name` being the stored
thing name. -/
def CallbackFault (name : List UInt8) (e : Fault) : Callback → Prop
  | .processAfrOtaDocument _ => e = .assertion ∧ name = []
  | .blockArrived _ => e = .assertion
  | .startNextAccepted c => e = .outOfBounds ∧ ¬c.CopyInBounds

variable {gt : CArray (maxThingNameSize + 1)} {name : List UInt8} {g g' : DemoGlobals}
  {events : List Event} {e : Fault}

theorem getThingName_eq_ok (hname : HoldsThingName gt name) {thingName : List UInt8}
    (h : getThingName gt = .ok thingName) : ∃ R, thingName = name ++ 0 :: R := by
  cases name with
  | nil => rw [getThingName, mqttWrapper_getThingName_of_empty hname] at h; cases h
  | cons d D =>
      obtain ⟨b, R, hb, hbytes⟩ := mqttWrapper_getThingName_eq hname (Nat.succ_pos _)
        (k := maxThingNameSize + 1) (Nat.lt_succ_of_le hname.length_le)
      rw [getThingName, hb, map_ok, Except.ok.injEq] at h
      exact ⟨R, h ▸ hbytes⟩

theorem getThingName_eq_error (hname : HoldsThingName gt name)
    (h : getThingName gt = .error e) : e = .assertion ∧ name = [] := by
  cases name with
  | nil =>
      rw [getThingName, mqttWrapper_getThingName_of_empty hname, map_error,
        Except.error.injEq] at h
      exact ⟨h.symm, rfl⟩
  | cons d D =>
      obtain ⟨b, R, hb, -⟩ := mqttWrapper_getThingName_eq hname (Nat.succ_pos _)
        (k := maxThingNameSize + 1) (Nat.lt_succ_of_le hname.length_le)
      rw [getThingName, hb, map_ok] at h
      cases h

theorem callback_keeps (hg : Reachable g) (hname : HoldsThingName gt name) {cb : Callback}
    (h : callback gt g cb = .ok (g', events)) :
    Reachable g' ∧ ∀ ev ∈ events, InitsWithName name ev := by
  cases cb with
  | processAfrOtaDocument params =>
      obtain ⟨thingName, hthing, h⟩ := bind_eq_ok.mp h
      refine ⟨handle_reachable hg h, ?_⟩
      cases h
      obtain ⟨R, rfl⟩ := getThingName_eq_ok hname hthing
      simp [applicationSuppliedFunction_processAfrOtaDocument, InitsWithName]
  | blockArrived dataBlock =>
      rw [callback] at h
      refine ⟨handle_reachable hg h, ?_⟩
      rcases otaDemo_handleMqttStreamsBlockArrived_events h with rfl | rfl <;>
        simp [otaDemo_finishDownload, InitsWithName]
  | startNextAccepted c =>
      rw [callback] at h
      refine ⟨handle_reachable hg h, fun ev hev => ?_⟩
      have := (handle_startNext h).2 ev hev
      cases ev <;> simp_all [isJobDocCall, InitsWithName]

theorem callback_eq_error (hg : Reachable g) (hname : HoldsThingName gt name) {cb : Callback}
    (h : callback gt g cb = .error e) : CallbackFault name e cb := by
  cases cb with
  | processAfrOtaDocument params =>
      rcases bind_eq_error.mp h with h | ⟨_, -, h⟩
      · exact getThingName_eq_error hname h
      · cases h
  | blockArrived dataBlock =>
      rw [callback] at h
      rcases handle_eq_error hg h with ⟨he, -⟩ | ⟨-, c, hc, -⟩
      · exact he
      · cases hc
  | startNextAccepted c =>
      rw [callback] at h
      rcases handle_eq_error hg h with ⟨-, dataBlock, hc, -⟩ | ⟨he, c', hc, -, hbad⟩
      · cases hc
      · cases hc
        exact ⟨he, hbad⟩

theorem runCallbacks_keeps (hg : Reachable g) (hname : HoldsThingName gt name)
    {cbs : List Callback} (h : runCallbacks gt g cbs = .ok (g', events)) :
    Reachable g' ∧ ∀ ev ∈ events, InitsWithName name ev :=
  runSteps_inv (R := fun _ => True) (fun _ _ _ _ hs _ h => callback_keeps hs hname h) hg
    (fun _ _ => trivial) h

theorem runCallbacks_eq_error (hg : Reachable g) (hname : HoldsThingName gt name)
    {cbs : List Callback} (h : runCallbacks gt g cbs = .error e) :
    ∃ cb ∈ cbs, CallbackFault name e cb := by
  obtain ⟨g₁, cb, hg₁, hmem, herr⟩ :=
    runSteps_eq_error (fun _ _ _ _ hs h => (callback_keeps hs hname h).1) hg h
  exact ⟨cb, hmem, callback_eq_error hg₁ hname herr⟩

variable (gt g) (coreJobs mqttStreams : LibraryAnswer) (topic message : List UInt8)
  (topicLength messageLength : Nat)

theorem otaDemo_handleIncomingMQTTMessage_eq_made :
    otaDemo_handleIncomingMQTTMessage gt g coreJobs mqttStreams topic topicLength message
        messageLength =
      runCallbacks gt g (LibraryAnswer.made coreJobs mqttStreams) >>= fun r =>
        (if coreJobs.handled || mqttStreams.handled then .ok ()
          else strnlen topic topicLength >>= fun _ =>
            strnlen message messageLength >>= fun _ => pure ()) >>= fun _ =>
        pure (r, coreJobs.handled || mqttStreams.handled) := by
  rw [otaDemo_handleIncomingMQTTMessage, LibraryAnswer.made, runCallbacks, runSteps_append]
  rcases runSteps (callback gt) g coreJobs.callbacks with e | r
  · rfl
  cases coreJobs.handled
  · rcases runSteps (callback gt) r.1 mqttStreams.callbacks with e | r' <;>
      cases mqttStreams.handled <;> simp [bind_assoc]
  · simp [runSteps]

theorem otaDemo_handleIncomingMQTTMessage_eq (htl : topicLength ≤ topic.length)
    (hml : messageLength ≤ message.length) :
    otaDemo_handleIncomingMQTTMessage gt g coreJobs mqttStreams topic topicLength message
        messageLength =
      (fun r => (r, coreJobs.handled || mqttStreams.handled)) <$>
        runCallbacks gt g (LibraryAnswer.made coreJobs mqttStreams) := by
  obtain ⟨k, hk⟩ := strnlen_of_le htl
  obtain ⟨k', hk'⟩ := strnlen_of_le hml
  rw [otaDemo_handleIncomingMQTTMessage_eq_made]
  cases runCallbacks gt g (LibraryAnswer.made coreJobs mqttStreams) with
  | error e => rfl
  | ok r => cases coreJobs.handled || mqttStreams.handled <;> simp [hk, hk']

variable {gt g coreJobs mqttStreams topic message topicLength messageLength}

theorem otaDemo_handleIncomingMQTTMessage_keeps (hg : Reachable g)
    (hname : HoldsThingName gt name) {handled : Bool}
    (h : otaDemo_handleIncomingMQTTMessage gt g coreJobs mqttStreams topic topicLength message
      messageLength = .ok ((g', events), handled)) :
    Reachable g' ∧ ∀ ev ∈ events, InitsWithName name ev := by
  rw [otaDemo_handleIncomingMQTTMessage_eq_made] at h
  obtain ⟨r, hrun, h⟩ := bind_eq_ok.mp h
  obtain ⟨_, -, h⟩ := bind_eq_ok.mp h
  cases h
  exact runCallbacks_keeps hg hname hrun

theorem otaDemo_handleIncomingMQTTMessage_eq_error (hg : Reachable g)
    (hname : HoldsThingName gt name)
    (h : otaDemo_handleIncomingMQTTMessage gt g coreJobs mqttStreams topic topicLength message
      messageLength = .error e) :
    (e = .outOfBounds ∧ ¬(topicLength ≤ topic.length ∧ messageLength ≤ message.length)) ∨
      ∃ cb ∈ coreJobs.callbacks ++ mqttStreams.callbacks, CallbackFault name e cb := by
  rw [otaDemo_handleIncomingMQTTMessage_eq_made] at h
  rcases bind_eq_error.mp h with h | ⟨_, -, h⟩
  · obtain ⟨cb, hmem, hcb⟩ := runCallbacks_eq_error hg hname h
    exact .inr ⟨cb, LibraryAnswer.mem_made hmem, hcb⟩
  by_cases hin : topicLength ≤ topic.length ∧ messageLength ≤ message.length
  · obtain ⟨k, hk⟩ := strnlen_of_le hin.1
    obtain ⟨k', hk'⟩ := strnlen_of_le hin.2
    split at h <;> simp [hk, hk'] at h
  refine .inl ⟨?_, hin⟩
  rcases bind_eq_error.mp h with h | ⟨_, -, h⟩
  · split at h
    · cases h
    rcases bind_eq_error.mp h with h | ⟨_, -, h⟩
    · exact strnlen_eq_error h
    rcases bind_eq_error.mp h with h | ⟨_, -, h⟩
    · exact strnlen_eq_error h
    · cases h
  · cases h

end Incoming

end OtaJobs.DemoRuns
