import OtaJobs.OtaDemo

namespace OtaJobs.JobStart

open OtaJobs.CMemory
open OtaJobs.TopicMatching
open OtaJobs.OtaDemo

/-- One delivery of a start-next-accepted document: the arguments of
`otaDemo_handleJobsStartNextAccepted`, and what `handleJobDoc` returns if it is
called. -/
structure StartNextCall where
  jobId : List UInt8
  jobIdLength : Nat
  jobDoc : List UInt8
  jobDocLength : Nat
  handleJobDocResult : Bool

/-- The id is a JSON string value of at most `MAX_JOB_ID_LENGTH` bytes: it is
readable and holds no NUL. -/
def StartNextCall.Admissible (c : StartNextCall) : Prop :=
  c.jobIdLength ≤ maxJobIdLength ∧ c.jobIdLength ≤ c.jobId.length ∧
    0 ∉ c.jobId.take c.jobIdLength

instance (c : StartNextCall) : Decidable c.Admissible :=
  inferInstanceAs (Decidable (_ ∧ _ ∧ _))

/-- The `strncpy` of the id stays inside `globalJobId` and the readable bytes
of the id: it stops at a NUL or after `jobIdLength` bytes. -/
def StartNextCall.CopyInBounds (c : StartNextCall) : Prop :=
  c.jobIdLength ≤ maxJobIdLength ∧ (0 ∈ c.jobId.take c.jobIdLength ∨ c.jobIdLength ≤ c.jobId.length)

instance (c : StartNextCall) : Decidable c.CopyInBounds :=
  inferInstanceAs (Decidable (_ ∧ _))

def StartNextCall.started (c : StartNextCall) : Bool × List Event :=
  (c.handleJobDocResult, [.handleJobDoc c.jobId c.jobIdLength c.jobDoc c.jobDocLength])

/-- The deliveries in order, each seeing the globals the one before left. -/
def startNextRun : DemoGlobals → List StartNextCall →
    CResult (DemoGlobals × List (Bool × List Event))
  | g, [] => .ok (g, [])
  | g, c :: cs => do
      let r ← otaDemo_handleJobsStartNextAccepted g c.jobId c.jobIdLength c.jobDoc
        c.jobDocLength c.handleJobDocResult
      let r' ← startNextRun r.1 cs
      pure (r'.1, r.2 :: r'.2)

theorem startNextRun_append_of_ok {g g' : DemoGlobals} {cs : List StartNextCall}
    {results : List (Bool × List Event)} (h : startNextRun g cs = .ok (g', results))
    (cs' : List StartNextCall) :
    startNextRun g (cs ++ cs') = (fun r => (r.1, results ++ r.2)) <$> startNextRun g' cs' := by
  induction cs generalizing g results with
  | nil =>
      simp only [startNextRun, Except.ok.injEq, Prod.mk.injEq] at h
      obtain ⟨rfl, rfl⟩ := h
      show startNextRun g cs' = _
      cases startNextRun g cs' <;> rfl
  | cons c cs ih =>
      obtain ⟨⟨g₁, handled, events⟩, hr, h⟩ := bind_eq_ok.mp h
      obtain ⟨⟨g₂, results'⟩, hr', h⟩ := bind_eq_ok.mp h
      simp only [pure_eq_ok, Except.ok.injEq, Prod.mk.injEq] at h
      obtain ⟨rfl, rfl⟩ := h
      rw [List.cons_append, startNextRun, hr, ok_bind]
      show (startNextRun g₁ (cs ++ cs') >>= _) = _
      rw [ih hr']
      cases startNextRun g₂ cs' <;> rfl

theorem startNextRun_of_stored {g : DemoGlobals} {b : UInt8}
    (hread : g.globalJobId.read 0 = .ok b) (hb : b ≠ 0) (cs : List StartNextCall) :
    startNextRun g cs = .ok (g, cs.map fun _ => (false, [])) := by
  induction cs with
  | nil => rfl
  | cons c cs ih =>
      simp only [startNextRun, otaDemo_handleJobsStartNextAccepted_of_stored _ _ _ _ _ _ hread hb,
        ok_bind, ih, pure_eq_ok, List.map_cons]

theorem startNextRun_of_empty_ids {g : DemoGlobals} (hread : g.globalJobId.read 0 = .ok 0)
    {cs : List StartNextCall} (hempty : ∀ c ∈ cs, c.jobIdLength = 0) :
    startNextRun g cs = .ok (g, cs.map StartNextCall.started) := by
  induction cs with
  | nil => rfl
  | cons c cs ih =>
      have hc := hempty c (List.mem_cons_self c cs)
      obtain ⟨stored, hbytes, hcall⟩ := otaDemo_handleJobsStartNextAccepted_of_empty g c.jobId
        c.jobDoc c.jobIdLength c.jobDocLength c.handleJobDocResult hread (by omega) (by omega)
        (by simp [hc])
      have hstored : stored = g.globalJobId := CArray.ext (by simpa [hc] using hbytes)
      simp only [startNextRun, hcall, hstored, ok_bind,
        ih fun c' hc' => hempty c' (List.mem_cons_of_mem c hc'), pure_eq_ok, List.map_cons]
      rfl

/-- Deliveries with empty ids each start the job; the first one with a
non-empty id starts it and stores its id; every later one is ignored, and the
stored id stays. No delivery writes outside `globalJobId`. -/
theorem startNextRun_starts_until_first_stored_id {g : DemoGlobals}
    (hread : g.globalJobId.read 0 = .ok 0) {pre post : List StartNextCall} {c : StartNextCall}
    (hpre : ∀ c' ∈ pre, c'.jobIdLength = 0) (hc : 0 < c.jobIdLength) (hadm : c.Admissible) :
    ∃ stored : CArray maxJobIdLength,
      stored.bytes = c.jobId.take c.jobIdLength ++ g.globalJobId.bytes.drop c.jobIdLength ∧
      startNextRun g (pre ++ c :: post) =
        .ok ({ g with globalJobId := stored },
          pre.map StartNextCall.started ++ c.started :: post.map fun _ => (false, [])) := by
  obtain ⟨hmax, hlen, hnul⟩ := hadm
  obtain ⟨stored, hbytes, hcall⟩ := otaDemo_handleJobsStartNextAccepted_of_empty g c.jobId
    c.jobDoc c.jobIdLength c.jobDocLength c.handleJobDocResult hread hmax hlen hnul
  obtain ⟨b, rest, hid⟩ : ∃ b rest, c.jobId.take c.jobIdLength = b :: rest := by
    cases h : c.jobId.take c.jobIdLength with
    | nil =>
        have := congrArg List.length h
        simp only [List.length_take, List.length_nil] at this
        omega
    | cons b rest => exact ⟨b, rest, rfl⟩
  have hb : b ≠ 0 := by
    rintro rfl
    exact hnul (hid ▸ List.mem_cons_self 0 rest)
  have hstored : ({ g with globalJobId := stored } : DemoGlobals).globalJobId.read 0 = .ok b := by
    simp [CArray.read, hbytes, hid]
  refine ⟨stored, hbytes, ?_⟩
  rw [startNextRun_append_of_ok (startNextRun_of_empty_ids hread hpre)]
  simp only [startNextRun, hcall, ok_bind, startNextRun_of_stored hstored hb, pure_eq_ok, map_ok]
  rfl

theorem startNextRun_first_id_job_one :
    DemoGlobals.init.globalJobId.read 0 = .ok 0 ∧
      (∀ c' ∈ ([] : List StartNextCall), c'.jobIdLength = 0) ∧
      0 < (⟨lit "job-1", 5, [], 0, true⟩ : StartNextCall).jobIdLength ∧
      (⟨lit "job-1", 5, [], 0, true⟩ : StartNextCall).Admissible ∧
      ∃ stored : CArray maxJobIdLength,
        stored.bytes = (lit "job-1").take 5 ++ DemoGlobals.init.globalJobId.bytes.drop 5 ∧
        startNextRun DemoGlobals.init
            ([] ++ ⟨lit "job-1", 5, [], 0, true⟩ :: [⟨lit "job-2", 5, [], 0, true⟩]) =
          .ok ({ DemoGlobals.init with globalJobId := stored },
            [].map StartNextCall.started ++
              (⟨lit "job-1", 5, [], 0, true⟩ : StartNextCall).started ::
              [(⟨lit "job-2", 5, [], 0, true⟩ : StartNextCall)].map fun _ => (false, [])) :=
  ⟨rfl, by simp, by decide, by decide,
    @startNextRun_starts_until_first_stored_id DemoGlobals.init rfl []
      [⟨lit "job-2", 5, [], 0, true⟩]
      ⟨lit "job-1", 5, [], 0, true⟩ (by simp) (by decide) (by decide)⟩

theorem empty_job_ids_start_two_jobs :
    startNextRun DemoGlobals.init [⟨[], 0, [], 0, true⟩, ⟨[], 0, [], 0, true⟩] =
      .ok (DemoGlobals.init,
        [(true, [.handleJobDoc [] 0 [] 0]), (true, [.handleJobDoc [] 0 [] 0])]) :=
  startNextRun_of_empty_ids (by rfl) (by simp)

end OtaJobs.JobStart
