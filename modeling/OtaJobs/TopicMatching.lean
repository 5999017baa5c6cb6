import OtaJobs.JobBuilders

namespace OtaJobs.TopicMatching

open OtaJobs.CMemory
open OtaJobs.JobBuilders

def maxThingNameSize : Nat := 128

def maxJobIdLength : Nat := 64

def updateJobStatusMaxLength : Nat := 8

/-- `mqttWrapper_setThingName`: the wrapper keeps at most 128 bytes of the name. -/
def mqttWrapper_setThingName (globalThingName : CArray (maxThingNameSize + 1))
    (thingName : List UInt8) : CResult (CArray (maxThingNameSize + 1)) :=
  strncpy globalThingName thingName maxThingNameSize

/-- `mqttWrapper_getThingName`: copy the stored name and its terminator into
`thingNameBuffer`. -/
def mqttWrapper_getThingName {k : Nat} (globalThingName : CArray (maxThingNameSize + 1))
    (thingNameBuffer : CArray k) : CResult (CArray k) := do
  if (← globalThingName.read 0) = 0 then throw .assertion
  let thingNameLength ← strlen globalThingName.bytes
  let buffer ← memcpy thingNameBuffer 0 globalThingName.bytes thingNameLength
  buffer.store thingNameLength 0

/-- The wrapper's stored name is the C string `D`. -/
def HoldsThingName (globalThingName : CArray (maxThingNameSize + 1)) (D : List UInt8) : Prop :=
  0 ∉ D ∧ ∃ rest, globalThingName.bytes = D ++ 0 :: rest

inductive JobUpdateStatus
  | accepted
  | rejected
  deriving DecidableEq, Repr

def jobUpdateStatusName : JobUpdateStatus → String
  | .accepted => "accepted"
  | .rejected => "rejected"

def jobUpdateStatusString (status : JobUpdateStatus) : List UInt8 :=
  cLit (jobUpdateStatusName status)

def jobUpdateStatusStringLengths (status : JobUpdateStatus) : Nat :=
  (lit (jobUpdateStatusName status)).length

def isThingnameTopicMatch (globalThingName : CArray (maxThingNameSize + 1))
    (topic : Option (List UInt8)) (topicLength : Nat) (topicSuffix : List UInt8)
    (topicSuffixLength : Nat) : CResult Bool :=
  match topic with
  | none => .ok false
  | some t =>
      if topicLength = 0 then .ok false
      else do
        let thingName ← mqttWrapper_getThingName globalThingName
          (CArray.zero (maxThingNameLength + 1))
        let suffixTerminated ← memcpy (CArray.zero (maxJobIdLength + 1)) 0 topicSuffix
          topicSuffixLength
        let expectedTopicBuffer ← snprintf (CArray.zero (topicBufferSize + 1)) topicBufferSize
          (lit "$aws/things/" ++ (← cString thingName.bytes) ++
            (← cString suffixTerminated.bytes))
        let expectedLength ← strnlen expectedTopicBuffer.bytes topicBufferSize
        if expectedLength % 2 ^ 32 = topicLength then
          let c ← strncmp expectedTopicBuffer.bytes t topicLength
          pure (decide (c = 0))
        else pure false

def coreJobs_isStartNextAccepted (globalThingName : CArray (maxThingNameSize + 1))
    (topic : Option (List UInt8)) (topicLength : Nat) : CResult Bool :=
  isThingnameTopicMatch globalThingName topic topicLength (cLit "/jobs/start-next/accepted")
    (lit "/jobs/start-next/accepted").length

/-- The suffix buffer is sized for the longest topic after the thing name. -/
def coreJobs_isJobUpdateStatus (globalThingName : CArray (maxThingNameSize + 1))
    (topic : Option (List UInt8)) (topicLength : Nat) (jobId : List UInt8) (jobIdLength : Nat)
    (expectedStatus : JobUpdateStatus) : CResult Bool := do
  let jobIdTerminated ← memcpy (CArray.zero (maxJobIdLength + 1)) 0 jobId jobIdLength
  let updateStatusString ← memcpy (CArray.zero (updateJobStatusMaxLength + 1)) 0
    (jobUpdateStatusString expectedStatus) (jobUpdateStatusStringLengths expectedStatus)
  let suffixBuffer ← snprintf (CArray.zero (topicBufferSize - maxThingNameLength - 4))
    (topicBufferSize - maxThingNameLength - 4)
    (lit "/jobs/" ++ (← cString jobIdTerminated.bytes) ++ lit "/update/" ++
      (← cString updateStatusString.bytes))
  let suffixLength ← strnlen suffixBuffer.bytes (topicBufferSize - maxThingNameLength - 4)
  isThingnameTopicMatch globalThingName topic topicLength suffixBuffer.bytes suffixLength

/-- What the matchers are for: the topic is non-`NULL` and its first
`topicLength` bytes are exactly `expected`. -/
def topicIs (topic : Option (List UInt8)) (topicLength : Nat) (expected : List UInt8) : Bool :=
  match topic with
  | some t => decide (t.take topicLength = expected)
  | none => false

theorem topicIs_iff (topic : Option (List UInt8)) (topicLength : Nat) (expected : List UInt8) :
    topicIs topic topicLength expected = true ↔
      ∃ t, topic = some t ∧ t.take topicLength = expected := by
  cases topic <;> simp [topicIs]


theorem HoldsThingName.length_le {g : CArray (maxThingNameSize + 1)} {D : List UInt8}
    (hg : HoldsThingName g D) : D.length ≤ maxThingNameLength := by
  obtain ⟨-, rest, hbytes⟩ := hg
  have := g.length_bytes
  simp only [hbytes, List.length_append, List.length_cons] at this
  simp only [maxThingNameSize] at this
  simp only [maxThingNameLength]
  omega

theorem mqttWrapper_getThingName_eq {g : CArray (maxThingNameSize + 1)} {D : List UInt8}
    (hg : HoldsThingName g D) (hD : 0 < D.length) {k : Nat} (hk : D.length < k) :
    ∃ b R, mqttWrapper_getThingName g (CArray.zero k) = .ok b ∧ b.bytes = D ++ 0 :: R := by
  obtain ⟨hD0, rest, hbytes⟩ := hg
  obtain ⟨d, D', rfl⟩ := List.exists_cons_of_ne_nil (List.ne_nil_of_length_pos hD)
  have hd : d ≠ 0 := fun h => hD0 (h ▸ List.mem_cons_self _ _)
  have hread : g.read 0 = .ok d := by
    rw [CArray.read, hbytes, List.cons_append, List.getElem?_cons_zero]
  have hstrlen : strlen g.bytes = .ok (d :: D').length := by
    rw [hbytes]
    exact strlen_append_nul hD0 rest
  have htake : g.bytes.take (d :: D').length = d :: D' := by
    rw [hbytes, List.take_left']
    rfl
  have hfit : 0 + (d :: D').length ≤ k := by omega
  simp only [mqttWrapper_getThingName, hread, ok_bind, hd, if_false, pure_eq_ok, hstrlen,
    memcpy_of_take_eq (CArray.zero _) 0 htake rfl hfit, CArray.store,
    memcpy_of_take_eq ((CArray.zero _).overwrite 0 (d :: D') hfit) (d :: D').length
      (rfl : [(0 : UInt8)].take 1 = [0]) rfl (by omega)]
  refine ⟨_, List.replicate (k - (d :: D').length - 1) 0, rfl, ?_⟩
  simp [List.drop_replicate]

theorem mqttWrapper_getThingName_of_empty {g : CArray (maxThingNameSize + 1)}
    (hg : HoldsThingName g []) {k : Nat} (thingNameBuffer : CArray k) :
    mqttWrapper_getThingName g thingNameBuffer = .error .assertion := by
  obtain ⟨-, rest, hbytes⟩ := hg
  have hread : g.read 0 = .ok 0 := by rw [CArray.read, hbytes, List.nil_append, List.getElem?_cons_zero]
  simp [mqttWrapper_getThingName, hread]

/-- `main` stores a name of at most 128 bytes once at start-up; the wrapper's
last byte is never written, so the stored name stays terminated. A later
`mqttWrapper_getThingName` passes its assertion exactly when the name is not
empty, and then copies it with its terminator. -/
theorem mqttWrapper_setThingName_holds {g : CArray (maxThingNameSize + 1)}
    (hlast : g.bytes.drop maxThingNameSize = [0]) {D : List UInt8} (hD0 : 0 ∉ D)
    (hD : D.length ≤ maxThingNameSize) (rest : List UInt8) :
    ∃ g', mqttWrapper_setThingName g (D ++ 0 :: rest) = .ok g' ∧ HoldsThingName g' D ∧
      g'.bytes.drop maxThingNameSize = [0] ∧
      (D = [] → mqttWrapper_getThingName g' (CArray.zero (maxThingNameLength + 1)) =
        .error .assertion) ∧
      (0 < D.length → ∃ b R,
        mqttWrapper_getThingName g' (CArray.zero (maxThingNameLength + 1)) = .ok b ∧
          b.bytes = D ++ 0 :: R) := by
  have hlen : (D ++ List.replicate (maxThingNameSize - D.length) 0).length = maxThingNameSize := by
    rw [List.length_append, List.length_replicate]
    omega
  have hfit : 0 + (D ++ List.replicate (maxThingNameSize - D.length) 0).length ≤
      maxThingNameSize + 1 := by omega
  have hcopy : memcpy g 0 (D ++ List.replicate (maxThingNameSize - D.length) 0) maxThingNameSize =
      .ok (g.overwrite 0 _ hfit) :=
    memcpy_of_take_eq g 0 (List.take_of_length_le hlen.le) hlen (by omega)
  have hbytes : (g.overwrite 0 _ hfit).bytes =
      D ++ List.replicate (maxThingNameSize - D.length) 0 ++ [0] := by
    rw [CArray.overwrite_bytes, hlen, Nat.zero_add, hlast, List.take_zero, List.nil_append]
  have hholds : HoldsThingName (g.overwrite 0 _ hfit) D :=
    ⟨hD0, List.replicate (maxThingNameSize - D.length) 0,
      by rw [hbytes, List.append_assoc, ← List.replicate_succ', List.replicate_succ]⟩
  refine ⟨_, by rw [mqttWrapper_setThingName, strncpy, strncpyBytes_append_nul hD0 rest hD,
    ok_bind, hcopy], hholds, by rw [hbytes, List.drop_left' hlen], ?_, fun hpos =>
      mqttWrapper_getThingName_eq hholds hpos (Nat.lt_succ_of_le hholds.length_le)⟩
  rintro rfl
  exact mqttWrapper_getThingName_of_empty hholds _

theorem setThingName_thingname_holds :
    ∃ g', mqttWrapper_setThingName (CArray.zero (maxThingNameSize + 1))
        (lit "thingname" ++ [0]) = .ok g' ∧
      HoldsThingName g' (lit "thingname") ∧ g'.bytes.drop maxThingNameSize = [0] ∧
      (lit "thingname" = [] →
        mqttWrapper_getThingName g' (CArray.zero (maxThingNameLength + 1)) = .error .assertion) ∧
      (0 < (lit "thingname").length → ∃ b R,
        mqttWrapper_getThingName g' (CArray.zero (maxThingNameLength + 1)) = .ok b ∧
          b.bytes = lit "thingname" ++ 0 :: R) :=
  mqttWrapper_setThingName_holds (by decide) (by decide) (by decide) []

theorem isThingnameTopicMatch_eq {g : CArray (maxThingNameSize + 1)} {D : List UInt8}
    (hg : HoldsThingName g D) (hD : 0 < D.length) {suffix : List UInt8} (rest : List UInt8)
    (hsuffix : 0 ∉ suffix) (hlen : suffix.length ≤ maxJobIdLength)
    (topic : Option (List UInt8)) (topicLength : Nat) (htopic : PointsTo topic topicLength) :
    isThingnameTopicMatch g topic topicLength (suffix ++ rest) suffix.length =
      .ok (topicIs topic topicLength (lit "$aws/things/" ++ D ++ suffix)) := by
  cases topic with
  | none => rfl
  | some t =>
      have ht := htopic t rfl
      have hD128 := hg.length_le
      have hprefix : (lit "$aws/things/").length = 12 := by decide
      have hE : 0 ∉ lit "$aws/things/" ++ D ++ suffix := by
        simp only [List.mem_append, not_or]
        exact ⟨⟨by decide, hg.1⟩, hsuffix⟩
      have hout : (lit "$aws/things/" ++ D ++ suffix).length < topicBufferSize := by
        simp only [List.length_append, hprefix, topicBufferSize]
        simp only [maxThingNameLength, maxJobIdLength] at hD128 hlen
        omega
      by_cases h0 : topicLength = 0
      · have : lit "$aws/things/" ≠ [] := by decide
        simp [isThingnameTopicMatch, topicIs, h0, this]
      · obtain ⟨name, R₁, hname, hnameBytes⟩ :=
          mqttWrapper_getThingName_eq hg hD (Nat.lt_succ_of_le hD128)
        obtain ⟨suffixBuf, R₂, hsuffixBuf, hsuffixBytes⟩ :=
          memcpy_zero (k := maxJobIdLength + 1) (s := suffix) rest (by omega)
        obtain ⟨expected, R₃, hexpected, hexpectedBytes⟩ := snprintf_zero hout (Nat.le_succ _)
        have hmod : (lit "$aws/things/" ++ D ++ suffix).length % 2 ^ 32 =
            (lit "$aws/things/" ++ D ++ suffix).length :=
          Nat.mod_eq_of_lt (by simp only [topicBufferSize] at hout; omega)
        simp only [isThingnameTopicMatch, if_neg h0, hname, ok_bind, hsuffixBuf, hnameBytes,
          hsuffixBytes, cString_append_nul hg.1, cString_append_nul hsuffix, hexpected,
          hexpectedBytes, strnlen_append_nul hE _ hout.le, hmod]
        by_cases hn : (lit "$aws/things/" ++ D ++ suffix).length = topicLength
        · subst hn
          obtain ⟨c, hc, hiff⟩ := strncmp_append_nul hE ht (0 :: R₃)
          rw [if_pos rfl, hc, ok_bind]
          simp [topicIs, hiff]
        · have : (t.take topicLength).length ≠ (lit "$aws/things/" ++ D ++ suffix).length := by
            simp only [List.length_take]
            omega
          rw [if_neg hn]
          simp only [pure_eq_ok, topicIs, Except.ok.injEq, Bool.false_eq, decide_eq_false_iff_not]
          exact fun h => this (congrArg List.length h)


def testThingNameStore : CArray (maxThingNameSize + 1) :=
  ⟨lit "thingname" ++ List.replicate 120 0, by rfl⟩

theorem testThingNameStore_holds : HoldsThingName testThingNameStore (lit "thingname") :=
  ⟨by decide, List.replicate 119 0, rfl⟩

def startNextAcceptedTopic (D : List UInt8) : List UInt8 := startNextTopic D ++ lit "/accepted"

theorem coreJobs_isStartNextAccepted_eq {g : CArray (maxThingNameSize + 1)} {D : List UInt8}
    (hg : HoldsThingName g D) (hD : 0 < D.length) (topic : Option (List UInt8))
    (topicLength : Nat) (htopic : PointsTo topic topicLength) :
    coreJobs_isStartNextAccepted g topic topicLength =
      .ok (topicIs topic topicLength (startNextAcceptedTopic D)) := by
  have hsuffix : lit "/jobs/start-next" ++ lit "/accepted" = lit "/jobs/start-next/accepted" := by
    decide
  rw [startNextAcceptedTopic, startNextTopic, List.append_assoc _ (lit "/jobs/start-next"),
    hsuffix]
  exact isThingnameTopicMatch_eq hg hD [0] (by decide) (by decide) topic topicLength htopic

theorem isStartNextAccepted_thingname :
    coreJobs_isStartNextAccepted testThingNameStore
      (some (startNextAcceptedTopic (lit "thingname"))) 46 = .ok true :=
  (coreJobs_isStartNextAccepted_eq testThingNameStore_holds (by decide) _ 46
    (fun t ht => by cases ht; decide)).trans rfl

def updateStatusSuffix (jobId : List UInt8) (status : JobUpdateStatus) : List UInt8 :=
  lit "/jobs/" ++ jobId ++ lit "/update/" ++ lit (jobUpdateStatusName status)

theorem updateStatusSuffix_nul_free {jobId : List UInt8} (hid : 0 ∉ jobId)
    (status : JobUpdateStatus) : 0 ∉ updateStatusSuffix jobId status := by
  simp only [updateStatusSuffix, List.mem_append, not_or]
  exact ⟨⟨⟨by decide, hid⟩, by decide⟩, by cases status <;> decide⟩

@[simp] theorem updateStatusSuffix_length (jobId : List UInt8) (status : JobUpdateStatus) :
    (updateStatusSuffix jobId status).length = jobId.length + 22 := by
  have : (lit (jobUpdateStatusName status)).length = 8 := by cases status <;> decide
  simp only [updateStatusSuffix, List.length_append, this]
  have h6 : (lit "/jobs/").length = 6 := by decide
  have h8 : (lit "/update/").length = 8 := by decide
  omega

theorem coreJobs_isJobUpdateStatus_eq_match {g : CArray (maxThingNameSize + 1)}
    {jobId : List UInt8} (hid : 0 ∉ jobId) (hlen : jobId.length ≤ maxJobIdLength)
    (status : JobUpdateStatus) (topic : Option (List UInt8)) (topicLength : Nat) :
    ∃ R, coreJobs_isJobUpdateStatus g topic topicLength jobId jobId.length status =
      isThingnameTopicMatch g topic topicLength (updateStatusSuffix jobId status ++ 0 :: R)
        (updateStatusSuffix jobId status).length := by
  have hstatus : 0 ∉ lit (jobUpdateStatusName status) := by cases status <;> decide
  have hsuffix := updateStatusSuffix_nul_free hid status
  have hsuffixLen :
      (updateStatusSuffix jobId status).length < topicBufferSize - maxThingNameLength - 4 := by
    simp only [maxJobIdLength] at hlen
    simp only [updateStatusSuffix_length, topicBufferSize, maxThingNameLength]
    omega
  obtain ⟨idBuf, R₁, hidBuf, hidBytes⟩ :=
    memcpy_zero (k := maxJobIdLength + 1) (s := jobId) []
    (by omega)
  obtain ⟨statusBuf, R₂, hstatusBuf, hstatusBytes⟩ := memcpy_zero
    (k := updateJobStatusMaxLength + 1) (s := lit (jobUpdateStatusName status)) [0]
    (by cases status <;> decide)
  obtain ⟨suffixBuf, R₃, hsuffixBuf, hsuffixBytes⟩ := snprintf_zero hsuffixLen le_rfl
  rw [List.append_nil] at hidBuf
  refine ⟨R₃, ?_⟩
  simp only [coreJobs_isJobUpdateStatus, hidBuf, ok_bind, jobUpdateStatusString, cLit,
    jobUpdateStatusStringLengths, hstatusBuf, hidBytes, hstatusBytes, cString_append_nul hid,
    cString_append_nul hstatus]
  rw [show lit "/jobs/" ++ jobId ++ lit "/update/" ++ lit (jobUpdateStatusName status) =
      updateStatusSuffix jobId status from rfl, hsuffixBuf, ok_bind, hsuffixBytes,
    strnlen_append_nul hsuffix _ hsuffixLen.le, ok_bind]

theorem isThingnameTopicMatch_long_suffix {g : CArray (maxThingNameSize + 1)} {D : List UInt8}
    (hg : HoldsThingName g D) (hD : 0 < D.length) {suffix : List UInt8} (rest : List UInt8)
    (hsuffix : 0 ∉ suffix) (hlong : maxJobIdLength + 1 ≤ suffix.length) (t : List UInt8)
    {topicLength : Nat} (hn : topicLength ≠ 0) :
    isThingnameTopicMatch g (some t) topicLength (suffix ++ rest) suffix.length =
      .error .outOfBounds := by
  obtain ⟨name, R, hname, hnameBytes⟩ :=
    mqttWrapper_getThingName_eq hg hD (Nat.lt_succ_of_le hg.length_le)
  rcases Nat.lt_or_eq_of_le hlong with hlt | heq
  · simp [isThingnameTopicMatch, hn, hname,
      memcpy_of_lt (by omega : maxJobIdLength + 1 < 0 + suffix.length)]
  · have hfit : 0 + suffix.length ≤ maxJobIdLength + 1 := by omega
    have hbytes : ((CArray.zero (maxJobIdLength + 1)).overwrite 0 suffix hfit).bytes = suffix := by
      rw [CArray.zero_overwrite_bytes, ← heq]
      simp
    simp only [isThingnameTopicMatch, if_neg hn, hname, ok_bind, error_bind,
      memcpy_of_take_eq _ 0 (List.take_left' rfl) rfl hfit, hbytes, hnameBytes,
      cString_append_nul hg.1, cString_of_nul_free hsuffix]

/-- `"$aws/things/<D>/jobs/<jobId>/update/<status>"`: the update topic followed
by the result. -/
def updateStatusTopic (D jobId : List UInt8) (status : JobUpdateStatus) : List UInt8 :=
  updateTopic D jobId ++ lit "/" ++ lit (jobUpdateStatusName status)

theorem coreJobs_isJobUpdateStatus_eq {g : CArray (maxThingNameSize + 1)} {D : List UInt8}
    (hg : HoldsThingName g D) (hD : 0 < D.length) {jobId : List UInt8} (hid : 0 ∉ jobId)
    (hshort : jobId.length ≤ 42) (status : JobUpdateStatus) (topic : Option (List UInt8))
    (topicLength : Nat) (htopic : PointsTo topic topicLength) :
    coreJobs_isJobUpdateStatus g topic topicLength jobId jobId.length status =
      .ok (topicIs topic topicLength (updateStatusTopic D jobId status)) := by
  obtain ⟨R, hR⟩ := coreJobs_isJobUpdateStatus_eq_match (g := g) hid
    (by simp only [maxJobIdLength]; omega) status topic topicLength
  have htopicEq : updateStatusTopic D jobId status =
      lit "$aws/things/" ++ D ++ updateStatusSuffix jobId status := by
    have hupdate : lit "/update" ++ (lit "/" ++ lit (jobUpdateStatusName status)) =
        lit "/update/" ++ lit (jobUpdateStatusName status) := by
      rw [← List.append_assoc]
      rfl
    simp only [updateStatusTopic, updateTopic, updateStatusSuffix, List.append_assoc, hupdate]
  rw [hR, htopicEq]
  exact isThingnameTopicMatch_eq hg hD _ (updateStatusSuffix_nul_free hid status)
    (by simp only [updateStatusSuffix_length, maxJobIdLength]; omega) topic topicLength htopic

theorem isJobUpdateStatus_unit_test_accepted :
    coreJobs_isJobUpdateStatus testThingNameStore
      (some (updateStatusTopic (lit "thingname") (lit "job-id") .accepted)) 49
      (lit "job-id") (lit "job-id").length .accepted = .ok true :=
  (coreJobs_isJobUpdateStatus_eq testThingNameStore_holds (by decide) (by decide) (by decide)
    .accepted _ 49 (fun _ ht => by cases ht; decide)).trans rfl

/-- A job id of 43 bytes or more gives a suffix `/jobs/<jobId>/update/<status>`
of 65 bytes or more, which `isThingnameTopicMatch` copies into its
`MAX_JOB_ID_LENGTH + 1` = 65-byte `suffixTerminated`: at 65 bytes the copy
leaves no terminator for `snprintf` to stop at, beyond it the copy itself
overflows. -/
theorem coreJobs_isJobUpdateStatus_long_jobId_out_of_bounds {g : CArray (maxThingNameSize + 1)}
    {D : List UInt8} (hg : HoldsThingName g D) (hD : 0 < D.length) {jobId : List UInt8}
    (hid : 0 ∉ jobId) (hlong : 43 ≤ jobId.length) (hmax : jobId.length ≤ maxJobIdLength)
    (status : JobUpdateStatus) (t : List UInt8) {topicLength : Nat} (hn : 0 < topicLength) :
    coreJobs_isJobUpdateStatus g (some t) topicLength jobId jobId.length status =
      .error .outOfBounds := by
  obtain ⟨R, hR⟩ := coreJobs_isJobUpdateStatus_eq_match (g := g) hid hmax status (some t)
    topicLength
  rw [hR]
  exact isThingnameTopicMatch_long_suffix hg hD _ (updateStatusSuffix_nul_free hid status)
    (by simp only [updateStatusSuffix_length, maxJobIdLength]; omega) t (by omega)

theorem isJobUpdateStatus_43_byte_jobId_out_of_bounds :
    coreJobs_isJobUpdateStatus testThingNameStore
      (some (updateStatusTopic (lit "thingname") (List.replicate 43 97) .accepted)) 86
      (List.replicate 43 97) (List.replicate 43 97).length .accepted = .error .outOfBounds :=
  coreJobs_isJobUpdateStatus_long_jobId_out_of_bounds testThingNameStore_holds (by decide)
    (by simp) (by simp) (by simp [maxJobIdLength]) .accepted _ (by decide)

end OtaJobs.TopicMatching
