import OtaJobs.CMemory

namespace OtaJobs.JobBuilders

open OtaJobs.CMemory

def topicBufferSize : Nat := 256

def maxThingNameLength : Nat := 128

def startJobMsgLength : Nat := 147

def updateJobMsgLength : Nat := 48

inductive JobStatus
  | queued
  | inProgress
  | failed
  | succeeded
  | rejected
  deriving DecidableEq, Repr

def jobStatusName : JobStatus → String
  | .queued => "QUEUED"
  | .inProgress => "IN_PROGRESS"
  | .failed => "FAILED"
  | .succeeded => "SUCCEEDED"
  | .rejected => "REJECTED"

def jobStatusString (status : JobStatus) : List UInt8 := cLit (jobStatusName status)

def jobStatusStringLengths (status : JobStatus) : Nat := (lit (jobStatusName status)).length

theorem jobStatusStringLengths_le (status : JobStatus) :
    jobStatusStringLengths status ≤ (jobStatusString status).length := by
  simp [jobStatusStringLengths, jobStatusString, cLit]

def startNextTopic (D : List UInt8) : List UInt8 :=
  lit "$aws/things/" ++ D ++ lit "/jobs/start-next"

def startNextMsg (clientToken : List UInt8) : List UInt8 :=
  lit "\x7b\"clientToken\":\"" ++ clientToken ++ lit "\"\x7d"

def updateTopic (D jobId : List UInt8) : List UInt8 :=
  lit "$aws/things/" ++ D ++ lit "/jobs/" ++ jobId ++ lit "/update"

def updateMsg (status : JobStatus) (expectedVersion : List UInt8) : List UInt8 :=
  lit "\x7b\"status\":\"" ++ lit (jobStatusName status) ++ lit "\",\"expectedVersion\":\"" ++
    expectedVersion ++ lit "\"\x7d"

theorem startNextTopic_length_pos (D : List UInt8) : 0 < (startNextTopic D).length := by
  have : 0 < (lit "$aws/things/").length := by decide
  simp only [startNextTopic, List.length_append]
  omega

theorem startNextMsg_length_pos (clientToken : List UInt8) :
    0 < (startNextMsg clientToken).length := by
  have : 0 < (lit "\x7b\"clientToken\":\"").length := by decide
  simp only [startNextMsg, List.length_append]
  omega

theorem updateTopic_length_pos (D jobId : List UInt8) : 0 < (updateTopic D jobId).length := by
  have : 0 < (lit "$aws/things/").length := by decide
  simp only [updateTopic, List.length_append]
  omega

theorem updateMsg_length_pos (status : JobStatus) (expectedVersion : List UInt8) :
    0 < (updateMsg status expectedVersion).length := by
  have : 0 < (lit "\x7b\"status\":\"").length := by decide
  simp only [updateMsg, List.length_append]
  omega

/-- A `memcpy` source of a builder: the bytes readable at the pointer and the
number of bytes copied. -/
structure Piece where
  src : List UInt8
  len : Nat

def Piece.ofLit (s : String) : Piece := ⟨cLit s, (lit s).length⟩

def Piece.bytes (p : Piece) : List UInt8 := p.src.take p.len

/-- The body the four builders share: copy each piece after the previous one
and add its length to the running `size_t` length. -/
def appendPieces (w : Nat) {n : Nat} : List Piece → Nat → CArray n → CResult (Nat × CArray n)
  | [], length, buffer => .ok (length, buffer)
  | p :: ps, length, buffer => do
      let buffer ← memcpy buffer length p.src p.len
      appendPieces w ps ((length + p.len) % 2 ^ w) buffer

theorem appendPieces_eq {w n : Nat} {ps : List Piece} (off : Nat) (buffer : CArray n)
    (hread : ∀ p ∈ ps, p.len ≤ p.src.length)
    (hfit : off + (ps.map Piece.len).sum ≤ n) (hw : off + (ps.map Piece.len).sum < 2 ^ w) :
    ∃ b : CArray n, appendPieces w ps off buffer = .ok (off + (ps.map Piece.len).sum, b) ∧
      b.bytes = buffer.bytes.take off ++ ps.flatMap Piece.bytes ++
        buffer.bytes.drop (off + (ps.map Piece.len).sum) := by
  induction ps generalizing off buffer with
  | nil => exact ⟨buffer, by simp [appendPieces], by simp⟩
  | cons p ps ih =>
      simp only [List.map_cons, List.sum_cons] at hfit hw ⊢
      have hp := hread p (List.mem_cons_self p ps)
      have hlen : (p.src.take p.len).length = p.len := by simp; omega
      have hfits : off + (p.src.take p.len).length ≤ n := by omega
      obtain ⟨b, hb, hbytes⟩ := ih (off + p.len) (buffer.overwrite off _ hfits)
        (fun q hq => hread q (List.mem_cons_of_mem p hq)) (by omega) (by omega)
      refine ⟨b, ?_, ?_⟩
      · rw [appendPieces, memcpy_of_le hp (by omega), ok_bind, Nat.mod_eq_of_lt (by omega), hb,
          Nat.add_assoc]
      · have htake := CArray.overwrite_take buffer hfits
        have hdrop := CArray.overwrite_drop buffer hfits
          (k := off + p.len + (ps.map Piece.len).sum) (by omega)
        rw [hlen] at htake
        rw [hbytes, htake, hdrop]
        simp [Piece.bytes, Nat.add_assoc]

def getStartNextPendingJobExecutionTopic (w : Nat) {n : Nat} (thingname : Option (List UInt8))
    (thingnameLength : Nat) (buffer : CArray n) (bufferSize : Nat) : CResult (Nat × CArray n) :=
  match thingname with
  | some name =>
      if 0 < thingnameLength ∧ (28 + thingnameLength) % 2 ^ w ≤ bufferSize then
        appendPieces w [.ofLit "$aws/things/", ⟨name, thingnameLength⟩,
          .ofLit "/jobs/start-next"] 0 buffer
      else .ok (0, buffer)
  | none => .ok (0, buffer)

def getStartNextPendingJobExecutionMsg (w : Nat) {n : Nat} (clientToken : Option (List UInt8))
    (clientTokenLength : Nat) (buffer : CArray n) (bufferSize : Nat) : CResult (Nat × CArray n) :=
  match clientToken with
  | some token =>
      if 0 < clientTokenLength ∧ (18 + clientTokenLength) % 2 ^ w ≤ bufferSize then
        appendPieces w [.ofLit "\x7b\"clientToken\":\"", ⟨token, clientTokenLength⟩,
          .ofLit "\"\x7d"] 0 buffer
      else .ok (0, buffer)
  | none => .ok (0, buffer)

def getUpdateJobExecutionTopic (w : Nat) {n : Nat} (thingname : Option (List UInt8))
    (thingnameLength : Nat) (jobId : Option (List UInt8)) (jobIdLength : Nat)
    (buffer : CArray n) (bufferSize : Nat) : CResult (Nat × CArray n) :=
  match thingname, jobId with
  | some name, some id =>
      if 0 < thingnameLength ∧ 0 < jobIdLength ∧
          (25 + thingnameLength + jobIdLength) % 2 ^ w ≤ bufferSize then
        appendPieces w [.ofLit "$aws/things/", ⟨name, thingnameLength⟩, .ofLit "/jobs/",
          ⟨id, jobIdLength⟩, .ofLit "/update"] 0 buffer
      else .ok (0, buffer)
  | _, _ => .ok (0, buffer)

def getUpdateJobExecutionMsg (w : Nat) {n : Nat} (status : JobStatus)
    (expectedVersion : Option (List UInt8)) (expectedVersionLength : Nat) (buffer : CArray n)
    (bufferSize : Nat) : CResult (Nat × CArray n) :=
  match expectedVersion with
  | some version =>
      if 0 < expectedVersionLength ∧
          (34 + expectedVersionLength + jobStatusStringLengths status) % 2 ^ w ≤ bufferSize then
        appendPieces w [.ofLit "\x7b\"status\":\"",
          ⟨jobStatusString status, jobStatusStringLengths status⟩,
          .ofLit "\",\"expectedVersion\":\"", ⟨version, expectedVersionLength⟩,
          .ofLit "\"\x7d"] 0 buffer
      else .ok (0, buffer)
  | none => .ok (0, buffer)

theorem flatMap_bytes_length {ps : List Piece} (hread : ∀ p ∈ ps, p.len ≤ p.src.length) :
    (ps.flatMap Piece.bytes).length = (ps.map Piece.len).sum := by
  induction ps with
  | nil => rfl
  | cons p ps ih =>
      have hp := hread p (List.mem_cons_self p ps)
      simp [Piece.bytes, ih (fun q hq => hread q (List.mem_cons_of_mem p hq)), hp]

/-- The builders' contract: on an admissible input the grammar string `G` is
written at the start of the buffer and its length returned; otherwise the
result is `0` and the buffer is untouched. -/
def Builds {n : Nat} (admissible : Prop) (G : List UInt8) (buffer : CArray n)
    (r : Nat × CArray n) : Prop :=
  (admissible → r.1 = G.length ∧ r.2.bytes = G ++ buffer.bytes.drop G.length) ∧
    (¬admissible → r = (0, buffer))

theorem builds_of_not {n : Nat} {admissible : Prop} (G : List UInt8) (buffer : CArray n)
    (h : ¬admissible) : Builds admissible G buffer (0, buffer) :=
  ⟨fun h' => absurd h' h, fun _ => rfl⟩

theorem builds_of_guard {w n : Nat} (admissible : Prop) [Decidable admissible] (ps : List Piece)
    (buffer : CArray n) (hread : ps.Forall fun p => p.len ≤ p.src.length)
    (hfit : admissible → (ps.map Piece.len).sum ≤ n) (hw : (ps.map Piece.len).sum < 2 ^ w) :
    ∃ r, (if admissible then appendPieces w ps 0 buffer else .ok (0, buffer)) = .ok r ∧
      Builds admissible (ps.flatMap Piece.bytes) buffer r := by
  replace hread := List.forall_iff_forall_mem.mp hread
  by_cases h : admissible
  · obtain ⟨b, hb, hbytes⟩ := appendPieces_eq (w := w) 0 buffer hread
      (by simpa using hfit h) (by simpa using hw)
    refine ⟨_, by rw [if_pos h, hb], fun _ => ?_, fun h' => absurd h h'⟩
    simp only [Nat.zero_add, List.take_zero, List.nil_append] at hbytes
    rw [flatMap_bytes_length hread]
    exact ⟨Nat.zero_add _, hbytes⟩
  · exact ⟨_, if_neg h, builds_of_not _ buffer h⟩

@[simp] theorem ofLit_bytes (s : String) : (Piece.ofLit s).bytes = lit s := by
  simp [Piece.ofLit, Piece.bytes, cLit, List.take_left']

@[simp] theorem ofLit_len (s : String) : (Piece.ofLit s).len = (lit s).length := rfl

@[simp] theorem ofLit_len_le (s : String) : (Piece.ofLit s).len ≤ (Piece.ofLit s).src.length := by
  simp [Piece.ofLit, cLit]

section Builders

variable (w : Nat) {n : Nat} (buffer : CArray n) (bufferSize : Nat)

theorem getStartNextPendingJobExecutionTopic_builds (thingname : Option (List UInt8))
    (thingnameLength : Nat) (hread : PointsTo thingname thingnameLength) (hsize : bufferSize ≤ n)
    (hw : 28 + thingnameLength < 2 ^ w) :
    ∃ r, getStartNextPendingJobExecutionTopic w thingname thingnameLength buffer bufferSize =
        .ok r ∧
      Builds (thingname ≠ none ∧ 0 < thingnameLength ∧ 28 + thingnameLength ≤ bufferSize)
        (startNextTopic ((thingname.getD []).take thingnameLength)) buffer r := by
  cases thingname with
  | none => exact ⟨_, rfl, builds_of_not _ buffer (by simp)⟩
  | some name =>
      have hname := hread name rfl
      have hlits : (lit "$aws/things/").length + (lit "/jobs/start-next").length = 28 := by decide
      obtain ⟨r, hr, hbuilds⟩ := builds_of_guard (w := w) (0 < thingnameLength ∧
          28 + thingnameLength ≤ bufferSize) ([.ofLit "$aws/things/", ⟨name, thingnameLength⟩,
          .ofLit "/jobs/start-next"]) buffer
        ⟨ofLit_len_le _, hname, ofLit_len_le _⟩
        (by simp only [List.map_cons, List.map_nil, List.sum_cons, List.sum_nil, ofLit_len]; omega)
        (by simp only [List.map_cons, List.map_nil, List.sum_cons, List.sum_nil, ofLit_len]; omega)
      refine ⟨r, ?_, ?_⟩
      · rw [getStartNextPendingJobExecutionTopic, Nat.mod_eq_of_lt hw]
        exact hr
      · simpa [startNextTopic, Piece.bytes] using hbuilds

theorem getStartNextPendingJobExecutionMsg_builds (clientToken : Option (List UInt8))
    (clientTokenLength : Nat) (hread : PointsTo clientToken clientTokenLength)
    (hsize : bufferSize ≤ n) (hw : 18 + clientTokenLength < 2 ^ w) :
    ∃ r, getStartNextPendingJobExecutionMsg w clientToken clientTokenLength buffer bufferSize =
        .ok r ∧
      Builds
        (clientToken ≠ none ∧ 0 < clientTokenLength ∧ 18 + clientTokenLength ≤ bufferSize)
        (startNextMsg ((clientToken.getD []).take clientTokenLength)) buffer r := by
  cases clientToken with
  | none => exact ⟨_, rfl, builds_of_not _ buffer (by simp)⟩
  | some token =>
      have htoken := hread token rfl
      have hlits : (lit "\x7b\"clientToken\":\"").length + (lit "\"\x7d").length = 18 := by decide
      obtain ⟨r, hr, hbuilds⟩ := builds_of_guard (w := w) (0 < clientTokenLength ∧
          18 + clientTokenLength ≤ bufferSize) ([.ofLit "\x7b\"clientToken\":\"",
          ⟨token, clientTokenLength⟩, .ofLit "\"\x7d"]) buffer
        ⟨ofLit_len_le _, htoken, ofLit_len_le _⟩
        (by simp only [List.map_cons, List.map_nil, List.sum_cons, List.sum_nil, ofLit_len]; omega)
        (by simp only [List.map_cons, List.map_nil, List.sum_cons, List.sum_nil, ofLit_len]; omega)
      refine ⟨r, ?_, ?_⟩
      · rw [getStartNextPendingJobExecutionMsg, Nat.mod_eq_of_lt hw]
        exact hr
      · simpa [startNextMsg, Piece.bytes] using hbuilds

theorem getUpdateJobExecutionTopic_builds (thingname : Option (List UInt8))
    (thingnameLength : Nat) (jobId : Option (List UInt8)) (jobIdLength : Nat)
    (hname : PointsTo thingname thingnameLength) (hid : PointsTo jobId jobIdLength)
    (hsize : bufferSize ≤ n) (hw : 25 + thingnameLength + jobIdLength < 2 ^ w) :
    ∃ r, getUpdateJobExecutionTopic w thingname thingnameLength jobId jobIdLength buffer
          bufferSize = .ok r ∧
      Builds (thingname ≠ none ∧ jobId ≠ none ∧ 0 < thingnameLength ∧ 0 < jobIdLength ∧
          25 + thingnameLength + jobIdLength ≤ bufferSize)
        (updateTopic ((thingname.getD []).take thingnameLength) ((jobId.getD []).take jobIdLength))
        buffer r := by
  cases thingname with
  | none => cases jobId <;> exact ⟨_, rfl, builds_of_not _ buffer (by simp)⟩
  | some name =>
      cases jobId with
      | none => exact ⟨_, rfl, builds_of_not _ buffer (by simp)⟩
      | some id =>
          have hname := hname name rfl
          have hid := hid id rfl
          have hlits : (lit "$aws/things/").length + (lit "/jobs/").length +
              (lit "/update").length = 25 := by decide
          obtain ⟨r, hr, hbuilds⟩ := builds_of_guard (w := w) (0 < thingnameLength ∧
              0 < jobIdLength ∧ 25 + thingnameLength + jobIdLength ≤ bufferSize)
            ([.ofLit "$aws/things/", ⟨name, thingnameLength⟩, .ofLit "/jobs/",
              ⟨id, jobIdLength⟩, .ofLit "/update"]) buffer
            ⟨ofLit_len_le _, hname, ofLit_len_le _, hid, ofLit_len_le _⟩
            (by simp only [List.map_cons, List.map_nil, List.sum_cons, List.sum_nil, ofLit_len]
                omega)
            (by simp only [List.map_cons, List.map_nil, List.sum_cons, List.sum_nil, ofLit_len]
                omega)
          refine ⟨r, ?_, ?_⟩
          · rw [getUpdateJobExecutionTopic, Nat.mod_eq_of_lt hw]
            exact hr
          · simpa [updateTopic, Piece.bytes] using hbuilds

theorem getUpdateJobExecutionMsg_builds (status : JobStatus)
    (expectedVersion : Option (List UInt8)) (expectedVersionLength : Nat)
    (hread : PointsTo expectedVersion expectedVersionLength) (hsize : bufferSize ≤ n)
    (hw : 34 + expectedVersionLength + jobStatusStringLengths status < 2 ^ w) :
    ∃ r, getUpdateJobExecutionMsg w status expectedVersion expectedVersionLength buffer
          bufferSize = .ok r ∧
      Builds (expectedVersion ≠ none ∧ 0 < expectedVersionLength ∧
          34 + expectedVersionLength + jobStatusStringLengths status ≤ bufferSize)
        (updateMsg status ((expectedVersion.getD []).take expectedVersionLength)) buffer r := by
  cases expectedVersion with
  | none => exact ⟨_, rfl, builds_of_not _ buffer (by simp)⟩
  | some version =>
      have hversion := hread version rfl
      have hlits : (lit "\x7b\"status\":\"").length + (lit "\",\"expectedVersion\":\"").length +
          (lit "\"\x7d").length = 34 := by decide
      obtain ⟨r, hr, hbuilds⟩ := builds_of_guard (w := w) (0 < expectedVersionLength ∧
          34 + expectedVersionLength + jobStatusStringLengths status ≤ bufferSize)
        ([.ofLit "\x7b\"status\":\"", ⟨jobStatusString status, jobStatusStringLengths status⟩,
          .ofLit "\",\"expectedVersion\":\"", ⟨version, expectedVersionLength⟩,
          .ofLit "\"\x7d"])
        buffer ⟨ofLit_len_le _, jobStatusStringLengths_le status, ofLit_len_le _, hversion,
          ofLit_len_le _⟩
        (by simp only [List.map_cons, List.map_nil, List.sum_cons, List.sum_nil, ofLit_len]; omega)
        (by simp only [List.map_cons, List.map_nil, List.sum_cons, List.sum_nil, ofLit_len]; omega)
      refine ⟨r, ?_, ?_⟩
      · rw [getUpdateJobExecutionMsg, Nat.mod_eq_of_lt hw]
        exact hr
      · simpa [updateMsg, Piece.bytes, jobStatusString, jobStatusStringLengths, cLit,
          List.take_left'] using hbuilds

end Builders

/-- A call of `mqttWrapper_publish`, with the bytes it reads through its topic
and message arguments. -/
structure PublishCall where
  topic : List UInt8
  message : List UInt8
  deriving DecidableEq, Repr

/-- The tail the two publishing calls share: publish only when both builders
returned a nonzero length. -/
def publishIfBuilt {a b : Nat} (mqttWrapper_publish : List UInt8 → List UInt8 → Bool)
    (topic : Nat × CArray a) (message : Nat × CArray b) : Bool × List PublishCall :=
  if 0 < topic.1 ∧ 0 < message.1 then
    let call : PublishCall := ⟨topic.2.bytes.take topic.1, message.2.bytes.take message.1⟩
    (mqttWrapper_publish call.topic call.message, [call])
  else (false, [])

/-- `coreJobs_startNextPendingJob`, for a `size_t` of `w` bits. -/
def coreJobs_startNextPendingJob (w : Nat)
    (mqttWrapper_publish : List UInt8 → List UInt8 → Bool)
    (thingname : Option (List UInt8)) (thingnameLength : Nat) (clientToken : Option (List UInt8))
    (clientTokenLength : Nat) : CResult (Bool × List PublishCall) := do
  let topic ← getStartNextPendingJobExecutionTopic w thingname thingnameLength
    (CArray.zero (topicBufferSize + 1)) topicBufferSize
  let message ← getStartNextPendingJobExecutionMsg w clientToken clientTokenLength
    (CArray.zero startJobMsgLength) startJobMsgLength
  pure (publishIfBuilt mqttWrapper_publish topic message)

/-- `coreJobs_updateJobStatus`, for a `size_t` of `w` bits. -/
def coreJobs_updateJobStatus (w : Nat) (mqttWrapper_publish : List UInt8 → List UInt8 → Bool)
    (thingname : Option (List UInt8)) (thingnameLength : Nat) (jobId : Option (List UInt8))
    (jobIdLength : Nat) (status : JobStatus) (expectedVersion : Option (List UInt8))
    (expectedVersionLength : Nat) : CResult (Bool × List PublishCall) := do
  let topic ← getUpdateJobExecutionTopic w thingname thingnameLength jobId jobIdLength
    (CArray.zero (topicBufferSize + 1)) topicBufferSize
  let message ← getUpdateJobExecutionMsg w status expectedVersion expectedVersionLength
    (CArray.zero updateJobMsgLength) updateJobMsgLength
  pure (publishIfBuilt mqttWrapper_publish topic message)

theorem publishIfBuilt_of_builds {a b : Nat} {P Q : Prop} [Decidable P] [Decidable Q]
    {G M : List UInt8} {bufG : CArray a} {bufM : CArray b} {topic : Nat × CArray a}
    {message : Nat × CArray b} (publish : List UInt8 → List UInt8 → Bool)
    (hG : 0 < G.length) (hM : 0 < M.length)
    (htopic : Builds P G bufG topic) (hmessage : Builds Q M bufM message) :
    publishIfBuilt publish topic message =
      if P ∧ Q then (publish G M, [⟨G, M⟩]) else (false, []) := by
  by_cases hP : P
  · by_cases hQ : Q
    · obtain ⟨hlen, hbytes⟩ := htopic.1 hP
      obtain ⟨mlen, mbytes⟩ := hmessage.1 hQ
      simp [publishIfBuilt, hP, hQ, hlen, hbytes, mlen, mbytes, hG, hM, List.take_left']
    · simp [publishIfBuilt, hQ, hmessage.2 hQ]
  · simp [publishIfBuilt, hP, htopic.2 hP]

section Publishing

variable (w : Nat) (publish : List UInt8 → List UInt8 → Bool)

theorem coreJobs_startNextPendingJob_eq (thingname : Option (List UInt8)) (thingnameLength : Nat)
    (clientToken : Option (List UInt8)) (clientTokenLength : Nat)
    (hname : PointsTo thingname thingnameLength) (htoken : PointsTo clientToken clientTokenLength)
    (hw : 28 + thingnameLength < 2 ^ w ∧ 18 + clientTokenLength < 2 ^ w) :
    coreJobs_startNextPendingJob w publish thingname thingnameLength clientToken
        clientTokenLength =
      .ok (if (thingname ≠ none ∧ 0 < thingnameLength ∧
            28 + thingnameLength ≤ topicBufferSize) ∧
          (clientToken ≠ none ∧ 0 < clientTokenLength ∧
            18 + clientTokenLength ≤ startJobMsgLength)
        then
          (publish (startNextTopic ((thingname.getD []).take thingnameLength))
              (startNextMsg ((clientToken.getD []).take clientTokenLength)),
            [⟨startNextTopic ((thingname.getD []).take thingnameLength),
              startNextMsg ((clientToken.getD []).take clientTokenLength)⟩])
        else (false, [])) := by
  obtain ⟨topic, htopic, htopicBuilds⟩ := getStartNextPendingJobExecutionTopic_builds w
    (CArray.zero (topicBufferSize + 1)) topicBufferSize thingname thingnameLength hname
    (Nat.le_succ _) hw.1
  obtain ⟨message, hmessage, hmessageBuilds⟩ := getStartNextPendingJobExecutionMsg_builds w
    (CArray.zero startJobMsgLength) startJobMsgLength clientToken clientTokenLength htoken
    le_rfl hw.2
  rw [coreJobs_startNextPendingJob, htopic, ok_bind, hmessage, ok_bind, pure_eq_ok,
    publishIfBuilt_of_builds publish (startNextTopic_length_pos _) (startNextMsg_length_pos _)
      htopicBuilds hmessageBuilds]

theorem startNextPendingJob_unit_test_starts_job :
    coreJobs_startNextPendingJob 64 (fun _ _ => true) (some (cLit "thingname")) 9
        (some (cLit "clientToken")) 11 =
      .ok (true, [⟨lit "$aws/things/thingname/jobs/start-next",
        lit "\x7b\"clientToken\":\"clientToken\"\x7d"⟩]) :=
  (coreJobs_startNextPendingJob_eq 64 _ _ 9 _ 11 (fun _ ht => by cases ht; decide)
    (fun _ ht => by cases ht; decide) ⟨by decide, by decide⟩).trans rfl

theorem coreJobs_updateJobStatus_eq (thingname : Option (List UInt8)) (thingnameLength : Nat)
    (jobId : Option (List UInt8)) (jobIdLength : Nat) (status : JobStatus)
    (expectedVersion : Option (List UInt8)) (expectedVersionLength : Nat)
    (hname : PointsTo thingname thingnameLength) (hid : PointsTo jobId jobIdLength)
    (hversion : PointsTo expectedVersion expectedVersionLength)
    (hw : 25 + thingnameLength + jobIdLength < 2 ^ w ∧
      34 + expectedVersionLength + jobStatusStringLengths status < 2 ^ w) :
    coreJobs_updateJobStatus w publish thingname thingnameLength jobId jobIdLength status
        expectedVersion expectedVersionLength =
      .ok (if (thingname ≠ none ∧ jobId ≠ none ∧ 0 < thingnameLength ∧ 0 < jobIdLength ∧
            25 + thingnameLength + jobIdLength ≤ topicBufferSize) ∧
          (expectedVersion ≠ none ∧ 0 < expectedVersionLength ∧
            34 + expectedVersionLength + jobStatusStringLengths status ≤ updateJobMsgLength)
        then
          (publish (updateTopic ((thingname.getD []).take thingnameLength)
                ((jobId.getD []).take jobIdLength))
              (updateMsg status ((expectedVersion.getD []).take expectedVersionLength)),
            [⟨updateTopic ((thingname.getD []).take thingnameLength)
                ((jobId.getD []).take jobIdLength),
              updateMsg status ((expectedVersion.getD []).take expectedVersionLength)⟩])
        else (false, [])) := by
  obtain ⟨topic, htopic, htopicBuilds⟩ := getUpdateJobExecutionTopic_builds w
    (CArray.zero (topicBufferSize + 1)) topicBufferSize thingname thingnameLength jobId
    jobIdLength hname hid (Nat.le_succ _) hw.1
  obtain ⟨message, hmessage, hmessageBuilds⟩ := getUpdateJobExecutionMsg_builds w
    (CArray.zero updateJobMsgLength) updateJobMsgLength status expectedVersion
    expectedVersionLength hversion le_rfl hw.2
  rw [coreJobs_updateJobStatus, htopic, ok_bind, hmessage, ok_bind, pure_eq_ok,
    publishIfBuilt_of_builds publish (updateTopic_length_pos _ _) (updateMsg_length_pos _ _)
      htopicBuilds hmessageBuilds]

theorem updateJobStatus_unit_test_publishes :
    coreJobs_updateJobStatus 64 (fun _ _ => true) (some (cLit "thingname")) 9
      (some (cLit "job-id")) 6 .succeeded (some (cLit "1.0.1")) 5 =
        .ok (true, [⟨lit "$aws/things/thingname/jobs/job-id/update",
          lit "\x7b\"status\":\"SUCCEEDED\",\"expectedVersion\":\"1.0.1\"\x7d"⟩]) :=
  (coreJobs_updateJobStatus_eq 64 _ _ 9 _ 6 .succeeded _ 5 (fun _ ht => by cases ht; decide)
    (fun _ ht => by cases ht; decide) (fun _ ht => by cases ht; decide)
    ⟨by decide, by decide⟩).trans rfl

/-- On a 64-bit target a thing-name length of `SIZE_MAX` wraps the capacity sum
`28U + thingnameLength` to 27, so the check passes and the copy of the name runs
past the 257-byte topic buffer. -/
theorem startNextPendingJob_wrapped_capacity_writes_out_of_bounds :
    coreJobs_startNextPendingJob 64 (fun _ _ => true) (some (cLit "thingname")) (2 ^ 64 - 1)
      (some (cLit "clientToken")) 11 = .error .outOfBounds := by
  rfl

end Publishing

end OtaJobs.JobBuilders
