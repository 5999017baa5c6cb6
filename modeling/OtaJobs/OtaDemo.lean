import OtaJobs.TopicMatching

namespace OtaJobs.OtaDemo

open OtaJobs.CMemory
open OtaJobs.TopicMatching

def configBlockSize : Nat := 256

def configMaxFileSize : Nat := 65536

def numOfBlocksRequested : Nat := 1

structure AfrOtaJobDocumentFields where
  imageRef : List UInt8
  fileId : UInt32
  fileSize : UInt32

/-- `MqttFileDownloaderDataBlockInfo_t`: a received block, whose
`payloadLength` is the length of its payload. -/
structure DataBlockInfo where
  payload : List UInt8

def DataBlockInfo.payloadLength (dataBlock : DataBlockInfo) : Nat := dataBlock.payload.length

inductive DataType
  | json
  | cbor
  deriving DecidableEq, Repr

/-- The calls the demo makes into the components around it. -/
inductive Event
  | mqttFileDownloaderInit (imageRef thingName : List UInt8) (dataType : DataType)
  | requestDataBlock (fileId blockSize blockOffset numberOfBlocksRequested : Nat)
  | handleJobDoc (jobId : List UInt8) (jobIdLength : Nat) (jobDoc : List UInt8)
      (jobDocLength : Nat)
  | reportJobStatusComplete
  deriving DecidableEq, Repr

/-- The globals of `ota_demo.c`; the `uint32_t` and `uint8_t` counters are kept
as naturals and wrapped where the code updates them. -/
structure DemoGlobals where
  numOfBlocksRemaining : Nat
  currentBlockOffset : Nat
  currentFileId : Nat
  totalBytesReceived : Nat
  downloadedData : CArray configMaxFileSize
  globalJobId : CArray maxJobIdLength

def DemoGlobals.init : DemoGlobals :=
  ⟨0, 0, 0, 0, CArray.zero configMaxFileSize, CArray.zero maxJobIdLength⟩

/-- The number of blocks of a file of `fileSize` bytes, as the code counts them. -/
def blockCount (fileSize : Nat) : Nat :=
  fileSize / configBlockSize + if fileSize % configBlockSize > 0 then 1 else 0

theorem blockCount_eq_ceil (fileSize : Nat) :
    blockCount fileSize = (fileSize + configBlockSize - 1) / configBlockSize := by
  simp only [blockCount, configBlockSize]
  split <;> omega

theorem lt_blockCount_iff {fileSize k : Nat} :
    k < blockCount fileSize ↔ configBlockSize * k < fileSize := by
  simp only [blockCount_eq_ceil, configBlockSize]
  omega

theorem blockCount_lt_two_pow {fileSize : Nat} (h : fileSize < 2 ^ 32) :
    blockCount fileSize < 2 ^ 32 := by
  rw [blockCount_eq_ceil, configBlockSize]
  omega

/-- `applicationSuppliedFunction_processAfrOtaDocument`; `thingName` is what
`getThingName` writes into the zeroed name buffer. -/
def applicationSuppliedFunction_processAfrOtaDocument (g : DemoGlobals) (thingName : List UInt8)
    (params : AfrOtaJobDocumentFields) : DemoGlobals × List Event :=
  let g := { g with
    numOfBlocksRemaining := blockCount params.fileSize.toNat % 2 ^ 32
    currentFileId := params.fileId.toNat % 2 ^ 8
    currentBlockOffset := 0
    totalBytesReceived := 0 }
  (g, [.mqttFileDownloaderInit params.imageRef thingName .cbor,
    .requestDataBlock g.currentFileId configBlockSize g.currentBlockOffset numOfBlocksRequested])

def otaDemo_finishDownload : List Event := [.reportJobStatusComplete]

/-- `otaDemo_handleMqttStreamsBlockArrived`. The `printf` of the completed
buffer reads it as a C string. -/
def otaDemo_handleMqttStreamsBlockArrived (g : DemoGlobals) (dataBlock : DataBlockInfo) :
    CResult (DemoGlobals × List Event) := do
  if ¬(g.totalBytesReceived + dataBlock.payloadLength < configMaxFileSize) then
    throw .assertion
  let downloadedData ← memcpy g.downloadedData g.totalBytesReceived dataBlock.payload
    dataBlock.payloadLength
  let g := { g with
    downloadedData
    totalBytesReceived := (g.totalBytesReceived + dataBlock.payloadLength) % 2 ^ 32
    numOfBlocksRemaining := (g.numOfBlocksRemaining + (2 ^ 32 - 1)) % 2 ^ 32 }
  if g.numOfBlocksRemaining = 0 then
    let _ ← cString g.downloadedData.bytes
    pure (g, otaDemo_finishDownload)
  else
    let g := { g with currentBlockOffset := (g.currentBlockOffset + 1) % 2 ^ 32 }
    pure (g, [.requestDataBlock g.currentFileId configBlockSize g.currentBlockOffset
      numOfBlocksRequested])

/-- `otaDemo_handleJobsStartNextAccepted`; `handleJobDocResult` is what
`handleJobDoc` returns when it is called. -/
def otaDemo_handleJobsStartNextAccepted (g : DemoGlobals) (jobId : List UInt8)
    (jobIdLength : Nat) (jobDoc : List UInt8) (jobDocLength : Nat) (handleJobDocResult : Bool) :
    CResult (DemoGlobals × Bool × List Event) := do
  if (← g.globalJobId.read 0) = 0 then
    let globalJobId ← strncpy g.globalJobId jobId jobIdLength
    pure ({ g with globalJobId }, handleJobDocResult,
      [.handleJobDoc jobId jobIdLength jobDoc jobDocLength])
  else pure (g, false, [])

/-- The last byte of the download buffer is NUL, so the `printf` of a
completed download stops inside it. -/
def Terminated (data : CArray configMaxFileSize) : Prop :=
  data.bytes.drop (configMaxFileSize - 1) = [0]

theorem terminated_zero : Terminated (CArray.zero configMaxFileSize) := by
  rw [Terminated, CArray.zero_bytes, List.drop_replicate]
  rfl

theorem Terminated.overwrite {data : CArray configMaxFileSize} (hterm : Terminated data)
    {off : Nat} {src : List UInt8} (h : off + src.length ≤ configMaxFileSize)
    (hk : off + src.length ≤ configMaxFileSize - 1) : Terminated (data.overwrite off src h) := by
  rw [Terminated, CArray.overwrite_drop _ _ hk]
  exact hterm

theorem Terminated.cString_ok {data : CArray configMaxFileSize} (hterm : Terminated data) :
    ∃ s, cString data.bytes = .ok s := by
  apply cString_of_mem
  rw [← List.take_append_drop (configMaxFileSize - 1) data.bytes, hterm]
  exact List.mem_append_right _ (List.mem_singleton_self _)

section BlockArrived

variable (g : DemoGlobals) (dataBlock : DataBlockInfo)

theorem otaDemo_handleMqttStreamsBlockArrived_of_overflow
    (h : configMaxFileSize ≤ g.totalBytesReceived + dataBlock.payloadLength) :
    otaDemo_handleMqttStreamsBlockArrived g dataBlock = .error .assertion := by
  simp [otaDemo_handleMqttStreamsBlockArrived, h]

theorem otaDemo_handleMqttStreamsBlockArrived_of_fits
    (hterm : Terminated g.downloadedData)
    (h : g.totalBytesReceived + dataBlock.payloadLength < configMaxFileSize) :
    otaDemo_handleMqttStreamsBlockArrived g dataBlock =
      let g' := { g with
        downloadedData := g.downloadedData.overwrite g.totalBytesReceived dataBlock.payload h.le
        totalBytesReceived := (g.totalBytesReceived + dataBlock.payloadLength) % 2 ^ 32
        numOfBlocksRemaining := (g.numOfBlocksRemaining + (2 ^ 32 - 1)) % 2 ^ 32 }
      .ok (if g'.numOfBlocksRemaining = 0 then (g', otaDemo_finishDownload)
        else ({ g' with currentBlockOffset := (g.currentBlockOffset + 1) % 2 ^ 32 },
          [.requestDataBlock g.currentFileId configBlockSize
            ((g.currentBlockOffset + 1) % 2 ^ 32) numOfBlocksRequested])) := by
  have hcopy := memcpy_of_take_eq g.downloadedData g.totalBytesReceived
    (List.take_of_length_le le_rfl) rfl h.le
  obtain ⟨s, hs⟩ := (hterm.overwrite h.le (Nat.le_sub_one_of_lt h)).cString_ok
  -- `rw` would close the goal with `rfl`, which unfolds the 65536-byte buffer
  unfold otaDemo_handleMqttStreamsBlockArrived
  rewrite [if_neg (not_not.mpr h)]
  simp only [pure_eq_ok, ok_bind, DataBlockInfo.payloadLength]
  rewrite [hcopy, ok_bind]
  split
  · simp only [hs, ok_bind]
  · rfl

theorem otaDemo_handleMqttStreamsBlockArrived_eq_error (hterm : Terminated g.downloadedData)
    (e : Fault) :
    otaDemo_handleMqttStreamsBlockArrived g dataBlock = .error e ↔
      e = .assertion ∧ configMaxFileSize ≤ g.totalBytesReceived + dataBlock.payloadLength := by
  by_cases h : g.totalBytesReceived + dataBlock.payloadLength < configMaxFileSize
  · rw [otaDemo_handleMqttStreamsBlockArrived_of_fits g dataBlock hterm h]
    dsimp only
    constructor
    · intro hok
      split at hok <;> cases hok
    · omega
  · rw [otaDemo_handleMqttStreamsBlockArrived_of_overflow g dataBlock (by omega)]
    simp only [Except.error.injEq]
    exact ⟨fun he => ⟨he.symm, by omega⟩, fun he => he.1.symm⟩

theorem otaDemo_handleMqttStreamsBlockArrived_frame {g' : DemoGlobals} {events : List Event}
    (hterm : Terminated g.downloadedData)
    (hok : otaDemo_handleMqttStreamsBlockArrived g dataBlock = .ok (g', events)) :
    Terminated g'.downloadedData ∧ g'.currentFileId = g.currentFileId ∧
      g'.globalJobId = g.globalJobId := by
  by_cases h : g.totalBytesReceived + dataBlock.payloadLength < configMaxFileSize
  · rw [otaDemo_handleMqttStreamsBlockArrived_of_fits g dataBlock hterm h] at hok
    have hterm' := hterm.overwrite h.le (Nat.le_sub_one_of_lt h)
    dsimp only at hok
    -- `cases` on this equation unfolds the records until it hits the recursion limit
    split at hok <;>
    · simp only [Except.ok.injEq, Prod.mk.injEq] at hok
      obtain ⟨rfl, -⟩ := hok
      exact ⟨hterm', rfl, rfl⟩
  · rw [otaDemo_handleMqttStreamsBlockArrived_of_overflow g dataBlock (by omega)] at hok
    cases hok

end BlockArrived

section StartNextAccepted

variable (g : DemoGlobals) (jobId jobDoc : List UInt8) (jobIdLength jobDocLength : Nat)
  (handleJobDocResult : Bool)

theorem otaDemo_handleJobsStartNextAccepted_of_stored {b : UInt8}
    (hread : g.globalJobId.read 0 = .ok b) (hb : b ≠ 0) :
    otaDemo_handleJobsStartNextAccepted g jobId jobIdLength jobDoc jobDocLength
      handleJobDocResult = .ok (g, false, []) := by
  simp [otaDemo_handleJobsStartNextAccepted, hread, hb]

theorem otaDemo_handleJobsStartNextAccepted_of_empty (hread : g.globalJobId.read 0 = .ok 0)
    (hlen : jobIdLength ≤ maxJobIdLength) (hread' : jobIdLength ≤ jobId.length)
    (hnul : 0 ∉ jobId.take jobIdLength) :
    ∃ stored : CArray maxJobIdLength,
      stored.bytes = jobId.take jobIdLength ++ g.globalJobId.bytes.drop jobIdLength ∧
      otaDemo_handleJobsStartNextAccepted g jobId jobIdLength jobDoc jobDocLength
        handleJobDocResult = .ok ({ g with globalJobId := stored }, handleJobDocResult,
          [.handleJobDoc jobId jobIdLength jobDoc jobDocLength]) := by
  have hlen' : (jobId.take jobIdLength).length = jobIdLength := List.length_take_of_le hread'
  have hfit : 0 + (jobId.take jobIdLength).length ≤ maxJobIdLength := by omega
  refine ⟨g.globalJobId.overwrite 0 _ hfit,
    by rw [CArray.overwrite_bytes, hlen', Nat.zero_add]; rfl, ?_⟩
  simp only [otaDemo_handleJobsStartNextAccepted, strncpy, hread, ok_bind, if_pos,
    strncpyBytes_of_nul_free hnul hread', memcpy_of_take_eq g.globalJobId 0
      (List.take_of_length_le hlen'.le) hlen' (by omega), pure_eq_ok]

theorem otaDemo_handleJobsStartNextAccepted_frame {g' : DemoGlobals} {handled : Bool}
    {events : List Event}
    (hok : otaDemo_handleJobsStartNextAccepted g jobId jobIdLength jobDoc jobDocLength
      handleJobDocResult = .ok (g', handled, events)) :
    g' = { g with globalJobId := g'.globalJobId } := by
  simp only [otaDemo_handleJobsStartNextAccepted, bind_eq_ok] at hok
  obtain ⟨b, -, hok⟩ := hok
  split at hok
  · obtain ⟨stored, -, hok⟩ := bind_eq_ok.mp hok
    cases hok
    rfl
  · cases hok
    rfl

end StartNextAccepted

/-- The states of the demo's globals that some sequence of its handlers
reaches from static initialisation. -/
inductive Reachable : DemoGlobals → Prop
  | init : Reachable DemoGlobals.init
  | processAfrOtaDocument {g : DemoGlobals} (thingName : List UInt8)
      (params : AfrOtaJobDocumentFields) :
      Reachable g →
        Reachable (applicationSuppliedFunction_processAfrOtaDocument g thingName params).1
  | blockArrived {g g' : DemoGlobals} {dataBlock : DataBlockInfo} {events : List Event} :
      Reachable g → otaDemo_handleMqttStreamsBlockArrived g dataBlock = .ok (g', events) →
        Reachable g'
  | startNextAccepted {g g' : DemoGlobals} {jobId jobDoc : List UInt8}
      {jobIdLength jobDocLength : Nat} {handleJobDocResult handled : Bool}
      {events : List Event} :
      Reachable g →
        otaDemo_handleJobsStartNextAccepted g jobId jobIdLength jobDoc jobDocLength
            handleJobDocResult = .ok (g', handled, events) →
          Reachable g'

theorem Reachable.terminated {g : DemoGlobals} (hg : Reachable g) :
    Terminated g.downloadedData := by
  induction hg with
  | init => exact terminated_zero
  | processAfrOtaDocument _ _ _ ih => exact ih
  | blockArrived _ hok ih => exact (otaDemo_handleMqttStreamsBlockArrived_frame _ _ ih hok).1
  | startNextAccepted _ hok ih =>
      rw [otaDemo_handleJobsStartNextAccepted_frame _ _ _ _ _ _ hok]
      exact ih

/-- In every reachable state an arrival fails only on the capacity assertion,
exactly when its payload does not fit before the buffer's last byte: it never
copies outside `downloadedData`, and the `printf` of a completed download stops
inside it. -/
theorem reachable_blockArrived_fails_only_on_overflow {g : DemoGlobals} (hg : Reachable g)
    (dataBlock : DataBlockInfo) (e : Fault) :
    otaDemo_handleMqttStreamsBlockArrived g dataBlock = .error e ↔
      e = .assertion ∧ configMaxFileSize ≤ g.totalBytesReceived + dataBlock.payloadLength :=
  otaDemo_handleMqttStreamsBlockArrived_eq_error g dataBlock hg.terminated e

def session300 : DemoGlobals :=
  (applicationSuppliedFunction_processAfrOtaDocument DemoGlobals.init [] ⟨[], 7, 300⟩).1

theorem session300_blockArrived_fails_only_on_overflow :
    Reachable session300 ∧
      otaDemo_handleMqttStreamsBlockArrived session300 ⟨List.replicate 65536 0⟩ = .error .assertion ∧
      otaDemo_handleMqttStreamsBlockArrived session300 ⟨List.replicate 256 0⟩ ≠ .error .assertion := by
  have hg : Reachable session300 := .processAfrOtaDocument _ _ .init
  have htotal : session300.totalBytesReceived = 0 := rfl
  -- unfolding `payloadLength` here makes the kernel count the 65536 bytes one by one
  have hfull : DataBlockInfo.payloadLength ⟨List.replicate 65536 0⟩ = 65536 :=
    List.length_replicate _ _
  have hblock : DataBlockInfo.payloadLength ⟨List.replicate 256 0⟩ = 256 := List.length_replicate _ _
  refine ⟨hg, (reachable_blockArrived_fails_only_on_overflow hg _ _).mpr ⟨rfl, ?_⟩, fun h => ?_⟩
  · rw [htotal, hfull]
    decide
  · have hover := ((reachable_blockArrived_fails_only_on_overflow hg _ _).mp h).2
    rw [htotal, hblock] at hover
    exact absurd hover (by decide)

end OtaJobs.OtaDemo
