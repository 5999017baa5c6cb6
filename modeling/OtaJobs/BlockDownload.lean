import OtaJobs.OtaDemo

namespace OtaJobs.BlockDownload

open OtaJobs.CMemory
open OtaJobs.OtaDemo

def requestedOffset : List Event → Option Nat
  | [] => none
  | .requestDataBlock _ _ k _ :: _ => some k
  | _ :: events => requestedOffset events

def requestOffsets (events : List Event) : List Nat :=
  events.filterMap fun
    | .requestDataBlock _ _ k _ => some k
    | _ => none

@[simp] theorem requestOffsets_append (events events' : List Event) :
    requestOffsets (events ++ events') = requestOffsets events ++ requestOffsets events' :=
  List.filterMap_append _ _ _

/-- A download in progress: the demo's globals and the offset of the block
request that still waits for its answer, if there is one. -/
structure Download where
  globals : DemoGlobals
  pending : Option Nat

def startDownload (g : DemoGlobals) (thingName : List UInt8) (params : AfrOtaJobDocumentFields) :
    Download × List Event :=
  let r := applicationSuppliedFunction_processAfrOtaDocument g thingName params
  (⟨r.1, requestedOffset r.2⟩, r.2)

def answer (d : Download) (dataBlock : DataBlockInfo) : CResult (Download × List Event) :=
  (fun r => (⟨r.1, requestedOffset r.2⟩, r.2)) <$>
    otaDemo_handleMqttStreamsBlockArrived d.globals dataBlock

theorem answer_eq_ok {d d' : Download} {dataBlock : DataBlockInfo} {events : List Event} :
    answer d dataBlock = .ok (d', events) ↔
      otaDemo_handleMqttStreamsBlockArrived d.globals dataBlock = .ok (d'.globals, events) ∧
        d'.pending = requestedOffset events := by
  unfold answer
  cases otaDemo_handleMqttStreamsBlockArrived d.globals dataBlock with
  | error e => simp
  | ok r =>
      obtain ⟨g, events'⟩ := r
      obtain ⟨g', p'⟩ := d'
      simp only [map_ok, Except.ok.injEq, Prod.mk.injEq, Download.mk.injEq]
      constructor
      · rintro ⟨⟨rfl, rfl⟩, rfl⟩
        exact ⟨⟨rfl, rfl⟩, rfl⟩
      · rintro ⟨⟨rfl, rfl⟩, rfl⟩
        exact ⟨⟨rfl, rfl⟩, rfl⟩

/-- Runs in which every arrival answers the request that is outstanding; the
middle index collects the calls the demo makes. -/
inductive AnswerRun : Download → List Event → Download → Prop
  | refl (d : Download) : AnswerRun d [] d
  | step {d d' d'' : Download} {k : Nat} {dataBlock : DataBlockInfo}
      {events events' : List Event} :
      d.pending = some k → answer d dataBlock = .ok (d', events) → AnswerRun d' events' d'' →
        AnswerRun d (events ++ events') d''

/-- What holds at every point of a download of a `fileSize`-byte file. -/
structure SessionInv (fileSize : Nat) (d : Download) : Prop where
  reachable : Reachable d.globals
  outstanding : ∀ k, d.pending = some k →
    k = d.globals.currentBlockOffset ∧ 0 < d.globals.numOfBlocksRemaining ∧
      d.globals.currentBlockOffset + d.globals.numOfBlocksRemaining = blockCount fileSize

section Session

variable {fileSize : Nat} {d : Download}

theorem SessionInv.request_inside (hinv : SessionInv fileSize d) {k : Nat}
    (hk : d.pending = some k) : configBlockSize * k < fileSize := by
  obtain ⟨rfl, hpos, hsum⟩ := hinv.outstanding k hk
  exact lt_blockCount_iff.mp (by omega)

theorem sessionInv_startDownload {g : DemoGlobals} (hg : Reachable g) (thingName : List UInt8)
    {params : AfrOtaJobDocumentFields} (hf : 0 < params.fileSize.toNat) :
    SessionInv params.fileSize.toNat (startDownload g thingName params).1 ∧
      requestOffsets (startDownload g thingName params).2 = [0] := by
  have hcount : 0 < blockCount params.fileSize.toNat := lt_blockCount_iff.mpr (by omega)
  have hcount' := blockCount_lt_two_pow params.fileSize.toNat_lt_size
  refine ⟨⟨.processAfrOtaDocument thingName params hg, ?_⟩, rfl⟩
  rintro k ⟨⟩
  have hrem : (startDownload g thingName params).1.globals.numOfBlocksRemaining =
      blockCount params.fileSize.toNat := Nat.mod_eq_of_lt hcount'
  exact ⟨rfl, hrem ▸ hcount, hrem ▸ Nat.zero_add _⟩

theorem SessionInv.answer (hinv : SessionInv fileSize d) (hf : fileSize < 2 ^ 32) {k : Nat}
    (hk : d.pending = some k) {dataBlock : DataBlockInfo} {d' : Download} {events : List Event}
    (hans : answer d dataBlock = .ok (d', events)) :
    SessionInv fileSize d' ∧ ∀ k' ∈ requestOffsets events, d'.pending = some k' := by
  obtain ⟨harr, hpending⟩ := answer_eq_ok.mp hans
  obtain ⟨rfl, hpos, hsum⟩ := hinv.outstanding k hk
  have hcount := blockCount_lt_two_pow hf
  have hreach := hinv.reachable.blockArrived harr
  have hterm := hinv.reachable.terminated
  by_cases h : d.globals.totalBytesReceived + dataBlock.payloadLength < configMaxFileSize
  · rw [otaDemo_handleMqttStreamsBlockArrived_of_fits _ _ hterm h] at harr
    dsimp only at harr
    split at harr <;> simp only [Except.ok.injEq, Prod.mk.injEq] at harr <;>
      obtain ⟨hg', rfl⟩ := harr
    · exact ⟨⟨hreach, fun k' hk' => nomatch hpending.symm.trans hk'⟩, fun _ h => nomatch h⟩
    · refine ⟨⟨hreach, fun k' hk' => ?_⟩,
        fun k' hk' => hpending.trans (congrArg some (List.mem_singleton.mp hk').symm)⟩
      obtain rfl := Option.some.inj (hpending.symm.trans hk')
      rw [← hg']
      dsimp only
      omega
  · rw [otaDemo_handleMqttStreamsBlockArrived_of_overflow _ _ (by omega)] at harr
    cases harr

theorem AnswerRun.sessionInv {events : List Event} {d' : Download}
    (hrun : AnswerRun d events d') (hinv : SessionInv fileSize d) (hf : fileSize < 2 ^ 32) :
    SessionInv fileSize d' ∧ ∀ k ∈ requestOffsets events, configBlockSize * k < fileSize := by
  induction hrun with
  | refl => exact ⟨hinv, fun _ h => nomatch h⟩
  | step hk hans _ ih =>
      obtain ⟨hinv', hreq⟩ := hinv.answer hf hk hans
      obtain ⟨hinv'', hreq'⟩ := ih hinv'
      refine ⟨hinv'', ?_⟩
      simp only [requestOffsets_append, List.mem_append]
      rintro k (hk' | hk')
      · exact hinv'.request_inside (hreq k hk')
      · exact hreq' k hk'

theorem answer_eq_error {d : Download} {dataBlock : DataBlockInfo} {e : Fault} :
    answer d dataBlock = .error e ↔
      otaDemo_handleMqttStreamsBlockArrived d.globals dataBlock = .error e := by
  unfold answer
  cases otaDemo_handleMqttStreamsBlockArrived d.globals dataBlock <;> simp

end Session

/-- Bytes `[256 k, min (256 (k + 1)) f)` of an `f`-byte file: the answer to a
request for block `k`. -/
def fileBlock (file : List UInt8) (k : Nat) : DataBlockInfo :=
  ⟨(file.drop (configBlockSize * k)).take configBlockSize⟩

/-- The peer of a download of `file`: it answers each outstanding request with
the block it asks for, at most `fuel` times. -/
def serveFile (file : List UInt8) : Nat → Download → CResult (Download × List Event)
  | 0, d => .ok (d, [])
  | fuel + 1, d =>
      match d.pending with
      | none => .ok (d, [])
      | some k => do
          let r ← answer d (fileBlock file k)
          let r' ← serveFile file fuel r.1
          pure (r'.1, r.2 ++ r'.2)

def runDownload (g : DemoGlobals) (thingName : List UInt8) (params : AfrOtaJobDocumentFields)
    (file : List UInt8) (fuel : Nat) : CResult (Download × List Event) :=
  let r := startDownload g thingName params
  (fun r' => (r'.1, r.2 ++ r'.2)) <$> serveFile file fuel r.1

theorem serveFile_answerRun {file : List UInt8} {fuel : Nat} {d d' : Download}
    {events : List Event} (h : serveFile file fuel d = .ok (d', events)) :
    AnswerRun d events d' := by
  induction fuel generalizing d d' events with
  | zero =>
      cases h
      exact .refl d
  | succ fuel ih =>
      simp only [serveFile] at h
      split at h
      · cases h
        exact .refl d
      · obtain ⟨⟨d₁, events₁⟩, hans, h⟩ := bind_eq_ok.mp h
        obtain ⟨⟨d₂, events₂⟩, hserve, h⟩ := bind_eq_ok.mp h
        cases h
        exact .step ‹_› hans (ih hserve)

theorem serveFile_of_pending_none (file : List UInt8) (fuel : Nat) {d : Download}
    (h : d.pending = none) : serveFile file fuel d = .ok (d, []) := by
  cases fuel <;> simp [serveFile, h]

theorem serveFile_succ_of_pending (file : List UInt8) (fuel : Nat) {d : Download} {k : Nat}
    (h : d.pending = some k) :
    serveFile file (fuel + 1) d = (do
      let r ← answer d (fileBlock file k)
      let r' ← serveFile file fuel r.1
      pure (r'.1, r.2 ++ r'.2)) := by
  simp only [serveFile, h]

section Serve

variable {file : List UInt8} {fileId : Nat}

theorem fileBlock_payloadLength (k : Nat) :
    (fileBlock file k).payloadLength = min configBlockSize (file.length - configBlockSize * k) := by
  rw [DataBlockInfo.payloadLength, fileBlock, List.length_take, List.length_drop]

theorem take_append_fileBlock (k : Nat) :
    file.take (configBlockSize * k) ++ (fileBlock file k).payload =
      file.take (configBlockSize * (k + 1)) := by
  rw [fileBlock, ← List.take_add, Nat.mul_succ]

/-- A download of `file` with file id `fileId` while block `k` is requested
and the blocks before it are stored. -/
structure AtBlock (file : List UInt8) (fileId k : Nat) (d : Download) : Prop where
  terminated : Terminated d.globals.downloadedData
  pending : d.pending = some k
  offset : d.globals.currentBlockOffset = k
  remaining : k + d.globals.numOfBlocksRemaining = blockCount file.length
  lt_count : k < blockCount file.length
  fileId_eq : d.globals.currentFileId = fileId
  total : d.globals.totalBytesReceived = configBlockSize * k
  stored : d.globals.downloadedData.bytes.take (configBlockSize * k) =
    file.take (configBlockSize * k)

theorem atBlock_startDownload {g : DemoGlobals} (hg : Terminated g.downloadedData)
    (thingName : List UInt8) {params : AfrOtaJobDocumentFields}
    (hsize : params.fileSize.toNat = file.length) (hpos : 0 < file.length) :
    AtBlock file (params.fileId.toNat % 2 ^ 8) 0 (startDownload g thingName params).1 := by
  have hcount := blockCount_lt_two_pow (hsize ▸ params.fileSize.toNat_lt_size)
  refine ⟨hg, rfl, rfl, ?_, lt_blockCount_iff.mpr (by omega), rfl, rfl, rfl⟩
  show 0 + blockCount params.fileSize.toNat % 2 ^ 32 = blockCount file.length
  rw [hsize, Nat.zero_add, Nat.mod_eq_of_lt hcount]

theorem AtBlock.answer_last {k : Nat} {d : Download} (hd : AtBlock file fileId k d)
    (hk : k + 1 = blockCount file.length) (hlt : file.length < configMaxFileSize) :
    ∃ d', answer d (fileBlock file k) = .ok (d', [.reportJobStatusComplete]) ∧
      d'.pending = none ∧ d'.globals.totalBytesReceived = file.length ∧
      d'.globals.downloadedData.bytes.take file.length = file := by
  have hin := lt_blockCount_iff.mp hd.lt_count
  have hlast : file.length ≤ configBlockSize * (k + 1) :=
    Nat.le_of_not_lt (mt lt_blockCount_iff.mpr (by omega))
  have hlen : (fileBlock file k).payload.length = file.length - configBlockSize * k := by
    rw [← DataBlockInfo.payloadLength, fileBlock_payloadLength]
    simp only [configBlockSize] at hlast ⊢
    omega
  have hsum : d.globals.totalBytesReceived + (fileBlock file k).payload.length = file.length := by
    rw [hd.total, hlen]
    omega
  have hfit : d.globals.totalBytesReceived + (fileBlock file k).payloadLength <
      configMaxFileSize := by
    rw [DataBlockInfo.payloadLength, hsum]
    exact hlt
  have harr := otaDemo_handleMqttStreamsBlockArrived_of_fits _ _ hd.terminated hfit
  have hremaining := hd.remaining
  dsimp only at harr
  rw [if_pos (by omega)] at harr
  refine ⟨_, by rw [answer, harr]; rfl, rfl, ?_, ?_⟩
  · simp only [DataBlockInfo.payloadLength, hsum, configMaxFileSize] at hlt ⊢
    omega
  · have htake := CArray.overwrite_take d.globals.downloadedData hfit.le
    rw [hsum] at htake
    rw [htake, hd.total, hd.stored, take_append_fileBlock, List.take_of_length_le hlast]

theorem AtBlock.answer_last_of_full {k : Nat} {d : Download} (hd : AtBlock file fileId k d)
    (hk : k + 1 = blockCount file.length) (hfull : file.length = configMaxFileSize) :
    answer d (fileBlock file k) = .error .assertion := by
  have hk' : k = 255 := by
    rw [hfull, blockCount_eq_ceil] at hk
    simp only [configMaxFileSize, configBlockSize] at hk
    omega
  subst hk'
  rw [answer_eq_error, otaDemo_handleMqttStreamsBlockArrived_of_overflow]
  rw [hd.total, fileBlock_payloadLength, hfull]
  decide

variable (hmax : file.length ≤ configMaxFileSize)
include hmax

theorem blockCount_le_of_le_max : blockCount file.length ≤ 256 := by
  rw [blockCount_eq_ceil, configBlockSize]
  simp only [configMaxFileSize] at hmax
  omega

theorem AtBlock.answer_next {k : Nat} {d : Download} (hd : AtBlock file fileId k d)
    (hk : k + 1 < blockCount file.length) :
    ∃ d', answer d (fileBlock file k) =
        .ok (d', [.requestDataBlock fileId configBlockSize (k + 1) numOfBlocksRequested]) ∧
      AtBlock file fileId (k + 1) d' := by
  have hcount := blockCount_le_of_le_max hmax
  have hfull := lt_blockCount_iff.mp hk
  have hlen : (fileBlock file k).payload.length = configBlockSize := by
    rw [← DataBlockInfo.payloadLength, fileBlock_payloadLength]
    simp only [configBlockSize] at hfull ⊢
    omega
  have hfit : d.globals.totalBytesReceived + (fileBlock file k).payloadLength <
      configMaxFileSize := by
    simp only [hd.total, DataBlockInfo.payloadLength, hlen, configBlockSize,
      configMaxFileSize] at hfull hmax ⊢
    omega
  have harr := otaDemo_handleMqttStreamsBlockArrived_of_fits _ _ hd.terminated hfit
  have hremaining := hd.remaining
  dsimp only at harr
  rw [if_neg (by omega), hd.offset, hd.fileId_eq, Nat.mod_eq_of_lt (by omega : k + 1 < 2 ^ 32)]
    at harr
  refine ⟨_, by rw [answer, harr]; rfl, ?_⟩
  refine ⟨hd.terminated.overwrite hfit.le (Nat.le_sub_one_of_lt hfit), rfl, rfl,
    by dsimp only; omega, hk, rfl, ?_, ?_⟩
  · simp only [DataBlockInfo.payloadLength, hd.total, hlen, configBlockSize] at hfit ⊢
    omega
  · have htake := CArray.overwrite_take d.globals.downloadedData hfit.le
    rw [show d.globals.totalBytesReceived + (fileBlock file k).payload.length =
      configBlockSize * (k + 1) by rw [hd.total, hlen]; rfl] at htake
    rw [htake, hd.total, hd.stored, take_append_fileBlock]

theorem AtBlock.serveFile_blocks {k : Nat} {d : Download} (hd : AtBlock file fileId k d) (j : Nat)
    (hj : k + j + 1 = blockCount file.length) :
    ∃ d', AtBlock file fileId (k + j) d' ∧ ∀ fuel, serveFile file (fuel + j) d =
      (fun r => (r.1, (List.range' (k + 1) j).map
        (fun i => .requestDataBlock fileId configBlockSize i numOfBlocksRequested) ++ r.2)) <$>
        serveFile file fuel d' := by
  induction j generalizing k d with
  | zero =>
      refine ⟨d, hd, fun fuel => ?_⟩
      show serveFile file fuel d = _
      cases serveFile file fuel d <;> rfl
  | succ j ih =>
      obtain ⟨d₁, hans, hd₁⟩ := hd.answer_next hmax (by omega)
      obtain ⟨d', hd', hserve⟩ := ih hd₁ (by omega)
      refine ⟨d', (by omega : k + 1 + j = k + (j + 1)) ▸ hd', fun fuel => ?_⟩
      show serveFile file (fuel + j + 1) d = _
      simp only [serveFile_succ_of_pending _ _ hd.pending, hans, ok_bind, hserve]
      cases serveFile file fuel d' <;> simp [List.range'_succ]

end Serve

/-- A download of a non-empty file smaller than the buffer, whose peer answers
every request with the block it asks for, requests blocks `0, ..., N - 1` in
this order, finishes once, after the last arrival, and then holds the whole
file. -/
theorem runDownload_delivers_file {g : DemoGlobals} (hg : Reachable g) (thingName : List UInt8)
    {params : AfrOtaJobDocumentFields} {file : List UInt8}
    (hsize : params.fileSize.toNat = file.length) (hpos : 0 < file.length)
    (hlt : file.length < configMaxFileSize) {fuel : Nat}
    (hfuel : (file.length + configBlockSize - 1) / configBlockSize ≤ fuel) :
    ∃ d, runDownload g thingName params file fuel =
        .ok (d, .mqttFileDownloaderInit params.imageRef thingName .cbor ::
          (List.range ((file.length + configBlockSize - 1) / configBlockSize)).map
            (fun k => .requestDataBlock (params.fileId.toNat % 2 ^ 8) configBlockSize k
              numOfBlocksRequested) ++ [.reportJobStatusComplete]) ∧
      d.pending = none ∧ d.globals.totalBytesReceived = file.length ∧
      d.globals.downloadedData.bytes.take file.length = file := by
  rw [← blockCount_eq_ceil] at hfuel ⊢
  obtain ⟨n, hn⟩ : ∃ n, blockCount file.length = n + 1 :=
    ⟨blockCount file.length - 1, by
      have := lt_blockCount_iff.mpr (by rw [Nat.mul_zero]; exact hpos)
      omega⟩
  have hd₀ := atBlock_startDownload hg.terminated thingName hsize hpos
  obtain ⟨dₙ, hdₙ, hserve⟩ := hd₀.serveFile_blocks hlt.le n (by omega)
  obtain ⟨d, hans, hpending, htotal, hstored⟩ := hdₙ.answer_last (by omega) hlt
  refine ⟨d, ?_, hpending, htotal, hstored⟩
  rw [runDownload, show fuel = fuel - (n + 1) + 1 + n by omega, hserve]
  simp only [serveFile_succ_of_pending _ _ hdₙ.pending, hans, ok_bind,
    serveFile_of_pending_none _ _ hpending, map_ok, pure_eq_ok, hn, List.range_eq_range',
    List.range'_succ, List.map_cons, List.append_nil]
  rfl

theorem runDownload_delivers_three_byte_file :
    Reachable DemoGlobals.init ∧ (3 : UInt32).toNat = ([1, 2, 3] : List UInt8).length ∧
      0 < ([1, 2, 3] : List UInt8).length ∧
      ([1, 2, 3] : List UInt8).length < configMaxFileSize ∧
      (([1, 2, 3] : List UInt8).length + configBlockSize - 1) / configBlockSize ≤ 1 ∧
      ∃ d, runDownload DemoGlobals.init [] ⟨[], 7, 3⟩ [1, 2, 3] 1 =
          .ok (d, .mqttFileDownloaderInit [] [] .cbor ::
            (List.range ((([1, 2, 3] : List UInt8).length + configBlockSize - 1) /
              configBlockSize)).map
              (fun k => .requestDataBlock ((7 : UInt32).toNat % 2 ^ 8) configBlockSize k
                numOfBlocksRequested) ++ [.reportJobStatusComplete]) ∧
        d.pending = none ∧ d.globals.totalBytesReceived = ([1, 2, 3] : List UInt8).length ∧
        d.globals.downloadedData.bytes.take ([1, 2, 3] : List UInt8).length = [1, 2, 3] :=
  ⟨.init, rfl, by decide, by decide, by decide,
    runDownload_delivers_file .init [] (by rfl) (by decide) (by decide) (by decide)⟩

/-- Session safety for every non-empty file: every block the session requests
lies inside the file, and while a request is outstanding the remaining count is
positive (so the next arrival does not wrap it), the offset and the remaining
count add up to the file's block count, and the answer can fail only on the
capacity assertion, exactly when the payload does not fit. -/
theorem download_session_safe {g : DemoGlobals} (hg : Reachable g) (thingName : List UInt8)
    {params : AfrOtaJobDocumentFields} (hf : 0 < params.fileSize.toNat) {events : List Event}
    {d : Download} (hrun : AnswerRun (startDownload g thingName params).1 events d) :
    (∀ k ∈ requestOffsets ((startDownload g thingName params).2 ++ events),
      configBlockSize * k < params.fileSize.toNat) ∧
    ∀ k, d.pending = some k →
      k = d.globals.currentBlockOffset ∧ 0 < d.globals.numOfBlocksRemaining ∧
      d.globals.currentBlockOffset + d.globals.numOfBlocksRemaining =
        (params.fileSize.toNat + configBlockSize - 1) / configBlockSize ∧
      ∀ dataBlock e, answer d dataBlock = .error e ↔
        e = .assertion ∧
          configMaxFileSize ≤ d.globals.totalBytesReceived + dataBlock.payloadLength := by
  obtain ⟨hinv₀, hreq₀⟩ := sessionInv_startDownload hg thingName hf
  obtain ⟨hinv, hreq⟩ := hrun.sessionInv hinv₀ params.fileSize.toNat_lt_size
  refine ⟨?_, fun k hk => ?_⟩
  · simp only [requestOffsets_append, hreq₀, List.mem_append, List.mem_singleton]
    rintro k (rfl | hk)
    · exact hf
    · exact hreq k hk
  · obtain ⟨hoff, hpos, hsum⟩ := hinv.outstanding k hk
    refine ⟨hoff, hpos, by rw [hsum, blockCount_eq_ceil], fun dataBlock e => ?_⟩
    rw [answer_eq_error]
    exact otaDemo_handleMqttStreamsBlockArrived_eq_error _ _ hinv.reachable.terminated e

theorem download_session_safe_300_byte_file :
    ∃ events d, AnswerRun (startDownload DemoGlobals.init [] ⟨[], 7, 300⟩).1 events d ∧
      requestOffsets events = [1] ∧
      ∀ k ∈ requestOffsets ((startDownload DemoGlobals.init [] ⟨[], 7, 300⟩).2 ++ events),
        configBlockSize * k < (300 : UInt32).toNat := by
  have hlen : (List.replicate 300 (1 : UInt8)).length = 300 := List.length_replicate _ _
  obtain ⟨d, hrun, -⟩ := @runDownload_delivers_file DemoGlobals.init .init [] ⟨[], 7, 300⟩
    (List.replicate 300 1) (hlen.trans rfl).symm (by rw [hlen]; decide) (by rw [hlen]; decide) 2
    (by rw [hlen]; decide)
  obtain ⟨⟨d', events⟩, hserve, heq⟩ := map_eq_ok.mp hrun
  simp only [Prod.mk.injEq, hlen] at heq
  have hevents : events = [.requestDataBlock 7 256 1 1, .reportJobStatusComplete] :=
    List.append_cancel_left (heq.2.trans (by decide))
  have hanswers := serveFile_answerRun hserve
  exact ⟨events, d', hanswers, by rw [hevents]; rfl,
    (download_session_safe .init [] (by decide) hanswers).1⟩

/-- With a declared size of 0 the callback still requests block 0, and the
arrival that answers it decrements `numOfBlocksRemaining` from 0. -/
theorem empty_file_download_wraps_block_count :
    let r := startDownload DemoGlobals.init [] ⟨[], 0, 0⟩
    requestOffsets r.2 = [0] ∧ ¬configBlockSize * 0 < (0 : UInt32).toNat ∧
      r.1.globals.numOfBlocksRemaining = 0 ∧
      ∃ d events, answer r.1 ⟨[]⟩ = .ok (d, events) ∧
        d.globals.numOfBlocksRemaining = 2 ^ 32 - 1 ∧ requestOffsets events = [1] := by
  intro r
  have hrem : (r.1.globals.numOfBlocksRemaining + (2 ^ 32 - 1)) % 2 ^ 32 = 2 ^ 32 - 1 := by
    decide
  have hoff : (r.1.globals.currentBlockOffset + 1) % 2 ^ 32 = 1 := by decide
  have harr := otaDemo_handleMqttStreamsBlockArrived_of_fits r.1.globals ⟨[]⟩ terminated_zero
    (by decide)
  dsimp only at harr
  rw [hrem, hoff, if_neg (by decide)] at harr
  refine ⟨rfl, by decide, rfl, _, _, by rw [answer, harr]; rfl, ?_, ?_⟩ <;> rfl

/-- A file of exactly `CONFIG_MAX_FILE_SIZE` bytes is never completed: the
arrival of its last block fails the capacity assertion. -/
theorem runDownload_full_size_file_fails_assertion {g : DemoGlobals} (hg : Reachable g)
    (thingName : List UInt8) {params : AfrOtaJobDocumentFields} {file : List UInt8}
    (hsize : params.fileSize.toNat = file.length) (hfull : file.length = configMaxFileSize)
    {fuel : Nat} (hfuel : (file.length + configBlockSize - 1) / configBlockSize ≤ fuel) :
    runDownload g thingName params file fuel = .error .assertion := by
  rw [← blockCount_eq_ceil] at hfuel
  have hcount : blockCount file.length = 256 := by
    rw [hfull, blockCount_eq_ceil]
    rfl
  have hd₀ := atBlock_startDownload hg.terminated thingName hsize (by rw [hfull]; decide)
  obtain ⟨dₙ, hdₙ, hserve⟩ := hd₀.serveFile_blocks hfull.le 255 (by omega)
  rw [runDownload, show fuel = fuel - 256 + 1 + 255 by omega, hserve]
  rw [serveFile_succ_of_pending _ _ hdₙ.pending, hdₙ.answer_last_of_full (by omega) hfull]
  rfl

theorem runDownload_full_size_zero_file_fails_assertion :
    Reachable DemoGlobals.init ∧
      (65536 : UInt32).toNat = (List.replicate 65536 (0 : UInt8)).length ∧
      (List.replicate 65536 (0 : UInt8)).length = configMaxFileSize ∧
      ((List.replicate 65536 (0 : UInt8)).length + configBlockSize - 1) / configBlockSize ≤
        256 ∧
      runDownload DemoGlobals.init [] ⟨[], 0, 65536⟩ (List.replicate 65536 0) 256 =
        .error .assertion :=
  have hsize : (65536 : UInt32).toNat = (List.replicate 65536 (0 : UInt8)).length := by
    rw [List.length_replicate]
    rfl
  have hfull : (List.replicate 65536 (0 : UInt8)).length = configMaxFileSize :=
    List.length_replicate _ _
  have hfuel : ((List.replicate 65536 (0 : UInt8)).length + configBlockSize - 1) /
      configBlockSize ≤ 256 := by
    rw [hfull]
    decide
  ⟨.init, hsize, hfull, hfuel,
    runDownload_full_size_file_fails_assertion .init [] hsize hfull hfuel⟩

end OtaJobs.BlockDownload
