import OtaJobs.OtaDemo

namespace OtaJobs.Arrivals

open OtaJobs.CMemory
open OtaJobs.OtaDemo

/-- The MQTT streams library handing each block it receives to
`otaDemo_handleMqttStreamsBlockArrived`, in the order the blocks arrive; the
calls the demo makes are collected. -/
def arriveAll : DemoGlobals → List DataBlockInfo → CResult (DemoGlobals × List Event) :=
  runSteps otaDemo_handleMqttStreamsBlockArrived

/-- The arrivals the demo counts down before it reports the download complete:
`numOfBlocksRemaining`, or `2 ^ 32` when that is 0, since the decrement then
wraps around. -/
def blocksToCompletion (g : DemoGlobals) : Nat :=
  if g.numOfBlocksRemaining = 0 then 2 ^ 32 else g.numOfBlocksRemaining

theorem blocksToCompletion_pos (g : DemoGlobals) : 0 < blocksToCompletion g := by
  unfold blocksToCompletion
  split <;> omega

/-- How many times the demo reports the download complete in the first `n`
arrivals when `N` arrivals are left before completion: the count restarts at
`2 ^ 32` after each completion. -/
def completionsAfter (N n : Nat) : Nat :=
  if n < N then 0 else 1 + (n - N) / 2 ^ 32

def blocksLeftAfter (N n : Nat) : Nat :=
  if n < N then N - n else 2 ^ 32 - (n - N) % 2 ^ 32

/-- The call the demo makes at the `i`-th arrival (from 1) of a download with
`N` arrivals left, from block `offset` of file `fileId`: the completion report
at the `N`-th arrival and every `2 ^ 32` arrivals after it, and otherwise a
request for the block after the previous request. -/
def arrivalEvent (fileId offset N i : Nat) : Event :=
  if N ≤ i ∧ (i - N) % 2 ^ 32 = 0 then .reportJobStatusComplete
  else .requestDataBlock fileId configBlockSize ((offset + i - completionsAfter N i) % 2 ^ 32)
    numOfBlocksRequested

section Counting

variable {N j : Nat}

theorem blocksLeftAfter_zero (hN : 0 < N) : blocksLeftAfter N 0 = N := by
  simp [blocksLeftAfter, hN]

theorem completionsAfter_zero (hN : 0 < N) : completionsAfter N 0 = 0 := by
  simp [completionsAfter, hN]

theorem completes_iff :
    N ≤ j + 1 ∧ (j + 1 - N) % 2 ^ 32 = 0 ↔ blocksLeftAfter N j = 1 := by
  unfold blocksLeftAfter
  split <;> omega

theorem blocksLeftAfter_succ :
    blocksLeftAfter N (j + 1) =
      if blocksLeftAfter N j = 1 then 2 ^ 32 else blocksLeftAfter N j - 1 := by
  unfold blocksLeftAfter
  split_ifs <;> omega

theorem completionsAfter_succ :
    completionsAfter N (j + 1) =
      completionsAfter N j + if blocksLeftAfter N j = 1 then 1 else 0 := by
  unfold completionsAfter blocksLeftAfter
  split_ifs <;> omega

theorem completionsAfter_le (hN : 0 < N) : completionsAfter N j ≤ j := by
  unfold completionsAfter
  split <;> omega

end Counting

/-- The counters of a reachable state hold what their C types can hold, and
the bytes received so far leave the buffer's last byte free. -/
structure CountersInRange (g : DemoGlobals) : Prop where
  remaining : g.numOfBlocksRemaining < 2 ^ 32
  offset : g.currentBlockOffset < 2 ^ 32
  total : g.totalBytesReceived < configMaxFileSize

section Step

variable {g g' : DemoGlobals} {dataBlock : DataBlockInfo} {events : List Event}

theorem blockArrived_of_ok (hterm : Terminated g.downloadedData)
    (hrem : g.numOfBlocksRemaining < 2 ^ 32)
    (hok : otaDemo_handleMqttStreamsBlockArrived g dataBlock = .ok (g', events)) :
    (∃ h, g'.downloadedData =
      g.downloadedData.overwrite g.totalBytesReceived dataBlock.payload h) ∧
    g'.totalBytesReceived = g.totalBytesReceived + dataBlock.payloadLength ∧
    g'.numOfBlocksRemaining = blocksToCompletion g - 1 ∧
    g'.currentFileId = g.currentFileId ∧ g'.globalJobId = g.globalJobId ∧
    if blocksToCompletion g = 1 then
      events = otaDemo_finishDownload ∧ g'.currentBlockOffset = g.currentBlockOffset
    else
      events = [.requestDataBlock g.currentFileId configBlockSize
          ((g.currentBlockOffset + 1) % 2 ^ 32) numOfBlocksRequested] ∧
        g'.currentBlockOffset = (g.currentBlockOffset + 1) % 2 ^ 32 := by
  by_cases hfit : g.totalBytesReceived + dataBlock.payloadLength < configMaxFileSize
  · have htotal : (g.totalBytesReceived + dataBlock.payloadLength) % 2 ^ 32 =
        g.totalBytesReceived + dataBlock.payloadLength :=
      Nat.mod_eq_of_lt (by simp only [configMaxFileSize] at hfit; omega)
    have hpos := blocksToCompletion_pos g
    have hcount : (g.numOfBlocksRemaining + (2 ^ 32 - 1)) % 2 ^ 32 = blocksToCompletion g - 1 := by
      unfold blocksToCompletion
      split <;> omega
    rw [otaDemo_handleMqttStreamsBlockArrived_of_fits g dataBlock hterm hfit] at hok
    dsimp only at hok
    rw [hcount] at hok
    split at hok
    next hlast =>
      simp only [Except.ok.injEq, Prod.mk.injEq] at hok
      obtain ⟨rfl, rfl⟩ := hok
      have hone : blocksToCompletion g = 1 := by omega
      exact ⟨⟨hfit.le, rfl⟩, htotal, rfl, rfl, rfl, by rw [if_pos hone]; exact ⟨rfl, rfl⟩⟩
    next hnext =>
      simp only [Except.ok.injEq, Prod.mk.injEq] at hok
      obtain ⟨rfl, rfl⟩ := hok
      have hone : blocksToCompletion g ≠ 1 := by omega
      exact ⟨⟨hfit.le, rfl⟩, htotal, rfl, rfl, rfl, by rw [if_neg hone]; exact ⟨rfl, rfl⟩⟩
  · rw [otaDemo_handleMqttStreamsBlockArrived_of_overflow g dataBlock (by omega)] at hok
    cases hok

end Step

theorem countersInRange_of_reachable {g : DemoGlobals} (hg : Reachable g) : CountersInRange g := by
  induction hg with
  | init => exact ⟨by decide, by decide, by decide⟩
  | processAfrOtaDocument _ _ _ _ =>
      exact ⟨Nat.mod_lt _ (by decide), show 0 < 2 ^ 32 by decide,
        show 0 < configMaxFileSize by decide⟩
  | @blockArrived g g' dataBlock events hg hok ih =>
      obtain ⟨hrem₀, hoff₀, -⟩ := ih
      have hfit : g.totalBytesReceived + dataBlock.payloadLength < configMaxFileSize := by
        by_contra hover
        rw [otaDemo_handleMqttStreamsBlockArrived_of_overflow _ _ (by omega)] at hok
        cases hok
      obtain ⟨-, htotal, hrem, -, -, hoff⟩ := blockArrived_of_ok hg.terminated hrem₀ hok
      refine ⟨by rw [hrem]; unfold blocksToCompletion; split <;> omega, ?_, htotal ▸ hfit⟩
      split at hoff
      · rw [hoff.2]; exact hoff₀
      · rw [hoff.2]; exact Nat.mod_lt _ (by decide)
  | startNextAccepted _ hok ih =>
      rw [otaDemo_handleJobsStartNextAccepted_frame _ _ _ _ _ _ hok]
      exact ⟨ih.remaining, ih.offset, ih.total⟩

theorem arriveAll_stores {g : DemoGlobals} (hg : Reachable g) {blocks : List DataBlockInfo}
    (hfit : g.totalBytesReceived + (blocks.map DataBlockInfo.payloadLength).sum <
      configMaxFileSize) :
    ∃ g' events, arriveAll g blocks = .ok (g', events) ∧
      g'.totalBytesReceived =
        g.totalBytesReceived + (blocks.map DataBlockInfo.payloadLength).sum ∧
      g'.downloadedData.bytes = g.downloadedData.bytes.take g.totalBytesReceived ++
        blocks.flatMap DataBlockInfo.payload ++ g.downloadedData.bytes.drop
          (g.totalBytesReceived + (blocks.map DataBlockInfo.payloadLength).sum) ∧
      g'.currentFileId = g.currentFileId ∧ g'.globalJobId = g.globalJobId := by
  induction blocks generalizing g with
  | nil =>
      refine ⟨g, [], rfl, rfl, ?_, rfl, rfl⟩
      rw [List.flatMap_nil, List.append_nil, List.map_nil, List.sum_nil, Nat.add_zero,
        List.take_append_drop]
  | cons dataBlock blocks ih =>
      rw [List.map_cons, List.sum_cons] at hfit
      have hfirst : g.totalBytesReceived + dataBlock.payloadLength < configMaxFileSize := by
        omega
      obtain ⟨⟨g₁, events₁⟩, hok⟩ : ∃ r, otaDemo_handleMqttStreamsBlockArrived g dataBlock = .ok r :=
        ⟨_, otaDemo_handleMqttStreamsBlockArrived_of_fits g dataBlock hg.terminated hfirst⟩
      obtain ⟨⟨h, hdata⟩, htotal, -, hfile, hjob, -⟩ :=
        blockArrived_of_ok hg.terminated (countersInRange_of_reachable hg).remaining hok
      obtain ⟨g', events, hrun, htotal', hdata', hfile', hjob'⟩ :=
        ih (hg.blockArrived hok) (by rw [htotal]; omega)
      refine ⟨g', events₁ ++ events, ?_, ?_, ?_, hfile'.trans hfile, hjob'.trans hjob⟩
      · rw [arriveAll, runSteps_cons_of_ok hok, ← arriveAll, hrun, map_ok]
      · rw [htotal', htotal, List.map_cons, List.sum_cons, Nat.add_assoc]
      · rw [hdata', hdata, htotal, DataBlockInfo.payloadLength, CArray.overwrite_take,
          CArray.overwrite_drop _ _ (by omega), List.map_cons, List.sum_cons, List.flatMap_cons,
          DataBlockInfo.payloadLength, Nat.add_assoc]
        simp only [List.append_assoc]

/-- One arrival, the `j + 1`-th of a download with `N` arrivals left from block
`offset`: it makes the call `arrivalEvent` gives for its position, and leaves
the counters where the closed forms put them after `j + 1` arrivals. -/
theorem blockArrived_at {g g₁ : DemoGlobals} (hg : Reachable g) {offset N j : Nat} (hN : 0 < N)
    (hleft : blocksToCompletion g = blocksLeftAfter N j)
    (hoff : g.currentBlockOffset = (offset + j - completionsAfter N j) % 2 ^ 32)
    {dataBlock : DataBlockInfo} {events : List Event}
    (hok : otaDemo_handleMqttStreamsBlockArrived g dataBlock = .ok (g₁, events)) :
    events = [arrivalEvent g.currentFileId offset N (j + 1)] ∧
      blocksToCompletion g₁ = blocksLeftAfter N (j + 1) ∧
      g₁.currentBlockOffset = (offset + (j + 1) - completionsAfter N (j + 1)) % 2 ^ 32 ∧
      g₁.currentFileId = g.currentFileId := by
  obtain ⟨-, -, hrem₁, hfile₁, -, hstep⟩ :=
    blockArrived_of_ok hg.terminated (countersInRange_of_reachable hg).remaining hok
  have hpos : 0 < blocksLeftAfter N j := hleft ▸ blocksToCompletion_pos g
  have hc := completionsAfter_succ (N := N) (j := j)
  have hle := completionsAfter_le hN (j := j)
  rw [hleft] at hstep hrem₁
  rw [blocksToCompletion, hrem₁, blocksLeftAfter_succ, arrivalEvent, hc]
  by_cases hone : blocksLeftAfter N j = 1
  · rw [if_pos hone] at hstep
    obtain ⟨rfl, hoff₁⟩ := hstep
    simp only [if_pos (completes_iff.mpr hone), if_pos (show blocksLeftAfter N j - 1 = 0 by omega),
      if_pos hone, hoff₁, hoff]
    exact ⟨rfl, trivial, by congr 1; omega, hfile₁⟩
  · rw [if_neg hone] at hstep
    obtain ⟨rfl, hoff₁⟩ := hstep
    simp only [if_neg (mt completes_iff.mp hone), if_neg (show blocksLeftAfter N j - 1 ≠ 0 by omega),
      if_neg hone, hoff₁, hoff, Nat.add_zero]
    refine ⟨?_, trivial, by omega, hfile₁⟩
    simp only [List.cons.injEq, Event.requestDataBlock.injEq, and_true, true_and]
    omega

/-- The calls of a run of arrivals that succeeds, from the `j + 1`-th arrival
of a download with `N` arrivals left from block `offset`: each arrival makes
the call `arrivalEvent` gives for its position. -/
theorem arriveAll_events {g g' : DemoGlobals} (hg : Reachable g) {fileId offset N j : Nat}
    (hN : 0 < N) (hfile : g.currentFileId = fileId) (hleft : blocksToCompletion g = blocksLeftAfter N j)
    (hoff : g.currentBlockOffset = (offset + j - completionsAfter N j) % 2 ^ 32)
    {blocks : List DataBlockInfo} {events : List Event} (hrun : arriveAll g blocks = .ok (g', events)) :
    events = (List.range' (j + 1) blocks.length).map (arrivalEvent fileId offset N) ∧
      blocksToCompletion g' = blocksLeftAfter N (j + blocks.length) := by
  induction blocks generalizing g g' events j with
  | nil =>
      cases hrun
      exact ⟨rfl, hleft⟩
  | cons dataBlock blocks ih =>
      obtain ⟨g₁, events₁, events₂, hok, hrest, rfl⟩ := runSteps_cons_eq_ok hrun
      obtain ⟨rfl, hleft₁, hoff₁, hfile₁⟩ := blockArrived_at hg hN hleft hoff hok
      obtain ⟨hev, hleft₂⟩ := ih (hg.blockArrived hok) (hfile₁.trans hfile) hleft₁ hoff₁ hrest
      refine ⟨?_, by rw [hleft₂, List.length_cons, Nat.add_right_comm, Nat.add_assoc]⟩
      rw [hev, hfile, List.length_cons, List.range'_succ, List.map_cons]
      rfl

/-- A run of arrivals from a reachable state fails only on the capacity
assertion, and exactly when the payloads together do not fit before the
buffer's last byte. -/
theorem arriveAll_eq_error {g : DemoGlobals} (hg : Reachable g) (blocks : List DataBlockInfo)
    (e : Fault) :
    arriveAll g blocks = .error e ↔
      e = .assertion ∧
        configMaxFileSize ≤ g.totalBytesReceived + (blocks.map DataBlockInfo.payloadLength).sum := by
  induction blocks generalizing g with
  | nil =>
      have := (countersInRange_of_reachable hg).total
      exact iff_of_false nofun fun h => by rw [List.map_nil, List.sum_nil] at h; omega
  | cons dataBlock blocks ih =>
      rw [List.map_cons, List.sum_cons, ← Nat.add_assoc]
      by_cases hfit : g.totalBytesReceived + dataBlock.payloadLength < configMaxFileSize
      · obtain ⟨⟨g₁, events₁⟩, hok⟩ :
            ∃ r, otaDemo_handleMqttStreamsBlockArrived g dataBlock = .ok r :=
          ⟨_, otaDemo_handleMqttStreamsBlockArrived_of_fits g dataBlock hg.terminated hfit⟩
        obtain ⟨-, htotal, -⟩ :=
          blockArrived_of_ok hg.terminated (countersInRange_of_reachable hg).remaining hok
        rw [← htotal, ← ih (hg.blockArrived hok), arriveAll, runSteps_cons_of_ok hok, ← arriveAll]
        cases arriveAll g₁ blocks <;> simp
      · simp only [arriveAll, runSteps, otaDemo_handleMqttStreamsBlockArrived_of_overflow g dataBlock
          (by omega), error_bind, Except.error.injEq]
        exact ⟨fun h => ⟨h.symm, by omega⟩, fun h => h.1.symm⟩

theorem session300_overflow_fails :
    Reachable session300 ∧
      arriveAll session300 [⟨List.replicate 65000 1⟩, ⟨List.replicate 536 1⟩] = .error .assertion := by
  have hg : Reachable session300 := .processAfrOtaDocument _ _ .init
  have hlengths : [(⟨List.replicate 65000 1⟩ : DataBlockInfo), ⟨List.replicate 536 1⟩].map
      DataBlockInfo.payloadLength = [65000, 536] := by
    rw [List.map_cons, List.map_cons, List.map_nil, DataBlockInfo.payloadLength,
      DataBlockInfo.payloadLength, List.length_replicate, List.length_replicate]
  refine ⟨hg, (arriveAll_eq_error hg _ _).mpr ⟨rfl, ?_⟩⟩
  rw [hlengths]
  decide

/-- Whatever the peer sends, the demo counts arrivals, not bytes: from any
reachable state, blocks that fit are all stored, one after the other, from
where the bytes received so far end; the demo reports the download complete
at the `blocksToCompletion`-th arrival and, the count then wrapping, every
`2 ^ 32` arrivals after it, and requests the next block at every other
arrival, whatever the blocks' lengths and contents. -/
theorem arrivals_complete_by_count {g : DemoGlobals} (hg : Reachable g)
    {blocks : List DataBlockInfo}
    (hfit : g.totalBytesReceived + (blocks.map DataBlockInfo.payloadLength).sum <
      configMaxFileSize) :
    ∃ g' events, arriveAll g blocks = .ok (g', events) ∧
      g'.downloadedData.bytes = g.downloadedData.bytes.take g.totalBytesReceived ++
        blocks.flatMap DataBlockInfo.payload ++ g.downloadedData.bytes.drop
          (g.totalBytesReceived + (blocks.map DataBlockInfo.payloadLength).sum) ∧
      events = (List.range' 1 blocks.length).map
        (arrivalEvent g.currentFileId g.currentBlockOffset (blocksToCompletion g)) ∧
      blocksToCompletion g' = blocksLeftAfter (blocksToCompletion g) blocks.length := by
  obtain ⟨g', events, hrun, -, hdata, -⟩ := arriveAll_stores hg hfit
  have hN := blocksToCompletion_pos g
  have hoff : g.currentBlockOffset = (g.currentBlockOffset + 0 -
      completionsAfter (blocksToCompletion g) 0) % 2 ^ 32 := by
    rw [completionsAfter_zero hN, Nat.add_zero, Nat.sub_zero,
      Nat.mod_eq_of_lt (countersInRange_of_reachable hg).offset]
  obtain ⟨hev, hleft⟩ := arriveAll_events hg hN rfl (blocksLeftAfter_zero hN).symm hoff hrun
  exact ⟨g', events, hrun, hdata, hev, by rw [hleft, Nat.zero_add]⟩

theorem three_short_blocks_complete_once :
    Reachable session300 ∧
      session300.totalBytesReceived +
          ([⟨[1, 2, 3]⟩, ⟨[4]⟩, ⟨[5]⟩].map DataBlockInfo.payloadLength).sum < configMaxFileSize ∧
      ∃ g' events, arriveAll session300 [⟨[1, 2, 3]⟩, ⟨[4]⟩, ⟨[5]⟩] = .ok (g', events) ∧
        events = [.requestDataBlock 7 256 1 1, .reportJobStatusComplete,
          .requestDataBlock 7 256 2 1] ∧
        blocksToCompletion g' = 2 ^ 32 - 1 := by
  have hg : Reachable session300 := .processAfrOtaDocument _ _ .init
  have hfit : session300.totalBytesReceived +
      ([⟨[1, 2, 3]⟩, ⟨[4]⟩, ⟨[5]⟩].map DataBlockInfo.payloadLength).sum < configMaxFileSize := by
    decide
  obtain ⟨g', events, hrun, -, hev, hleft⟩ := arrivals_complete_by_count hg hfit
  exact ⟨hg, hfit, g', events, hrun, hev.trans (by decide), hleft.trans (by decide)⟩

end OtaJobs.Arrivals
