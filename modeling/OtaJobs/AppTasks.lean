import OtaJobs.MqttWrapper
import OtaJobs.Main
import OtaJobs.DemoRuns

namespace OtaJobs.AppTasks

open OtaJobs.CMemory
open OtaJobs.TopicMatching
open OtaJobs.MqttWrapper
open OtaJobs.Main
open OtaJobs.OtaDemo
open OtaJobs.DemoRuns

/-- `app_main` from the call of `MQTT_Init`, which returns `mqttInitStatus` and
leaves the static context not connected; `thingName` is the 129-byte buffer
that `pfCred_getThingName` has filled. -/
def app_main (mqttInitStatus : MqttStatus) (thingName : CArray (maxThingNameSize + 1)) :
    CResult WrapperGlobals := do
  if mqttInitStatus ≠ .success then throw .assertion
  let w := mqttWrapper_setCoreMqttContext WrapperGlobals.init (some ⟨.notConnected⟩)
  let globalThingName ← mqttWrapper_setThingName w.globalThingName thingName.bytes
  pure { w with globalThingName }

inductive MainPc
  | tlsConnect
  | connect
  | start
  | processLoop
  deriving DecidableEq, Repr

inductive PubSubPc
  | subscribe
  | publish
  | unsubscribe
  deriving DecidableEq, Repr

def helloTopic : List UInt8 := cLit "Hello"

def helloMessage : List UInt8 := cLit "hello world"

def mqttPacketTypePublish : UInt8 := 0x30

/-- A packet `MQTT_ProcessLoop` hands `mqttEventCallback`: the `type` of its
`MQTTPacketInfo_t`, the `pPublishInfo` of its `MQTTDeserializedInfo_t` (`none`
for `NULL`), and what the jobs and the streams libraries do with it if the
demo offers it to them. -/
structure IncomingPacket where
  type : UInt8
  publishInfo : Option PublishInfo
  coreJobs : LibraryAnswer
  mqttStreams : LibraryAnswer

/-- `mqttEventCallback` on the demo's globals `g`: a PUBLISH goes to
`handleIncomingMQTTMessage`, which passes what is not `"Hello"` to
`otaDemo_handleIncomingMQTTMessage`; acknowledgements and unknown packets are
only printed. It returns the demo's globals and events, and the route. -/
def mqttEventCallback (w : WrapperGlobals) (g : DemoGlobals) (packetInfo : IncomingPacket) :
    CResult ((DemoGlobals × List Event) × Option Route) :=
  if packetInfo.type &&& 0xF0 = mqttPacketTypePublish then
    match packetInfo.publishInfo with
    | none => throw .assertion
    | some publishInfo =>
        (fun r => (r.1, some r.2)) <$>
          handleIncomingMQTTMessageOn (g, [])
            (otaDemo_handleIncomingMQTTMessage w.globalThingName g packetInfo.coreJobs
              packetInfo.mqttStreams publishInfo.topicName publishInfo.topicNameLength
              publishInfo.payload publishInfo.payloadLength)
            publishInfo.topicName publishInfo.topicNameLength publishInfo.payload
            publishInfo.payloadLength
  else pure ((g, []), none)

/-- The calls the two tasks make: coreMQTT's through the wrapper, `mainTask`'s
calls of `pfTransport_tlsConnect`, `otaDemo_start` and `MQTT_ProcessLoop`, the
route of each PUBLISH the process loop receives, and the demo's calls into the
libraries while it handles one. -/
inductive AppCall
  | tlsConnect
  | mqtt (call : MqttCall)
  | otaDemoStart
  | processLoop
  | routed (route : Route)
  | demo (event : Event)
  deriving DecidableEq, Repr

def AppCall.sendsPacket : AppCall → Bool
  | .mqtt call => call.sendsPacket
  | _ => false

def AppCall.demoEvent : AppCall → Option Event
  | .demo event => some event
  | _ => none

def AppCall.route : AppCall → Option Route
  | .routed route => some route
  | _ => none

def loopStep (w : WrapperGlobals) (g : DemoGlobals) (packetInfo : IncomingPacket) :
    CResult (DemoGlobals × List AppCall) :=
  (fun r => (r.1.1, r.1.2.map .demo ++ r.2.toList.map .routed)) <$> mqttEventCallback w g packetInfo

def processLoopCallbacks (w : WrapperGlobals) :
    DemoGlobals → List IncomingPacket → CResult (DemoGlobals × List AppCall) :=
  runSteps (loopStep w)

/-- What the router needs of a received publish to read only the memory it is
handed: six readable bytes at the topic pointer, both lengths inside the
readable memory, and a NUL in the payload's memory when the topic is
`"Hello"`. -/
def PublishInBounds (publishInfo : PublishInfo) : Prop :=
  6 ≤ publishInfo.topicName.length ∧ publishInfo.topicNameLength ≤ publishInfo.topicName.length ∧
    publishInfo.payloadLength ≤ publishInfo.payload.length ∧
    (publishInfo.topicName.take 6 = cLit "Hello" → 0 ∈ publishInfo.payload)

instance (publishInfo : PublishInfo) : Decidable (PublishInBounds publishInfo) :=
  inferInstanceAs (Decidable (_ ∧ _ ∧ _ ∧ _))

def InBounds (packetInfo : IncomingPacket) : Prop :=
  packetInfo.type &&& 0xF0 = mqttPacketTypePublish →
    packetInfo.publishInfo.isSome ∧ ∀ publishInfo ∈ packetInfo.publishInfo, PublishInBounds publishInfo

instance (packetInfo : IncomingPacket) : Decidable (InBounds packetInfo) :=
  inferInstanceAs (Decidable (_ → _ ∧ _))

/-- What routing is for, stated over the packets rather than the memory reads:
a PUBLISH goes to the `Hello` branch when the six bytes at its topic pointer
are `"Hello"` and a NUL, and to the demo otherwise, which handles it when
either library does; no other packet is routed. -/
def routeOf (packetInfo : IncomingPacket) : Option Route :=
  if packetInfo.type &&& 0xF0 = mqttPacketTypePublish then
    packetInfo.publishInfo.map fun publishInfo =>
      if publishInfo.topicName.take 6 = cLit "Hello" then .hello
      else .otaDemo (packetInfo.coreJobs.handled || packetInfo.mqttStreams.handled)
  else none

def demoCallbacks (packetInfo : IncomingPacket) : List Callback :=
  match routeOf packetInfo with
  | some (.otaDemo _) => LibraryAnswer.made packetInfo.coreJobs packetInfo.mqttStreams
  | _ => []

/-- The faults of a callback on a received packet, `name` being the stored
thing name: the assert on a `NULL` publish info, a read past the memory the
router or the demo's `printf` is handed, or a fault of a demo callback. -/
def PacketFault (name : List UInt8) (e : Fault) (packetInfo : IncomingPacket) : Prop :=
  packetInfo.type &&& 0xF0 = mqttPacketTypePublish ∧
    (packetInfo.publishInfo = none ∧ e = .assertion ∨
      ∃ publishInfo, packetInfo.publishInfo = some publishInfo ∧
        (e = .outOfBounds ∧ ¬PublishInBounds publishInfo ∨
          ∃ cb ∈ packetInfo.coreJobs.callbacks ++ packetInfo.mqttStreams.callbacks,
            CallbackFault name e cb))

def LoopCall (name : List UInt8) : AppCall → Prop
  | .demo event => InitsWithName name event
  | .routed _ => True
  | _ => False

section Callbacks

variable {w : WrapperGlobals} {name : List UInt8} {g g' : DemoGlobals} {e : Fault}

theorem mqttEventCallback_of_in_bounds {packetInfo : IncomingPacket} (h : InBounds packetInfo) :
    mqttEventCallback w g packetInfo =
      (fun r => (r, routeOf packetInfo)) <$>
        runCallbacks w.globalThingName g (demoCallbacks packetInfo) := by
  unfold mqttEventCallback demoCallbacks routeOf
  split_ifs with hpub
  · obtain ⟨publishInfo, hinfo⟩ := Option.isSome_iff_exists.mp (h hpub).1
    obtain ⟨ht, htl, hml, hnul⟩ := (h hpub).2 publishInfo hinfo
    simp only [hinfo, Option.map_some']
    rw [handleIncomingMQTTMessageOn_of_in_bounds _ _ ht htl hml hnul,
      otaDemo_handleIncomingMQTTMessage_eq _ _ _ _ _ _ _ _ htl hml]
    split_ifs
    · rfl
    · cases runCallbacks w.globalThingName g _ <;> rfl
  · rfl

theorem mqttEventCallback_keeps (hg : Reachable g) (hname : HoldsThingName w.globalThingName name)
    {packetInfo : IncomingPacket} {events : List Event} {route : Option Route}
    (h : mqttEventCallback w g packetInfo = .ok ((g', events), route)) :
    Reachable g' ∧ ∀ ev ∈ events, InitsWithName name ev := by
  unfold mqttEventCallback at h
  split_ifs at h
  · cases hinfo : packetInfo.publishInfo with
    | none => simp only [hinfo, throw_eq_error, reduceCtorEq] at h
    | some publishInfo =>
        simp only [hinfo] at h
        obtain ⟨⟨_, _⟩, hroute, h⟩ := map_eq_ok.mp h
        cases h
        rcases handleIncomingMQTTMessageOn_eq_ok _ _ hroute with h | ⟨_, h⟩
        · cases h
          exact ⟨hg, nofun⟩
        · exact otaDemo_handleIncomingMQTTMessage_keeps hg hname h
  · cases h
    exact ⟨hg, nofun⟩

theorem mqttEventCallback_eq_error (hg : Reachable g) (hname : HoldsThingName w.globalThingName name)
    {packetInfo : IncomingPacket} (h : mqttEventCallback w g packetInfo = .error e) :
    PacketFault name e packetInfo := by
  unfold mqttEventCallback at h
  split_ifs at h with hpub
  · refine ⟨hpub, ?_⟩
    cases hinfo : packetInfo.publishInfo with
    | none =>
        simp only [hinfo, throw_eq_error, Except.error.injEq] at h
        exact .inl ⟨rfl, h.symm⟩
    | some publishInfo =>
        simp only [hinfo, map_eq_error] at h
        refine .inr ⟨publishInfo, rfl, ?_⟩
        by_cases hin : PublishInBounds publishInfo
        · obtain ⟨ht, htl, hml, hnul⟩ := hin
          rw [handleIncomingMQTTMessageOn_of_in_bounds _ _ ht htl hml hnul] at h
          split_ifs at h
          rcases otaDemo_handleIncomingMQTTMessage_eq_error hg hname (map_eq_error.mp h) with
            ⟨-, hout⟩ | hcb
          · exact absurd ⟨htl, hml⟩ hout
          · exact .inr hcb
        · rcases handleIncomingMQTTMessageOn_eq_error _ _ h with he | h
          · exact .inl ⟨he, hin⟩
          rcases otaDemo_handleIncomingMQTTMessage_eq_error hg hname h with ⟨he, -⟩ | hcb
          · exact .inl ⟨he, hin⟩
          · exact .inr hcb
  · cases h

theorem loopStep_keeps (hg : Reachable g) (hname : HoldsThingName w.globalThingName name)
    {packetInfo : IncomingPacket} {calls : List AppCall}
    (h : loopStep w g packetInfo = .ok (g', calls)) :
    Reachable g' ∧ ∀ call ∈ calls, LoopCall name call := by
  obtain ⟨⟨⟨_, events⟩, route⟩, hcb, h⟩ := map_eq_ok.mp h
  cases h
  obtain ⟨hreach, hevents⟩ := mqttEventCallback_keeps hg hname hcb
  refine ⟨hreach, fun call hcall => ?_⟩
  rcases List.mem_append.mp hcall with hcall | hcall
  · obtain ⟨ev, hev, rfl⟩ := List.mem_map.mp hcall
    exact hevents ev hev
  · obtain ⟨_, -, rfl⟩ := List.mem_map.mp hcall
    trivial

theorem processLoopCallbacks_keeps (hg : Reachable g) (hname : HoldsThingName w.globalThingName name)
    {received : List IncomingPacket} {calls : List AppCall}
    (h : processLoopCallbacks w g received = .ok (g', calls)) :
    Reachable g' ∧ ∀ call ∈ calls, LoopCall name call :=
  runSteps_inv (R := fun _ => True) (fun _ _ _ _ hs _ h => loopStep_keeps hs hname h) hg
    (fun _ _ => trivial) h

theorem processLoopCallbacks_eq_error (hg : Reachable g)
    (hname : HoldsThingName w.globalThingName name) {received : List IncomingPacket}
    (h : processLoopCallbacks w g received = .error e) :
    ∃ packetInfo ∈ received, PacketFault name e packetInfo := by
  obtain ⟨g₁, packetInfo, hg₁, hmem, herr⟩ :=
    runSteps_eq_error (fun _ _ _ _ hs h => (loopStep_keeps hs hname h).1) hg h
  exact ⟨packetInfo, hmem, mqttEventCallback_eq_error hg₁ hname (map_eq_error.mp herr)⟩

end Callbacks

/-- The process loop refines routing and the demo's handling: on packets in
bounds it routes every PUBLISH exactly once and in the order received, each by
the six bytes at its topic pointer, and routes nothing else; and the demo's
globals and events are those of the demo callbacks of the packets it is
offered, run one after the other. -/
theorem processLoopCallbacks_route (w : WrapperGlobals) (g : DemoGlobals)
    (received : List IncomingPacket) (hin : ∀ packetInfo ∈ received, InBounds packetInfo) :
    (fun r => (r.1, r.2.filterMap AppCall.demoEvent, r.2.filterMap AppCall.route)) <$>
        processLoopCallbacks w g received =
      (fun r => (r.1, r.2, received.filterMap routeOf)) <$>
        runCallbacks w.globalThingName g (received.flatMap demoCallbacks) := by
  induction received generalizing g with
  | nil => rfl
  | cons packetInfo received ih =>
      rw [List.forall_mem_cons] at hin
      have hcb := mqttEventCallback_of_in_bounds (w := w) (g := g) hin.1
      rw [List.flatMap_cons, runCallbacks, runSteps_append, ← runCallbacks]
      cases hrun : runCallbacks w.globalThingName g (demoCallbacks packetInfo) with
      | error e => rw [processLoopCallbacks, runSteps, loopStep, hcb, hrun]; rfl
      | ok r =>
          have hstep : loopStep w g packetInfo =
              .ok (r.1, r.2.map .demo ++ (routeOf packetInfo).toList.map .routed) := by
            rw [loopStep, hcb, hrun]; rfl
          have ih := ih r.1 hin.2
          rw [processLoopCallbacks, runSteps_cons_of_ok hstep, ← processLoopCallbacks, ok_bind]
          rcases hloop : processLoopCallbacks w r.1 received with e | ⟨g₂, calls⟩ <;>
            rcases hrest : runCallbacks w.globalThingName r.1 (received.flatMap demoCallbacks) with
              e' | ⟨g₂', events⟩ <;>
            simp only [hloop, hrest, map_ok, map_error, reduceCtorEq, Except.error.injEq,
              Except.ok.injEq, Prod.mk.injEq] at ih
          · rw [ih]; rfl
          · obtain ⟨rfl, rfl, hroutes⟩ := ih
            cases hroute : routeOf packetInfo <;>
              simp [List.filterMap_append, List.filterMap_map, Function.comp_def,
                AppCall.demoEvent, AppCall.route, List.filterMap_cons, hroute, hroutes]

def blockPublish (dataBlock : DataBlockInfo) : IncomingPacket :=
  ⟨0x30, some ⟨0, false, false, cLit "$aws/things/dev/streams/s/data/cbor", 35, [0xA1], 1⟩,
    ⟨[], false⟩, ⟨[.blockArrived dataBlock], true⟩⟩

/-- `PubSubTask`'s echo, its six-byte topic `"Hello"` and NUL followed by the
payload in the network buffer, goes to the `Hello` branch; a PUBACK is not
routed; and a block of a download goes to the demo's block callback. -/
theorem echo_hello_ack_and_block_route :
    (∀ packetInfo ∈ [⟨0x30, some ⟨0, false, false, helloTopic ++ helloMessage, 6, helloMessage, 12⟩,
        ⟨[], false⟩, ⟨[], false⟩⟩, ⟨0x40, none, ⟨[], false⟩, ⟨[], false⟩⟩,
        blockPublish ⟨[1, 2, 3]⟩], InBounds packetInfo) ∧
      (fun r => (r.1, r.2.filterMap AppCall.demoEvent, r.2.filterMap AppCall.route)) <$>
          processLoopCallbacks WrapperGlobals.init DemoGlobals.init
            [⟨0x30, some ⟨0, false, false, helloTopic ++ helloMessage, 6, helloMessage, 12⟩,
              ⟨[], false⟩, ⟨[], false⟩⟩, ⟨0x40, none, ⟨[], false⟩, ⟨[], false⟩⟩,
              blockPublish ⟨[1, 2, 3]⟩] =
        (fun r => (r.1, r.2, [.hello, .otaDemo true])) <$>
          runCallbacks WrapperGlobals.init.globalThingName DemoGlobals.init
            [.blockArrived ⟨[1, 2, 3]⟩] :=
  ⟨by decide, processLoopCallbacks_route _ _ _ (by decide)⟩

structure Answers where
  tlsConnected : Bool
  packetId : Nat
  mqttStatus : MqttStatus
  received : List IncomingPacket

structure AppState where
  wrapper : WrapperGlobals
  mainPc : MainPc
  pubSubPc : PubSubPc
  demo : DemoGlobals

def AppState.start (w : WrapperGlobals) : AppState := ⟨w, .tlsConnect, .subscribe, DemoGlobals.init⟩

inductive AppStep
  | mainTask (answers : Answers)
  | pubSubTask (answers : Answers)
  | connectStatus (status : MqttConnectionStatus)

/-- One statement of `mainTask`'s body; the two `assert( result )` fail when
the TLS connection or the MQTT connection is refused, and the process loop
runs `mqttEventCallback` on each packet it receives. -/
def mainTask (s : AppState) (answers : Answers) : CResult (AppState × List AppCall) :=
  match s.mainPc with
  | .tlsConnect => do
      if !answers.tlsConnected then throw .assertion
      pure ({ s with mainPc := .connect }, [.tlsConnect])
  | .connect => do
      let (result, calls) ← mqttWrapper_connect s.wrapper answers.mqttStatus
      if !result then throw .assertion
      pure ({ s with mainPc := .start }, calls.map .mqtt)
  | .start => pure ({ s with mainPc := .processLoop }, [.otaDemoStart])
  | .processLoop => do
      let _ ← mqttWrapper_getCoreMqttContext s.wrapper
      let (demo, calls) ← processLoopCallbacks s.wrapper s.demo answers.received
      pure ({ s with demo }, .processLoop :: calls)

def PubSubTask (s : AppState) (answers : Answers) : CResult (AppState × List AppCall) :=
  match s.pubSubPc with
  | .subscribe => do
      let (_, calls) ← mqttWrapper_subscribe s.wrapper helloTopic 6 answers.packetId
        answers.mqttStatus
      pure ({ s with pubSubPc := .publish }, calls.map .mqtt)
  | .publish => do
      let (_, calls) ← mqttWrapper_publish s.wrapper helloTopic 6 helloMessage 12 answers.packetId
        answers.mqttStatus
      pure ({ s with pubSubPc := .unsubscribe }, calls.map .mqtt)
  | .unsubscribe => do
      let (_, calls) ← mqttWrapper_unsubscribe s.wrapper helloTopic 6 answers.packetId
        answers.mqttStatus
      pure ({ s with pubSubPc := .subscribe }, calls.map .mqtt)

def setConnectStatus (s : AppState) (status : MqttConnectionStatus) : AppState :=
  { s with wrapper := { s.wrapper with
      globalCoreMqttContext :=
        s.wrapper.globalCoreMqttContext.map fun c => { c with connectStatus := status } } }

def appStep (s : AppState) : AppStep → CResult (AppState × List AppCall)
  | .mainTask answers => mainTask s answers
  | .pubSubTask answers => PubSubTask s answers
  | .connectStatus status => .ok (setConnectStatus s status, [])

def runApp : AppState → List AppStep → CResult (AppState × List AppCall) :=
  runSteps appStep

/-- The name `mqttWrapper_setThingName` keeps of the 129-byte buffer: its bytes
up to the first NUL, and at most `MAX_THING_NAME_SIZE` of them. -/
def storedName (thingName : CArray (maxThingNameSize + 1)) : List UInt8 :=
  (thingName.bytes.take maxThingNameSize).takeWhile (· != 0)

theorem storedName_nul_free (thingName : CArray (maxThingNameSize + 1)) :
    0 ∉ storedName thingName := fun h => by
  simpa using List.mem_takeWhile_imp h

theorem storedName_length_le (thingName : CArray (maxThingNameSize + 1)) :
    (storedName thingName).length ≤ maxThingNameSize :=
  calc (storedName thingName).length ≤ (thingName.bytes.take maxThingNameSize).length :=
        (List.takeWhile_prefix _).length_le
    _ ≤ maxThingNameSize := List.length_take_le _ _

/-- `app_main` never faults once `MQTT_Init` succeeds: the wrapper points at the
context, and `strncpy` reads at most 128 of the buffer's 129 bytes and keeps
the name up to its first NUL, padded with NULs to the end of the array. -/
theorem app_main_ok (thingName : CArray (maxThingNameSize + 1)) :
    ∃ w, app_main .success thingName = .ok w ∧ w.globalCoreMqttContext = some ⟨.notConnected⟩ ∧
      w.globalThingName.bytes = storedName thingName ++
        List.replicate (maxThingNameSize + 1 - (storedName thingName).length) 0 := by
  have hname := storedName_length_le thingName
  set stored := storedName thingName ++
    List.replicate (maxThingNameSize - (storedName thingName).length) 0 with hstored
  have hlen : stored.length = maxThingNameSize := by
    rw [hstored, List.length_append, List.length_replicate]
    omega
  have hcopy : strncpyBytes thingName.bytes maxThingNameSize = .ok stored :=
    strncpyBytes_of_le_length (by rw [thingName.length_bytes]; omega)
  have hmemcpy := memcpy_of_take_eq (CArray.zero (maxThingNameSize + 1)) 0
    (List.take_of_length_le hlen.le) hlen (by omega)
  refine ⟨⟨some ⟨.notConnected⟩, (CArray.zero _).overwrite 0 stored (by omega)⟩, ?_, rfl, ?_⟩
  · simp only [app_main, ne_eq, not_true_eq_false, if_false, pure_eq_ok, ok_bind,
      mqttWrapper_setCoreMqttContext, WrapperGlobals.init, mqttWrapper_setThingName, strncpy,
      hcopy, hmemcpy]
  · rw [CArray.zero_overwrite_bytes, hlen, hstored, List.append_assoc, ← List.replicate_add]
    congr 2
    omega

structure Ready (w : WrapperGlobals) (name : List UInt8) : Prop where
  context : ∃ c, w.globalCoreMqttContext = some c
  holds : HoldsThingName w.globalThingName name

theorem ready_app_main {thingName : CArray (maxThingNameSize + 1)} {w : WrapperGlobals}
    (hctx : w.globalCoreMqttContext = some ⟨.notConnected⟩)
    (hbytes : w.globalThingName.bytes = storedName thingName ++
      List.replicate (maxThingNameSize + 1 - (storedName thingName).length) 0) :
    Ready w (storedName thingName) := by
  refine ⟨⟨_, hctx⟩, storedName_nul_free thingName,
    ⟨List.replicate (maxThingNameSize - (storedName thingName).length) 0, ?_⟩⟩
  have := storedName_length_le thingName
  rw [hbytes, ← List.replicate_succ, show maxThingNameSize + 1 - (storedName thingName).length =
    maxThingNameSize - (storedName thingName).length + 1 by omega]

/-- The invariant of the system from `app_main` on: the wrapper is ready with
the name `name` stored, and the demo's globals are reachable. -/
structure AppInv (name : List UInt8) (s : AppState) : Prop where
  ready : Ready s.wrapper name
  demo : Reachable s.demo

def PubSubPc.next : PubSubPc → PubSubPc
  | .subscribe => .publish
  | .publish => .unsubscribe
  | .unsubscribe => .subscribe

def pubSubPacket : PubSubPc → Nat → MqttCall
  | .subscribe, packetId => .subscribe [⟨0, helloTopic, 6⟩] packetId
  | .publish, packetId => .publish ⟨0, false, false, helloTopic, 6, helloMessage, 12⟩ packetId
  | .unsubscribe, packetId => .unsubscribe [⟨0, helloTopic, 6⟩] packetId

def MainPc.next : MainPc → MainPc
  | .tlsConnect => .connect
  | .connect => .start
  | .start | .processLoop => .processLoop

def mainTaskCalls (w : WrapperGlobals) (name : List UInt8) (loopCalls : List AppCall) :
    MainPc → List AppCall
  | .tlsConnect => [.tlsConnect]
  | .connect =>
      [.mqtt (.connect ⟨w.globalThingName.bytes, name.length, none, 0, none, 0, 60, true⟩ 5000)]
  | .start => [.otaDemoStart]
  | .processLoop => .processLoop :: loopCalls

def AppCall.isConnect : AppCall → Bool
  | .mqtt (.connect ..) => true
  | _ => false

theorem LoopCall.quiet {name : List UInt8} {call : AppCall} (h : LoopCall name call) :
    call.sendsPacket = false ∧ call.isConnect = false := by
  cases call <;> first | exact ⟨rfl, rfl⟩ | cases h

section Steps

variable {s s' : AppState} {answers : Answers} {calls : List AppCall} {name : List UInt8}
  {c : MqttContext}

theorem PubSubTask_eq (hctx : s.wrapper.globalCoreMqttContext = some c) :
    PubSubTask s answers = .ok ({ s with pubSubPc := s.pubSubPc.next },
      if c.connectStatus = .connected then
        [.mqtt .getPacketId, .mqtt (pubSubPacket s.pubSubPc answers.packetId)]
      else []) := by
  unfold PubSubTask
  split <;>
  · rename_i hpc
    simp only [mqttWrapper_subscribe, mqttWrapper_publish, mqttWrapper_unsubscribe_eq,
      callIfConnected_of_some hctx, hpc, PubSubPc.next, pubSubPacket]
    split <;> rfl

theorem mainTask_of_ok (hi : AppInv name s) (h : mainTask s answers = .ok (s', calls)) :
    ∃ demo loopCalls, s' = { s with mainPc := s.mainPc.next, demo } ∧ Reachable demo ∧
      (∀ call ∈ loopCalls, LoopCall name call) ∧
      calls = mainTaskCalls s.wrapper name loopCalls s.mainPc := by
  obtain ⟨w, pc, pubSubPc, demo⟩ := s
  obtain ⟨⟨⟨c, hctx⟩, hname, rest, hbytes⟩, hdemo⟩ := hi
  unfold mainTask at h
  cases pc with
  | tlsConnect =>
      cases ht : answers.tlsConnected <;>
        simp only [ht, Bool.not_false, Bool.not_true, if_true, if_false, throw_eq_error,
          error_bind, pure_eq_ok, ok_bind, reduceCtorEq, Except.ok.injEq, Prod.mk.injEq] at h
      obtain ⟨rfl, rfl⟩ := h
      exact ⟨demo, [], rfl, hdemo, nofun, rfl⟩
  | connect =>
      rw [mqttWrapper_connect_of_some hctx hname hbytes, ok_bind] at h
      cases hs : decide (answers.mqttStatus = .success) <;>
        simp only [hs, Bool.not_false, Bool.not_true, if_true, if_false, throw_eq_error,
          error_bind, pure_eq_ok, ok_bind, reduceCtorEq, Except.ok.injEq, Prod.mk.injEq,
          List.map_cons, List.map_nil] at h
      obtain ⟨rfl, rfl⟩ := h
      exact ⟨demo, [], rfl, hdemo, nofun, rfl⟩
  | start =>
      simp only [pure_eq_ok, Except.ok.injEq, Prod.mk.injEq] at h
      obtain ⟨rfl, rfl⟩ := h
      exact ⟨demo, [], rfl, hdemo, nofun, rfl⟩
  | processLoop =>
      simp only [mqttWrapper_getCoreMqttContext, assertContext_some hctx, ok_bind] at h
      obtain ⟨⟨demo', loopCalls⟩, hloop, h⟩ := bind_eq_ok.mp h
      simp only [pure_eq_ok, Except.ok.injEq, Prod.mk.injEq] at h
      obtain ⟨rfl, rfl⟩ := h
      obtain ⟨hdemo', hcalls⟩ := processLoopCallbacks_keeps hdemo ⟨hname, rest, hbytes⟩ hloop
      exact ⟨demo', loopCalls, rfl, hdemo', hcalls, rfl⟩

theorem mainTask_eq_error (hi : AppInv name s) {e : Fault} (h : mainTask s answers = .error e) :
    e = .assertion ∧ (answers.tlsConnected = false ∨ answers.mqttStatus ≠ .success) ∨
      ∃ packetInfo ∈ answers.received, PacketFault name e packetInfo := by
  obtain ⟨⟨⟨c, hctx⟩, hname, rest, hbytes⟩, hdemo⟩ := hi
  unfold mainTask at h
  split at h
  · cases ht : answers.tlsConnected <;>
      simp only [ht, Bool.not_false, Bool.not_true, if_true, if_false, throw_eq_error, error_bind,
        pure_eq_ok, ok_bind, reduceCtorEq, Except.error.injEq] at h
    exact .inl ⟨h.symm, .inl rfl⟩
  · rw [mqttWrapper_connect_of_some hctx hname hbytes, ok_bind] at h
    by_cases hs : answers.mqttStatus = .success
    · simp [hs] at h
    · simp [hs] at h
      exact .inl ⟨h.symm, .inr hs⟩
  · cases h
  · simp only [mqttWrapper_getCoreMqttContext, assertContext_some hctx, ok_bind] at h
    rcases bind_eq_error.mp h with h | ⟨_, -, h⟩
    · exact .inr (processLoopCallbacks_eq_error hdemo ⟨hname, rest, hbytes⟩ h)
    · cases h

end Steps

def MainPc.connectsLeft : MainPc → Nat
  | .tlsConnect | .connect => 1
  | .start | .processLoop => 0

def Disconnected (w : WrapperGlobals) : Prop :=
  ∀ c, w.globalCoreMqttContext = some c → c.connectStatus ≠ .connected

section System

variable {s s' : AppState} {st : AppStep} {calls : List AppCall} {name : List UInt8}

theorem appStep_of_ok (hi : AppInv name s) (h : appStep s st = .ok (s', calls)) :
    (∃ answers demo loopCalls, st = .mainTask answers ∧
        s' = { s with mainPc := s.mainPc.next, demo } ∧ Reachable demo ∧
        (∀ call ∈ loopCalls, LoopCall name call) ∧
        calls = mainTaskCalls s.wrapper name loopCalls s.mainPc) ∨
      (∃ answers c, st = .pubSubTask answers ∧ s.wrapper.globalCoreMqttContext = some c ∧
        s' = { s with pubSubPc := s.pubSubPc.next } ∧
        calls = if c.connectStatus = .connected then
          [.mqtt .getPacketId, .mqtt (pubSubPacket s.pubSubPc answers.packetId)] else []) ∨
      (∃ status, st = .connectStatus status ∧ s' = setConnectStatus s status ∧ calls = []) := by
  cases st with
  | mainTask answers =>
      obtain ⟨demo, loopCalls, hs', hdemo, hloop, hcalls⟩ := mainTask_of_ok hi h
      exact .inl ⟨answers, demo, loopCalls, rfl, hs', hdemo, hloop, hcalls⟩
  | pubSubTask answers =>
      obtain ⟨c, hctx⟩ := hi.ready.context
      rw [appStep, PubSubTask_eq hctx, Except.ok.injEq, Prod.mk.injEq] at h
      exact .inr (.inl ⟨answers, c, rfl, hctx, h.1.symm, h.2.symm⟩)
  | connectStatus status =>
      simp only [appStep, Except.ok.injEq, Prod.mk.injEq] at h
      exact .inr (.inr ⟨status, rfl, h.1.symm, h.2.symm⟩)

theorem appStep_keeps (hi : AppInv name s) (h : appStep s st = .ok (s', calls)) :
    AppInv name s' ∧ ∀ call ∈ calls, ∀ ev, call = .demo ev → InitsWithName name ev := by
  obtain ⟨⟨c, hctx⟩, hholds⟩ := hi.ready
  rcases appStep_of_ok hi h with
    ⟨_, demo, loopCalls, _, rfl, hdemo, hloop, rfl⟩ | ⟨_, _, _, _, rfl, rfl⟩ |
      ⟨status, _, rfl, rfl⟩
  · refine ⟨⟨hi.ready, hdemo⟩, fun call hcall ev hev => ?_⟩
    subst hev
    cases hpc : s.mainPc <;>
      simp only [mainTaskCalls, hpc, List.mem_cons, List.mem_singleton, reduceCtorEq, false_or,
        List.not_mem_nil] at hcall
    exact hloop _ hcall
  · refine ⟨⟨hi.ready, hi.demo⟩, fun call hcall ev hev => ?_⟩
    subst hev
    split at hcall <;> simp at hcall
  · exact ⟨⟨⟨⟨{ c with connectStatus := status }, by simp [setConnectStatus, hctx]⟩, hholds⟩,
      hi.demo⟩, nofun⟩

theorem appStep_eq_error (hi : AppInv name s) {e : Fault} (h : appStep s st = .error e) :
    ∃ answers, st = .mainTask answers ∧
      (e = .assertion ∧ (answers.tlsConnected = false ∨ answers.mqttStatus ≠ .success) ∨
        ∃ packetInfo ∈ answers.received, PacketFault name e packetInfo) := by
  cases st with
  | mainTask answers => exact ⟨answers, rfl, mainTask_eq_error hi h⟩
  | pubSubTask answers =>
      obtain ⟨c, hctx⟩ := hi.ready.context
      rw [appStep, PubSubTask_eq hctx] at h
      cases h
  | connectStatus status => cases h

theorem appStep_disconnected (hi : AppInv name s) (hdis : Disconnected s.wrapper)
    (hst : st ≠ .connectStatus .connected) (h : appStep s st = .ok (s', calls)) :
    Disconnected s'.wrapper ∧ ∀ call ∈ calls, call.sendsPacket = false := by
  rcases appStep_of_ok hi h with
    ⟨_, _, _, _, rfl, -, hloop, rfl⟩ | ⟨_, c, _, hctx, rfl, rfl⟩ | ⟨status, rfl, rfl, rfl⟩
  · refine ⟨hdis, ?_⟩
    cases s.mainPc
    case processLoop =>
      exact List.forall_mem_cons.mpr ⟨rfl, fun call hcall => (hloop call hcall).quiet.1⟩
    all_goals simp [mainTaskCalls, AppCall.sendsPacket, MqttCall.sendsPacket]
  · exact ⟨hdis, by simp [hdis c hctx]⟩
  · refine ⟨fun c hc => ?_, nofun⟩
    simp only [setConnectStatus, Option.map_eq_some'] at hc
    obtain ⟨_, -, rfl⟩ := hc
    exact fun h => hst (by rw [← h])

theorem appStep_connect (hi : AppInv name s) (h : appStep s st = .ok (s', calls)) :
    AppInv name s' ∧
      calls.countP AppCall.isConnect + s'.mainPc.connectsLeft ≤ s.mainPc.connectsLeft ∧
      ∀ call ∈ calls, ∀ connectInfo timeoutMs, call = .mqtt (.connect connectInfo timeoutMs) →
        connectInfo.clientIdentifier.take connectInfo.clientIdentifierLength = name ∧
          connectInfo.clientIdentifierLength = name.length := by
  refine ⟨(appStep_keeps hi h).1, ?_⟩
  obtain ⟨rest, hbytes⟩ := hi.ready.holds.2
  rcases appStep_of_ok hi h with
    ⟨_, _, loopCalls, _, rfl, -, hloop, rfl⟩ | ⟨_, _, _, -, rfl, rfl⟩ | ⟨_, rfl, rfl, rfl⟩
  · cases hpc : s.mainPc
    case processLoop =>
      have hquiet : ∀ call ∈ AppCall.processLoop :: loopCalls, call.isConnect = false :=
        List.forall_mem_cons.mpr ⟨rfl, fun call hcall => (hloop call hcall).quiet.2⟩
      have hcount : (AppCall.processLoop :: loopCalls).countP AppCall.isConnect = 0 :=
        List.countP_eq_zero.mpr fun call hcall => by simp [hquiet call hcall]
      refine ⟨by simp only [mainTaskCalls, MainPc.next, MainPc.connectsLeft, hpc, hcount,
        Nat.add_zero, le_refl], fun call hcall connectInfo timeoutMs hc => ?_⟩
      have := hquiet call hcall
      simp [hc, AppCall.isConnect] at this
    all_goals
      simp [mainTaskCalls, MainPc.next, MainPc.connectsLeft, AppCall.isConnect, hpc, hbytes]
  · split <;> cases s.pubSubPc <;> simp [pubSubPacket, AppCall.isConnect]
  · simp [setConnectStatus]

end System

/-- From the state `app_main` leaves, whatever the thing name, however
`mainTask`, `PubSubTask` and coreMQTT's status changes interleave, and whatever
the port layer, coreMQTT, the broker and the libraries answer, every fault is
in a step of `mainTask`: one of its asserts on a refused TLS or MQTT
connection, or a callback of its process loop on a received PUBLISH: the
assert on a `NULL` publish info, a read past the memory the router or the
demo's `printf` is handed, the demo's capacity assert on a block, its
`strncpy` of a start-next job id, or the thing-name assert when the stored
name is empty. -/
theorem app_faults_only_on_connect_or_publish (thingName : CArray (maxThingNameSize + 1)) :
    ∃ w, app_main .success thingName = .ok w ∧
      ∀ steps e, runApp (.start w) steps = .error e →
        ∃ answers, .mainTask answers ∈ steps ∧
          (e = .assertion ∧ (answers.tlsConnected = false ∨ answers.mqttStatus ≠ .success) ∨
            ∃ packetInfo ∈ answers.received, PacketFault (storedName thingName) e packetInfo) := by
  obtain ⟨w, hmain, hctx, hbytes⟩ := app_main_ok thingName
  refine ⟨w, hmain, fun steps e hrun => ?_⟩
  obtain ⟨s, st, hi, hmem, herr⟩ := runSteps_eq_error (P := AppInv (storedName thingName))
    (fun _ _ _ _ hi h => (appStep_keeps hi h).1) ⟨ready_app_main hctx hbytes, .init⟩ hrun
  obtain ⟨answers, rfl, hfault⟩ := appStep_eq_error hi herr
  exact ⟨answers, hmem, hfault⟩

/-- The wrapper never sends a packet before coreMQTT reports a connection: in
every run from the state `app_main` leaves in which coreMQTT never sets the
context to connected, neither task sends a SUBSCRIBE, PUBLISH or UNSUBSCRIBE,
though `PubSubTask` keeps calling the wrapper. -/
theorem app_sends_no_packet_until_connected (thingName : CArray (maxThingNameSize + 1)) :
    ∃ w, app_main .success thingName = .ok w ∧
      ∀ steps s' calls, runApp (.start w) steps = .ok (s', calls) →
        (∀ st ∈ steps, st ≠ .connectStatus .connected) →
          ∀ call ∈ calls, call.sendsPacket = false := by
  obtain ⟨w, hmain, hctx, hbytes⟩ := app_main_ok thingName
  refine ⟨w, hmain, fun steps s' calls hrun hsteps => ?_⟩
  refine (runSteps_inv
    (P := fun s : AppState => AppInv (storedName thingName) s ∧ Disconnected s.wrapper)
    (R := fun st : AppStep => st ≠ .connectStatus .connected)
    (fun _ _ _ _ hs hst h =>
      ⟨⟨(appStep_keeps hs.1 h).1, (appStep_disconnected hs.1 hs.2 hst h).1⟩,
        (appStep_disconnected hs.1 hs.2 hst h).2⟩)
    ⟨⟨ready_app_main hctx hbytes, .init⟩, ?_⟩ hsteps hrun).2
  intro c hc
  rw [AppState.start, hctx, Option.some.injEq] at hc
  rw [← hc]
  exact nofun

def devName : CArray (maxThingNameSize + 1) :=
  (CArray.zero (maxThingNameSize + 1)).overwrite 0 (lit "dev") (by decide)

theorem pubSub_then_connect_sends_nothing :
    ∃ w s' calls, app_main .success devName = .ok w ∧
      runApp (.start w) [.pubSubTask ⟨true, 1, .success, []⟩, .pubSubTask ⟨true, 2, .success, []⟩,
        .mainTask ⟨true, 3, .success, []⟩, .mainTask ⟨true, 4, .success, []⟩] = .ok (s', calls) ∧
      calls = [.tlsConnect, .mqtt (.connect ⟨w.globalThingName.bytes, (storedName devName).length,
        none, 0, none, 0, 60, true⟩ 5000)] ∧
      ∀ call ∈ calls, call.sendsPacket = false := by
  obtain ⟨w, hmain, hctx, hbytes⟩ := app_main_ok devName
  obtain ⟨hname, rest, hrest⟩ := (ready_app_main hctx hbytes).holds
  obtain ⟨w', hmain', hsend⟩ := app_sends_no_packet_until_connected devName
  cases hmain.symm.trans hmain'
  have hpub : ∀ pc answers, appStep ⟨w, .tlsConnect, pc, DemoGlobals.init⟩ (.pubSubTask answers) =
      .ok (⟨w, .tlsConnect, pc.next, DemoGlobals.init⟩, []) := fun pc answers => by
    rw [appStep, PubSubTask_eq hctx]
    rfl
  have htls : appStep ⟨w, .tlsConnect, .unsubscribe, DemoGlobals.init⟩
      (.mainTask ⟨true, 3, .success, []⟩) =
        .ok (⟨w, .connect, .unsubscribe, DemoGlobals.init⟩, [.tlsConnect]) := rfl
  have hconnect : appStep ⟨w, .connect, .unsubscribe, DemoGlobals.init⟩
      (.mainTask ⟨true, 4, .success, []⟩) =
        .ok (⟨w, .start, .unsubscribe, DemoGlobals.init⟩, [.mqtt (.connect ⟨w.globalThingName.bytes,
          (storedName devName).length, none, 0, none, 0, 60, true⟩ 5000)]) := by
    rw [appStep, mainTask]
    simp only [mqttWrapper_connect_of_some hctx hname hrest, ok_bind]
    rfl
  have hrun := (runSteps_cons_of_ok (hpub .subscribe ⟨true, 1, .success, []⟩) _).trans <|
    congrArg _ <| (runSteps_cons_of_ok (hpub .publish ⟨true, 2, .success, []⟩) _).trans <|
    congrArg _ <| (runSteps_cons_of_ok htls _).trans <|
    congrArg _ <| runSteps_cons_of_ok hconnect []
  exact ⟨w, _, _, hmain, hrun, rfl, hsend _ _ _ hrun (by simp)⟩

/-- `mainTask` calls `MQTT_Connect` at most once in any run, never
reconnecting, and always with the thing name `app_main` stored, as the
client identifier and its length. -/
theorem app_connects_once_with_stored_name (thingName : CArray (maxThingNameSize + 1)) :
    ∃ w, app_main .success thingName = .ok w ∧
      ∀ steps s' calls, runApp (.start w) steps = .ok (s', calls) →
        calls.countP AppCall.isConnect ≤ 1 ∧
          ∀ connectInfo timeoutMs, .mqtt (.connect connectInfo timeoutMs) ∈ calls →
            connectInfo.clientIdentifier.take connectInfo.clientIdentifierLength =
                storedName thingName ∧
              connectInfo.clientIdentifierLength = (storedName thingName).length := by
  obtain ⟨w, hmain, hctx, hbytes⟩ := app_main_ok thingName
  have hinit : AppInv (storedName thingName) (.start w) := ⟨ready_app_main hctx hbytes, .init⟩
  refine ⟨w, hmain, fun steps s' calls hrun => ⟨?_, fun connectInfo timeoutMs hmem => ?_⟩⟩
  · exact Nat.le_of_add_right_le (runSteps_countP_le (φ := fun s => s.mainPc.connectsLeft)
      (fun _ _ _ _ hs h => ⟨(appStep_connect hs h).1, (appStep_connect hs h).2.1⟩) hinit hrun)
  · exact (runSteps_inv (R := fun _ => True)
      (Q := fun call : AppCall => ∀ connectInfo timeoutMs,
        call = .mqtt (.connect connectInfo timeoutMs) →
          connectInfo.clientIdentifier.take connectInfo.clientIdentifierLength =
            storedName thingName ∧ connectInfo.clientIdentifierLength = (storedName thingName).length)
      (fun _ _ _ _ hs _ h => ⟨(appStep_connect hs h).1, (appStep_connect hs h).2.2⟩)
      hinit (fun _ _ => trivial) hrun).2 _ hmem connectInfo timeoutMs rfl

/-- The application drives the demo only through reachable states: in every
run from the state `app_main` leaves, however the tasks interleave and whatever
the libraries hand the demo, the demo's globals stay reachable by its own
handlers, and every download the demo starts hands the file downloader the
thing name `app_main` stored. -/
theorem app_demo_reachable_with_stored_name (thingName : CArray (maxThingNameSize + 1)) :
    ∃ w, app_main .success thingName = .ok w ∧
      ∀ steps s' calls, runApp (.start w) steps = .ok (s', calls) →
        Reachable s'.demo ∧ ∀ ev, .demo ev ∈ calls → InitsWithName (storedName thingName) ev := by
  obtain ⟨w, hmain, hctx, hbytes⟩ := app_main_ok thingName
  refine ⟨w, hmain, fun steps s' calls hrun => ?_⟩
  obtain ⟨hi, hcalls⟩ := runSteps_inv (R := fun _ => True)
    (fun _ _ _ _ hs _ h => appStep_keeps hs h) (⟨ready_app_main hctx hbytes, .init⟩ :
      AppInv (storedName thingName) (.start w)) (fun _ _ => trivial) hrun
  exact ⟨hi.demo, fun ev hev => hcalls _ hev ev rfl⟩

end OtaJobs.AppTasks
