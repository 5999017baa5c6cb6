import OtaJobs.TopicMatching

namespace OtaJobs.MqttWrapper

open OtaJobs.CMemory
open OtaJobs.TopicMatching

/-- `MQTTConnectionStatus_t`; the wrapper only compares it with
`MQTTConnected`, so the other values are one, `notConnected`. -/
inductive MqttConnectionStatus
  | notConnected
  | connected
  deriving DecidableEq, Repr

/-- `MQTTStatus_t`; the wrapper only compares it with `MQTTSuccess`, so the
other values are one, `failure`. -/
inductive MqttStatus
  | success
  | failure
  deriving DecidableEq, Repr

structure MqttContext where
  connectStatus : MqttConnectionStatus
  deriving DecidableEq, Repr

/-- `MQTTConnectInfo_t` as `mqttWrapper_connect` fills it; `clientIdentifier`
is the memory `pClientIdentifier` points to. -/
structure ConnectInfo where
  clientIdentifier : List UInt8
  clientIdentifierLength : Nat
  userName : Option (List UInt8)
  userNameLength : Nat
  password : Option (List UInt8)
  passwordLength : Nat
  keepAliveSeconds : Nat
  cleanSession : Bool
  deriving DecidableEq, Repr

structure PublishInfo where
  qos : Nat
  retain : Bool
  dup : Bool
  topicName : List UInt8
  topicNameLength : Nat
  payload : List UInt8
  payloadLength : Nat
  deriving DecidableEq, Repr

structure SubscribeInfo where
  qos : Nat
  topicFilter : List UInt8
  topicFilterLength : Nat
  deriving DecidableEq, Repr

inductive MqttCall
  | connect (connectInfo : ConnectInfo) (timeoutMs : Nat)
  | getPacketId
  | publish (publishInfo : PublishInfo) (packetId : Nat)
  | subscribe (subscriptionList : List SubscribeInfo) (packetId : Nat)
  | unsubscribe (subscriptionList : List SubscribeInfo) (packetId : Nat)
  deriving DecidableEq, Repr

def MqttCall.sendsPacket : MqttCall → Bool
  | .publish .. | .subscribe .. | .unsubscribe .. => true
  | _ => false

/-- The globals of `mqtt_wrapper.c`: the context pointer (`none` for `NULL`,
otherwise the context it points to) and the stored thing name. -/
structure WrapperGlobals where
  globalCoreMqttContext : Option MqttContext
  globalThingName : CArray (maxThingNameSize + 1)

def WrapperGlobals.init : WrapperGlobals := ⟨none, CArray.zero (maxThingNameSize + 1)⟩

def mqttWrapper_setCoreMqttContext (w : WrapperGlobals) (mqttContext : Option MqttContext) :
    WrapperGlobals :=
  { w with globalCoreMqttContext := mqttContext }

def assertContext (w : WrapperGlobals) : CResult MqttContext :=
  match w.globalCoreMqttContext with
  | none => throw .assertion
  | some mqttContext => pure mqttContext

def mqttWrapper_getCoreMqttContext (w : WrapperGlobals) : CResult MqttContext :=
  assertContext w

def mqttWrapper_isConnected (w : WrapperGlobals) : CResult Bool := do
  let mqttContext ← assertContext w
  pure (mqttContext.connectStatus = .connected)

/-- `mqttWrapper_connect`; `mqttStatus` is what `MQTT_Connect` returns. -/
def mqttWrapper_connect (w : WrapperGlobals) (mqttStatus : MqttStatus) :
    CResult (Bool × List MqttCall) := do
  let _ ← assertContext w
  let clientIdentifierLength ← strlen w.globalThingName.bytes
  let connectInfo : ConnectInfo :=
    ⟨w.globalThingName.bytes, clientIdentifierLength, none, 0, none, 0, 60, true⟩
  pure (mqttStatus = .success, [.connect connectInfo 5000])

/-- The body `mqttWrapper_publish` and `mqttWrapper_subscribe` share: assert
the context, ask whether it is connected, and only then make the coreMQTT
calls, the last of which returns `mqttStatus`. -/
def callIfConnected (w : WrapperGlobals) (calls : List MqttCall) (mqttStatus : MqttStatus) :
    CResult (Bool × List MqttCall) := do
  let _ ← assertContext w
  let success ← mqttWrapper_isConnected w
  if success then pure (mqttStatus = .success, calls) else pure (false, [])

/-- `mqttWrapper_publish`; `packetId` is what `MQTT_GetPacketId` returns and
`mqttStatus` what `MQTT_Publish` returns. -/
def mqttWrapper_publish (w : WrapperGlobals) (topic : List UInt8) (topicLength : Nat)
    (message : List UInt8) (messageLength : Nat) (packetId : Nat) (mqttStatus : MqttStatus) :
    CResult (Bool × List MqttCall) :=
  callIfConnected w
    [.getPacketId, .publish ⟨0, false, false, topic, topicLength, message, messageLength⟩ packetId]
    mqttStatus

def mqttWrapper_subscribe (w : WrapperGlobals) (topic : List UInt8) (topicLength : Nat)
    (packetId : Nat) (mqttStatus : MqttStatus) : CResult (Bool × List MqttCall) :=
  callIfConnected w [.getPacketId, .subscribe [⟨0, topic, topicLength⟩] packetId] mqttStatus

/-- `mqttWrapper_unsubscribe` asserts nothing itself, and fetches the context
through `mqttWrapper_getCoreMqttContext` once it knows it is connected. -/
def mqttWrapper_unsubscribe (w : WrapperGlobals) (topic : List UInt8) (topicLength : Nat)
    (packetId : Nat) (mqttStatus : MqttStatus) : CResult (Bool × List MqttCall) := do
  let success ← mqttWrapper_isConnected w
  if success then
    let _ ← mqttWrapper_getCoreMqttContext w
    pure (mqttStatus = .success, [.getPacketId, .unsubscribe [⟨0, topic, topicLength⟩] packetId])
  else pure (false, [])

section Context

variable {w : WrapperGlobals}

@[simp] theorem assertContext_some {mqttContext : MqttContext}
    (h : w.globalCoreMqttContext = some mqttContext) : assertContext w = .ok mqttContext := by
  simp [assertContext, h]

@[simp] theorem assertContext_none (h : w.globalCoreMqttContext = none) :
    assertContext w = .error .assertion := by
  simp [assertContext, h]

theorem callIfConnected_of_some {mqttContext : MqttContext}
    (h : w.globalCoreMqttContext = some mqttContext) (calls : List MqttCall)
    (mqttStatus : MqttStatus) :
    callIfConnected w calls mqttStatus =
      if mqttContext.connectStatus = .connected then .ok (mqttStatus = .success, calls)
      else .ok (false, []) := by
  by_cases hc : mqttContext.connectStatus = .connected <;>
    simp [callIfConnected, mqttWrapper_isConnected, h, hc]

theorem callIfConnected_of_none (h : w.globalCoreMqttContext = none) (calls : List MqttCall)
    (mqttStatus : MqttStatus) : callIfConnected w calls mqttStatus = .error .assertion := by
  simp [callIfConnected, h]

/-- The missing assertion of `mqttWrapper_unsubscribe` changes nothing:
`mqttWrapper_isConnected` makes the same one first, and the second fetch of the
context cannot fail after it, so the function is the shared body. -/
theorem mqttWrapper_unsubscribe_eq (topic : List UInt8) (topicLength packetId : Nat)
    (mqttStatus : MqttStatus) :
    mqttWrapper_unsubscribe w topic topicLength packetId mqttStatus =
      callIfConnected w [.getPacketId, .unsubscribe [⟨0, topic, topicLength⟩] packetId]
        mqttStatus := by
  cases h : w.globalCoreMqttContext with
  | none => simp [mqttWrapper_unsubscribe, mqttWrapper_isConnected, callIfConnected_of_none h, h]
  | some mqttContext =>
      rw [callIfConnected_of_some h]
      by_cases hc : mqttContext.connectStatus = .connected <;>
        simp [mqttWrapper_unsubscribe, mqttWrapper_isConnected, mqttWrapper_getCoreMqttContext,
          h, hc]

end Context

theorem mqttWrapper_connect_of_some {w : WrapperGlobals} {mqttContext : MqttContext}
    (h : w.globalCoreMqttContext = some mqttContext) {name rest : List UInt8} (hname : 0 ∉ name)
    (hbytes : w.globalThingName.bytes = name ++ 0 :: rest) (mqttStatus : MqttStatus) :
    mqttWrapper_connect w mqttStatus =
      .ok (mqttStatus = .success,
        [.connect ⟨w.globalThingName.bytes, name.length, none, 0, none, 0, 60, true⟩ 5000]) := by
  simp only [mqttWrapper_connect, assertContext_some h, ok_bind]
  rw [hbytes, strlen_append_nul hname, ok_bind, pure_eq_ok]

end OtaJobs.MqttWrapper
