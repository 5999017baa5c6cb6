import OtaJobs.CMemory

namespace OtaJobs.Main

open OtaJobs.CMemory

/-- Where `handleIncomingMQTTMessage` sends a publish: to the `Hello` branch,
which prints the message with `%s`, or to `otaDemo_handleIncomingMQTTMessage`,
with what it returned (when `false`, the topic and message are printed with
`%.*s`). -/
inductive Route
  | hello
  | otaDemo (handled : Bool)
  deriving DecidableEq, Repr

/-- `handleIncomingMQTTMessage`. `topic` and `message` are the bytes readable
from the two pointers on, to the end of the network buffer; the publish's topic
and payload are their first `topicLength` and `messageLength` bytes.
`otaDemoHandled` is what `otaDemo_handleIncomingMQTTMessage` returns. -/
def handleIncomingMQTTMessage (otaDemoHandled : Bool) (topic : List UInt8) (topicLength : Nat)
    (message : List UInt8) (messageLength : Nat) : CResult Route :=
  strcmp (cLit "Hello") topic >>= fun cmp =>
    if cmp = 0 then cString message >>= fun _ => pure .hello
    else if otaDemoHandled then pure (.otaDemo true)
    else
      strnlen topic topicLength >>= fun _ =>
        strnlen message messageLength >>= fun _ => pure (.otaDemo false)

/-- `handleIncomingMQTTMessage` around the demo's handler: `otaDemo` is what the
call of `otaDemo_handleIncomingMQTTMessage` gives, a result and whether the
message was handled, and `unchanged` the result when the demo is not called. -/
def handleIncomingMQTTMessageOn {α : Type} (unchanged : α) (otaDemo : CResult (α × Bool))
    (topic : List UInt8) (topicLength : Nat) (message : List UInt8) (messageLength : Nat) :
    CResult (α × Route) :=
  strcmp (cLit "Hello") topic >>= fun cmp =>
    if cmp = 0 then cString message >>= fun _ => pure (unchanged, .hello)
    else
      otaDemo >>= fun (a, messageHandled) =>
        if messageHandled then pure (a, .otaDemo true)
        else
          strnlen topic topicLength >>= fun _ =>
            strnlen message messageLength >>= fun _ => pure (a, .otaDemo false)

theorem handleIncomingMQTTMessage_eq_on (otaDemoHandled : Bool) (topic : List UInt8)
    (topicLength : Nat) (message : List UInt8) (messageLength : Nat) :
    handleIncomingMQTTMessage otaDemoHandled topic topicLength message messageLength =
      Prod.snd <$> handleIncomingMQTTMessageOn () (.ok ((), otaDemoHandled)) topic topicLength
        message messageLength := by
  unfold handleIncomingMQTTMessage handleIncomingMQTTMessageOn
  cases strcmp (cLit "Hello") topic with
  | error e => rfl
  | ok cmp =>
      simp only [ok_bind]
      split
      · cases cString message <;> rfl
      · cases otaDemoHandled
        · cases strnlen topic topicLength <;> simp
        · rfl

section On

variable {α : Type} (unchanged : α) (otaDemo : CResult (α × Bool)) {topic message : List UInt8}
  {topicLength messageLength : Nat}

theorem handleIncomingMQTTMessageOn_of_six_bytes (ht : 6 ≤ topic.length) :
    handleIncomingMQTTMessageOn unchanged otaDemo topic topicLength message messageLength =
      if topic.take 6 = cLit "Hello" then cString message >>= fun _ => pure (unchanged, .hello)
      else
        otaDemo >>= fun (a, messageHandled) =>
          if messageHandled then pure (a, .otaDemo true)
          else
            strnlen topic topicLength >>= fun _ =>
              strnlen message messageLength >>= fun _ => pure (a, .otaDemo false) := by
  obtain ⟨cmp, hcmp, hiff⟩ : ∃ cmp, strcmp (cLit "Hello") topic = .ok cmp ∧
      (cmp = 0 ↔ topic.take 6 = cLit "Hello") :=
    strcmp_append_nul (s := lit "Hello") (by decide) (by simpa [lit] using ht)
  rw [handleIncomingMQTTMessageOn, hcmp, ok_bind]
  exact if_congr hiff rfl rfl

/-- With the topic's six bytes and both lengths inside the memory the router is
handed, and a NUL in the message's memory if it is routed to `Hello`, only the
demo's handler can fault, and the route depends on those six bytes alone. -/
theorem handleIncomingMQTTMessageOn_of_in_bounds (ht : 6 ≤ topic.length)
    (htl : topicLength ≤ topic.length) (hml : messageLength ≤ message.length)
    (hnul : topic.take 6 = cLit "Hello" → 0 ∈ message) :
    handleIncomingMQTTMessageOn unchanged otaDemo topic topicLength message messageLength =
      if topic.take 6 = cLit "Hello" then .ok (unchanged, .hello)
      else (fun r => (r.1, .otaDemo r.2)) <$> otaDemo := by
  rw [handleIncomingMQTTMessageOn_of_six_bytes unchanged otaDemo ht]
  split_ifs with hhello
  · obtain ⟨s, hs⟩ := cString_of_mem (hnul hhello)
    rw [hs]
    rfl
  · obtain ⟨k, hk⟩ := strnlen_of_le htl
    obtain ⟨k', hk'⟩ := strnlen_of_le hml
    cases otaDemo with
    | error e => rfl
    | ok r =>
        obtain ⟨a, _ | _⟩ := r <;> simp [hk, hk']

theorem handleIncomingMQTTMessageOn_eq_ok {a : α} {route : Route}
    (h : handleIncomingMQTTMessageOn unchanged otaDemo topic topicLength message messageLength =
      .ok (a, route)) :
    a = unchanged ∨ ∃ handled, otaDemo = .ok (a, handled) := by
  obtain ⟨cmp, -, h⟩ := bind_eq_ok.mp h
  split_ifs at h
  · obtain ⟨_, -, h⟩ := bind_eq_ok.mp h
    cases h
    exact .inl rfl
  obtain ⟨⟨a', handled⟩, hdemo, h⟩ := bind_eq_ok.mp h
  dsimp only at h
  split_ifs at h
  · cases h
    exact .inr ⟨handled, hdemo⟩
  obtain ⟨_, -, h⟩ := bind_eq_ok.mp h
  obtain ⟨_, -, h⟩ := bind_eq_ok.mp h
  cases h
  exact .inr ⟨handled, hdemo⟩

theorem handleIncomingMQTTMessageOn_eq_error {e : Fault}
    (h : handleIncomingMQTTMessageOn unchanged otaDemo topic topicLength message messageLength =
      .error e) :
    e = .outOfBounds ∨ otaDemo = .error e := by
  rcases bind_eq_error.mp h with h | ⟨cmp, -, h⟩
  · exact .inl (strcmp_eq_error h)
  split_ifs at h
  · rcases bind_eq_error.mp h with h | ⟨_, -, h⟩
    · exact .inl (cString_eq_error h)
    · cases h
  rcases bind_eq_error.mp h with h | ⟨⟨a, handled⟩, -, h⟩
  · exact .inr h
  dsimp only at h
  split_ifs at h
  · cases h
  rcases bind_eq_error.mp h with h | ⟨_, -, h⟩
  · exact .inl (strnlen_eq_error h)
  rcases bind_eq_error.mp h with h | ⟨_, -, h⟩
  · exact .inl (strnlen_eq_error h)
  · cases h

end On

/-- The router compares the memory at the topic pointer with `"Hello"` as a C
string and never looks at `topicLength`: a publish goes to the `Hello` branch
exactly when the six bytes at the topic pointer are `"Hello"` and a NUL, and
that branch reads the message up to its first NUL, wherever that is. -/
theorem handleIncomingMQTTMessage_eq (otaDemoHandled : Bool) {topic message : List UInt8}
    {topicLength messageLength : Nat} (ht : 6 ≤ topic.length) (htl : topicLength ≤ topic.length)
    (hml : messageLength ≤ message.length) :
    handleIncomingMQTTMessage otaDemoHandled topic topicLength message messageLength =
      if topic.take 6 = cLit "Hello" then
        (if 0 ∈ message then .ok .hello else .error .outOfBounds)
      else .ok (.otaDemo otaDemoHandled) := by
  rw [handleIncomingMQTTMessage_eq_on]
  by_cases hnul : topic.take 6 = cLit "Hello" → 0 ∈ message
  · rw [handleIncomingMQTTMessageOn_of_in_bounds _ _ ht htl hml hnul]
    split_ifs with hhello <;> first | rfl | exact absurd (hnul hhello) ‹_›
  · obtain ⟨hhello, hm⟩ := Classical.not_imp.mp hnul
    rw [handleIncomingMQTTMessageOn_of_six_bytes _ _ ht, if_pos hhello, if_pos hhello, if_neg hm,
      cString_of_nul_free hm]
    rfl

theorem five_byte_hello_topic_goes_to_otaDemo :
    handleIncomingMQTTMessage false (lit "Hello" ++ cLit "hi") 5 (cLit "hi") 3 =
      .ok (.otaDemo false) :=
  (handleIncomingMQTTMessage_eq false (by decide) (by decide) (by decide)).trans
    (if_neg (by decide))

end OtaJobs.Main
