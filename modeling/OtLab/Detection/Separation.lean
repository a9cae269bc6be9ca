import OtLab.Otdpi.Common

/-!
# Several messages in one payload

TCP is a stream: a payload can hold several messages. A handler separates them when it writes the
alerts it would write if each message came in a packet of its own.
-/

namespace OtLab

/-- The alerts for a payload sent over one connection. -/
def alertsOn (process : Packet → Py (List SinkCall)) (src dst : IPv4) (h : TcpHeader)
    (payload : Bytes) : List Dict := alertsWritten (process (.segment src dst h payload))

section Produce

open Common

variable {Event : Type} {service : String} {port : UInt16} {decode : Bytes → Py (Option Event)}
  {fields : Event → Dict} {alerts : Event → Packet → List Dict} {src dst : IPv4} {h : TcpHeader}

/-- The alerts of a producer are those for what the payload decodes to. -/
theorem alertsOn_produce (hp : h.dport = port) {payload : Bytes} {event : Option Event}
    (hdecode : decode payload = .ok event) :
    alertsOn (produce service port decode fields alerts) src dst h payload
      = event.toList.flatMap fun e => alerts e (.segment src dst h payload) := by
  unfold alertsOn produce
  rw [payloadTo_segment hp]
  dsimp only
  rw [hdecode]
  cases event with
  | none => rfl
  | some e =>
    show alertsOf (_ :: (alerts e _).map writeAlert) = _
    rw [alertsOf_push, Option.toList_some, List.flatMap_singleton]

theorem alertsOn_produce_of_port_ne (hp : h.dport ≠ port) (payload : Bytes) :
    alertsOn (produce service port decode fields alerts) src dst h payload = [] := by
  unfold alertsOn produce
  rw [payloadTo_segment_of_ne hp]
  rfl

end Produce

/-- The handler alerts on the concatenation as on the single messages. -/
def Separates (process : Packet → Py (List SinkCall)) (src dst : IPv4) (h : TcpHeader)
    (messages : List Bytes) : Prop :=
  alertsOn process src dst h messages.flatten = messages.flatMap (alertsOn process src dst h)

/-- When no message alerts at all, nothing is hidden. -/
theorem separates_of_silent {process : Packet → Py (List SinkCall)} {src dst : IPv4}
    {h : TcpHeader} (hs : ∀ payload, alertsOn process src dst h payload = [])
    (messages : List Bytes) : Separates process src dst h messages := by
  unfold Separates
  rw [hs, eq_comm, List.flatMap_eq_nil_iff]
  exact fun m _ => hs m

/--
When what follows the first message does not change how many alerts there are, the handler
separates exactly if it does not change the alerts either and the later messages are silent.
-/
theorem separates_cons_iff {process : Packet → Py (List SinkCall)} {src dst : IPv4}
    {h : TcpHeader} {m : Bytes} {ms : List Bytes}
    (hlen : (alertsOn process src dst h (m ++ ms.flatten)).length
      = (alertsOn process src dst h m).length) :
    Separates process src dst h (m :: ms) ↔
      alertsOn process src dst h (m ++ ms.flatten) = alertsOn process src dst h m ∧
        ∀ m' ∈ ms, alertsOn process src dst h m' = [] := by
  unfold Separates
  rw [List.flatten_cons, List.flatMap_cons, ← List.flatMap_eq_nil_iff]
  constructor
  · intro heq
    have hsum := congrArg List.length heq
    rw [List.length_append, hlen] at hsum
    have hnil : ms.flatMap (alertsOn process src dst h) = [] :=
      List.length_eq_zero_iff.mp (by omega)
    rw [hnil, List.append_nil] at heq
    exact ⟨heq, hnil⟩
  · rintro ⟨heq, hnil⟩
    rw [heq, hnil, List.append_nil]

/--
A handler of one port whose alerts on a message do not depend on what follows it separates a
series exactly if no message after the first is to be reported.
-/
theorem separates_iff_of_append {Message : Type} {bytes : Message → Bytes}
    {reported : Message → Bool} {process : Packet → Py (List SinkCall)} {src dst : IPv4}
    {h : TcpHeader} {port : UInt16} {m : Message} {ms : List Message}
    (hquiet : h.dport ≠ port → ∀ payload, alertsOn process src dst h payload = [])
    (happend : h.dport = port →
      alertsOn process src dst h (bytes m ++ (ms.map bytes).flatten)
        = alertsOn process src dst h (bytes m))
    (hnil : h.dport = port →
      ∀ m', alertsOn process src dst h (bytes m') = [] ↔ reported m' = false) :
    Separates process src dst h ((m :: ms).map bytes) ↔
      (h.dport = port → ∀ m' ∈ ms, reported m' = false) := by
  by_cases hp : h.dport = port
  · rw [List.map_cons, separates_cons_iff (by rw [happend hp]), happend hp, List.forall_mem_map]
    simp only [hnil hp, hp, true_implies, true_and]
  · exact iff_of_true (separates_of_silent (hquiet hp) _) fun h' => absurd h' hp

end OtLab
