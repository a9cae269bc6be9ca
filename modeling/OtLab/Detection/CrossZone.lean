import OtLab.Detection.FirewallEvents
import OtLab.Firewall.Conntrack

/-!
# Traffic from the Enterprise to Control

Three parts of the lab look at the same packet: the gateway forwards or drops it,
`cross_zone_traffic.py` alerts on it by its addresses alone, and `firewall_events.py` ships an event
by its own conduit table.

* `alertsOf_processPacket` — when there is an alert, and which
* `cross_zone_views` — how the three views fit together, along every run of the gateway
-/

namespace OtLab.CrossZone

open Lib

/-! ## The detector -/

/-- `IT_ZONE_SUBNET`, by default. -/
def itZoneSubnet : Net24 := ⟨172, 24, 0⟩

/-- `CONTROL_ZONE_SUBNET`, by default. -/
def controlZoneSubnet : Net24 := ⟨172, 21, 0⟩

/-- The alert `process_packet` has `log_alert` write. -/
def violation (srcIp destIp : IPv4) : Dict :=
  [ ("alert_type", .str "CROSS_ZONE_VIOLATION"),
    ("source_ip", .str srcIp.str),
    ("dest_ip", .str destIp.str),
    ("mitre_id", .str "T0886"),
    ("description", .str "Unauthorized direct communication from IT to Control zone detected.") ]

/-- `process_packet`. What an IPv4 header holds is always an address. -/
def processPacket (packet : Packet) : List SinkCall :=
  if itZoneSubnet.contains packet.src ∧ controlZoneSubnet.contains packet.dst then
    [.alert (violation packet.src packet.dst)]
  else []

variable {p : Packet}

/-- The detector and the telemetry have the same zones. -/
theorem alertsOf_processPacket (p : Packet) :
    alertsOf (processPacket p) =
      if zoneOf p.src = some .it ∧ zoneOf p.dst = some .control then [violation p.src p.dst]
      else [] := by
  have hiff : zoneOf p.src = some .it ∧ zoneOf p.dst = some .control ↔
      itZoneSubnet.contains p.src ∧ controlZoneSubnet.contains p.dst :=
    and_congr zoneOf_eq_some zoneOf_eq_some
  unfold processPacket
  by_cases h : itZoneSubnet.contains p.src ∧ controlZoneSubnet.contains p.dst
  · rw [if_pos h, if_pos (hiff.mpr h)]
    rfl
  · rw [if_neg h, if_neg (mt hiff.mp h)]
    rfl

theorem alerts_ne_nil_iff :
    alertsOf (processPacket p) ≠ [] ↔ zoneOf p.src = some .it ∧ zoneOf p.dst = some .control := by
  rw [alertsOf_processPacket]
  split_ifs with h
  · exact iff_of_true (List.cons_ne_nil _ _) h
  · exact iff_of_false (fun hne => hne rfl) h

/-! ## The telemetry -/

/-- `CONDUITS` permits nothing from the Enterprise to Control. -/
theorem isPermitted_it_control (proto : ProtoName) (dstPort : UInt16) :
    isPermitted .it .control proto dstPort = false := by
  unfold isPermitted
  rw [List.any_eq_false]
  intro c hc heq
  have htable : ∀ c ∈ permittedConduits, ¬ (c.1 = .it ∧ c.2.1 = .control) := by decide
  rw [beq_iff_eq] at heq
  exact htable c hc (by rw [heq]; exact ⟨rfl, rfl⟩)

/-- An event names the zones of the addresses. -/
theorem zones_of_handle {e : DropEvent} (h : handle p = some e) :
    zoneOf p.src = some e.srcZone ∧ zoneOf p.dst = some e.dstZone := by
  unfold handle at h
  cases hs : zoneOf p.src <;> cases hd : zoneOf p.dst <;> rw [hs, hd] at h
  case some.some sz dz =>
    dsimp only at h
    split at h
    · exact absurd h (by simp)
    split at h
    · exact absurd h (by simp)
    split at h
    · exact absurd h (by simp)
    split at h
    · exact absurd h (by simp)
    obtain rfl := Option.some.inj h
    exact ⟨rfl, rfl⟩
  all_goals exact absurd h (by simp)

/-- The event for a flow from the Enterprise to Control. -/
theorem handle_it_control (hs : zoneOf p.src = some .it) (hd : zoneOf p.dst = some .control) :
    handle p =
      if p.src ∈ gatewayIps ∨ p.dst ∈ gatewayIps then none
      else (flowKey p).map fun k =>
        { srcZone := .it, dstZone := .control, srcIp := p.src, dstIp := p.dst, dstPort := k.2,
          proto := k.1 } := by
  unfold handle
  rw [hs, hd]
  refine if_congr Iff.rfl rfl ?_
  dsimp only
  rw [if_neg (by decide)]
  cases flowKey p with
  | none => rfl
  | some k =>
    dsimp only
    rw [isPermitted_it_control]
    rfl

/-! ## The gateway -/

/-- Along a conduit, in its direction or back, nothing runs from the Enterprise to Control. -/
theorem not_forwards_of_zones {ifs : Zone → Iface} {g : Gateway} {q : Arrival}
    (hg : Gateway.Segmented ifs g) (hifs : Function.Injective ifs) (ht : g.Tracked q)
    (hi : q.packet.iif = ifs .it) (ho : q.packet.oif = ifs .control) : ¬ g.Forwards q := by
  intro hq
  obtain ⟨c, hc, hpath⟩ := hg.along_conduit ht hq
  obtain ⟨hdst, -, -, hit⟩ := Gateway.conduits_layered c hc
  rcases hpath with ⟨hi', ho'⟩ | ⟨hi', -⟩
  · exact hit (hifs (hi'.symm.trans hi)) (hifs (ho'.symm.trans ho))
  · exact hdst (hifs (hi'.symm.trans hi))

/-- The way of a forwarded packet, in terms of the zones of its addresses. -/
theorem zones_of_forwards {ifs : Zone → Iface} {g : Gateway} {q : Arrival}
    (hg : Gateway.Segmented ifs g) (hc : Carries ifs q.packet) (ht : g.Tracked q)
    (hq : g.Forwards q) : ∃ c ∈ conduits,
      (zoneOf q.packet.src = some c.src ∧ zoneOf q.packet.dst = some c.dst) ∨
        (zoneOf q.packet.src = some c.dst ∧ zoneOf q.packet.dst = some c.src) := by
  obtain ⟨c, hmem, hpath⟩ := hg.along_conduit ht hq
  refine ⟨c, hmem, ?_⟩
  simpa only [zoneOf_eq_some, ← hc.iif, ← hc.oif] using hpath

/--
**The three views of a packet.**

Each zone's interface carries the packets of its network (`Carries`), so that an address tells where
a packet comes from. Whatever the gateway forwarded before and whatever the responder did: a packet
the detector alerts on is never forwarded, and a forwarded packet runs between zones that a conduit
connects. The producer ships an event from the Enterprise to Control exactly for those packets the
detector alerts on that are not from or to the gateway itself and, if they are TCP, open a
connection; it names the addresses of the alert.
-/
theorem cross_zone_views (ifs : Zone → Iface) (hifs : Function.Injective ifs)
    (es : List Gateway.Event) (p : Packet) (q : Arrival) (hsrc : q.packet.src = p.src)
    (hdst : q.packet.dst = p.dst) (hc : Carries ifs q.packet)
    (ht : (run Gateway.step (Gateway.start ifs) es).Tracked q) :
    let g := run Gateway.step (Gateway.start ifs) es
    (alertsOf (processPacket p) ≠ [] → ¬ g.Forwards q) ∧
      (g.Forwards q → ∃ c ∈ conduits,
        (zoneOf p.src = some c.src ∧ zoneOf p.dst = some c.dst) ∨
          (zoneOf p.src = some c.dst ∧ zoneOf p.dst = some c.src)) ∧
      ((∃ e, handle p = some e ∧ e.srcZone = .it ∧ e.dstZone = .control) ↔
        alertsOf (processPacket p) ≠ [] ∧ p.src ∉ gatewayIps ∧ p.dst ∉ gatewayIps ∧
          (flowKey p).isSome) ∧
      ∀ e, handle p = some e → e.srcZone = .it → e.dstZone = .control →
        alertsOf (processPacket p) = [violation e.srcIp e.dstIp] := by
  intro g
  have hg : Gateway.Segmented ifs g := Gateway.segmented_run ifs es
  refine ⟨fun halert => ?_, fun hq => ?_, ⟨?_, ?_⟩, ?_⟩
  · obtain ⟨hs, hd⟩ := alerts_ne_nil_iff.mp halert
    rw [zoneOf_eq_some, ← hsrc, ← hc.iif] at hs
    rw [zoneOf_eq_some, ← hdst, ← hc.oif] at hd
    exact not_forwards_of_zones hg hifs ht hs hd
  · rw [← hsrc, ← hdst]
    exact zones_of_forwards hg hc ht hq
  · rintro ⟨e, he, hit, hcontrol⟩
    obtain ⟨hs, hd⟩ := zones_of_handle he
    rw [hit] at hs
    rw [hcontrol] at hd
    rw [handle_it_control hs hd] at he
    split at he
    · exact absurd he (by simp)
    · next hout =>
      rw [not_or] at hout
      obtain ⟨k, hk, -⟩ := Option.map_eq_some_iff.mp he
      exact ⟨alerts_ne_nil_iff.mpr ⟨hs, hd⟩, hout.1, hout.2, by rw [hk]; rfl⟩
  · rintro ⟨halert, hnotSrc, hnotDst, hkey⟩
    obtain ⟨hs, hd⟩ := alerts_ne_nil_iff.mp halert
    obtain ⟨k, hk⟩ := Option.isSome_iff_exists.mp hkey
    rw [handle_it_control hs hd, if_neg (not_or.mpr ⟨hnotSrc, hnotDst⟩), hk]
    exact ⟨_, rfl, rfl, rfl⟩
  · intro e he hit hcontrol
    obtain ⟨hs, hd⟩ := zones_of_handle he
    rw [hit] at hs
    rw [hcontrol] at hd
    rw [handle_it_control hs hd] at he
    split at he
    · exact absurd he (by simp)
    · obtain ⟨k, -, rfl⟩ := Option.map_eq_some_iff.mp he
      rw [alertsOf_processPacket, if_pos ⟨hs, hd⟩]

/-- The intake PLC answers the HMI. -/
def plcAnswer : Packet := .segment ⟨172, 21, 0, 10⟩ hmiHost ⟨502, 40000, 0x18⟩ []

def answerArrival : Arrival :=
  ⟨plcAnswer.view (labIfs .control) (labIfs .supervisory) .established, some 502⟩

/-- A workstation of the Enterprise opens the Modbus port of the PLC. -/
def workstationSyn : Packet := synTo ⟨172, 24, 0, 10⟩ ⟨172, 21, 0, 10⟩ 502

def synArrival : Arrival := ⟨workstationSyn.view (labIfs .it) (labIfs .control) .new, some 40000⟩

/--
While the HMI is connected and another workstation is blocked: the answer of the PLC runs along a
conduit, and the SYN of the workstation is not forwarded.
-/
theorem cross_zone_views_workstation :
    let g := run Gateway.step (Gateway.start labIfs)
      [.packet Gateway.hmiToPlc, .applyDrop "172.24.0.11" true]
    (g.Forwards answerArrival ∧ ∃ c ∈ conduits,
      (zoneOf plcAnswer.src = some c.src ∧ zoneOf plcAnswer.dst = some c.dst) ∨
        (zoneOf plcAnswer.src = some c.dst ∧ zoneOf plcAnswer.dst = some c.src)) ∧
      ¬ g.Forwards synArrival := by
  intro g
  have hforwards : g.Forwards answerArrival := by decide
  have htracked : g.Tracked answerArrival :=
    ⟨Gateway.hmiToPlc, by decide, Or.inr ⟨rfl, rfl, rfl, rfl, rfl, rfl, rfl⟩⟩
  obtain ⟨-, halong, -⟩ := cross_zone_views labIfs Gateway.labIfs_injective
    [.packet Gateway.hmiToPlc, .applyDrop "172.24.0.11" true] plcAnswer answerArrival rfl rfl
    (carries_labIfs .control .supervisory rfl rfl rfl rfl) htracked
  obtain ⟨hdropped, -⟩ := cross_zone_views labIfs Gateway.labIfs_injective
    [.packet Gateway.hmiToPlc, .applyDrop "172.24.0.11" true] workstationSyn synArrival rfl rfl
    (carries_labIfs .it .control rfl rfl rfl rfl) trivial
  exact ⟨⟨hforwards, halong hforwards⟩, hdropped (by decide)⟩

end OtLab.CrossZone
