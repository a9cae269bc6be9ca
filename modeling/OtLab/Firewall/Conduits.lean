import OtLab.Firewall.Ruleset

/-!
# The documented conduits

The conduits of `architecture/zone-conduit-design.md`, with the destination hosts the document
names. The rules of the script restrict zones, ports and some sources, but no destination.

* `documented_iff_named` — for which new packets rules and document agree
-/

namespace OtLab

/--
A conduit of the document. `srcHost` is present where it is source-restricted, `dstHosts` where
the document names hosts as its destination. All conduits are TCP.
-/
structure DocumentedConduit where
  id : String
  src : Zone
  srcHost : Option IPv4
  dst : Zone
  dstHosts : Option (List IPv4)
  dports : List UInt16
deriving DecidableEq, Repr

/-- The reverse proxy of the DMZ. -/
def proxyHost : IPv4 := ⟨172, 25, 0, 10⟩

/-- Section 2 of the document. C2 is not used. -/
def documentedConduits : List DocumentedConduit :=
  [ ⟨"C1", .supervisory, none, .control,
      some [⟨172, 21, 0, 10⟩, ⟨172, 21, 0, 11⟩, ⟨172, 21, 0, 12⟩], [502]⟩,
    ⟨"C3", .supervisory, none, .ops, none, [8086]⟩,
    ⟨"C4", .it, none, .ops, none, [8086]⟩,
    ⟨"C5", .ops, some ewsHost, .control, none, [8443]⟩,
    ⟨"C6", .ops, some insiderHost, .control, some [⟨172, 21, 0, 50⟩], [20000]⟩,
    ⟨"C7", .ops, some insiderHost, .control, some [⟨172, 21, 0, 51⟩], [4840]⟩,
    ⟨"C8", .ops, some insiderHost, .control, some [⟨172, 21, 0, 52⟩], [102]⟩,
    ⟨"C9", .it, none, .dmz, some [proxyHost, bastionHost], [80, 22]⟩,
    ⟨"C10", .dmz, none, .supervisory, some [hmiHost], [8080]⟩,
    ⟨"C11", .dmz, some bastionHost, .ops, some [ewsHost], [22]⟩ ]

namespace DocumentedConduit

variable (ifs : Zone → Iface) (d : DocumentedConduit) (p : FwPacket)

/-- Zones, restricted source, protocol and port of the packet are those of the conduit. -/
def Opens : Prop :=
  p.iif = ifs d.src ∧ p.oif = ifs d.dst ∧ (∀ h ∈ d.srcHost, p.src = h) ∧
    p.protocol = tcpProtocol ∧ ∃ port ∈ d.dports, p.dport = some port

/-- The destination of the packet is one the document names, where it names any. -/
def Names : Prop := ∀ hosts ∈ d.dstHosts, p.dst ∈ hosts

instance : Decidable (d.Opens ifs p) := by
  unfold Opens
  infer_instance

instance : Decidable (d.Names p) := by
  unfold Names
  infer_instance

/-- The packet matches the conduit. -/
def Matches : Prop := d.Opens ifs p ∧ d.Names p

instance : Decidable (d.Matches ifs p) := by
  unfold Matches
  infer_instance

/-- The rules the script has for the conduit. -/
def rules : List Conduit := d.dports.map fun port => ⟨d.src, d.srcHost, d.dst, port⟩

theorem opens_iff : d.Opens ifs p ↔ ∃ c ∈ d.rules, c.Passes ifs p := by
  unfold Opens rules
  constructor
  · rintro ⟨hi, ho, hs, hproto, port, hport, hdport⟩
    exact ⟨_, List.mem_map_of_mem hport, hi, ho, hs, hproto, hdport⟩
  · rintro ⟨c, hc, hi, ho, hs, hproto, hdport⟩
    obtain ⟨port, hport, rfl⟩ := List.mem_map.mp hc
    exact ⟨hi, ho, hs, hproto, port, hport, hdport⟩

end DocumentedConduit

/-- The script has the rules of the documented conduits, in the order of the document. -/
theorem conduits_eq : conduits = documentedConduits.flatMap DocumentedConduit.rules := by
  decide

variable {ifs : Zone → Iface} {p : FwPacket}

theorem forward_accepts_iff_opens (hn : p.state = .new) :
    (forwardChain ifs).verdict p = .accept ↔ ∃ d ∈ documentedConduits, d.Opens ifs p := by
  rw [forward_accepts_iff_passes (by simp [hn]) (by simp [hn]), conduits_eq]
  constructor
  · rintro ⟨c, hc, hpass⟩
    obtain ⟨d, hd, hc⟩ := List.mem_flatMap.mp hc
    exact ⟨d, hd, (d.opens_iff ifs p).mpr ⟨c, hc, hpass⟩⟩
  · rintro ⟨d, hd, ho⟩
    obtain ⟨c, hc, hpass⟩ := (d.opens_iff ifs p).mp ho
    exact ⟨c, List.mem_flatMap.mpr ⟨d, hd, hc⟩, hpass⟩

/-- A packet for which some conduit opens has a destination such a conduit names. -/
def DestinationNamed (ifs : Zone → Iface) (p : FwPacket) : Prop :=
  ∀ d ∈ documentedConduits, d.Opens ifs p →
    ∃ d' ∈ documentedConduits, d'.Opens ifs p ∧ d'.Names p

instance : Decidable (DestinationNamed ifs p) := by
  unfold DestinationNamed
  infer_instance

/--
**Rules and document agree on a new packet exactly when its destination is a documented one.**

The rules accept every destination host in the zone of the conduit.
-/
theorem documented_iff_named (ifs : Zone → Iface) (p : FwPacket) (hn : p.state = .new) :
    ((forwardChain ifs).verdict p = .accept ↔ ∃ d ∈ documentedConduits, d.Matches ifs p) ↔
      DestinationNamed ifs p := by
  rw [forward_accepts_iff_opens hn]
  constructor
  · intro h d hd ho
    exact h.mp ⟨d, hd, ho⟩
  · intro h
    constructor
    · rintro ⟨d, hd, ho⟩
      exact h d hd ho
    · rintro ⟨d, hd, ho, -⟩
      exact ⟨d, hd, ho⟩

/-- The first packet of a connection over the laboratory's interfaces. -/
def newTcp (src dst : IPv4) (inZone outZone : Zone) (dport : UInt16) : FwPacket :=
  { iif := labIfs inZone, oif := labIfs outZone, src := src, dst := dst, protocol := tcpProtocol,
    icmpType := none, dport := some dport, state := .new }

/-- The insider polls the DNP3 outstation of C6. -/
theorem documented_iff_named_outstation :
    (forwardChain labIfs).verdict (newTcp insiderHost ⟨172, 21, 0, 50⟩ .ops .control 20000)
        = .accept ↔
      ∃ d ∈ documentedConduits,
        d.Matches labIfs (newTcp insiderHost ⟨172, 21, 0, 50⟩ .ops .control 20000) :=
  (documented_iff_named labIfs _ rfl).mpr (by decide)

/-- The insider reaches the intake PLC on the DNP3 port, although C6 names the outstation only. -/
theorem accepts_undocumented :
    ¬ ((forwardChain labIfs).verdict (newTcp insiderHost ⟨172, 21, 0, 10⟩ .ops .control 20000)
        = .accept ↔
      ∃ d ∈ documentedConduits,
        d.Matches labIfs (newTcp insiderHost ⟨172, 21, 0, 10⟩ .ops .control 20000)) := by
  decide

end OtLab
