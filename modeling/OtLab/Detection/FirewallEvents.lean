import OtLab.Firewall.Ruleset

/-!
# Firewall telemetry

`firewall_events.py` observes forwarded packets and ships an `action=DROP` event for the new
cross-zone flows its own conduit table denies. The table is keyed by zones, protocol and port;
the firewall also looks at the source host.

* `handle_isSome_iff` — when an event is shipped
* `telemetry_agrees_iff` — exactly when the event and the firewall's verdict agree
-/

namespace OtLab

/-! ## The producer -/

/-- The protocol names of the events. -/
inductive ProtoName where
  | tcp
  | udp
  | icmp
  | ip
deriving DecidableEq, Repr

def ProtoName.text : ProtoName → String
  | .tcp => "TCP"
  | .udp => "UDP"
  | .icmp => "ICMP"
  | .ip => "IP"

/-- The keys of `ZONES` as text. -/
def Zone.name : Zone → String
  | .it => "it"
  | .dmz => "dmz"
  | .ops => "ops"
  | .supervisory => "supervisory"
  | .control => "control"

/-- `GATEWAY_IPS`. -/
def gatewayIps : List IPv4 :=
  [⟨172, 21, 0, 2⟩, ⟨172, 22, 0, 2⟩, ⟨172, 23, 0, 2⟩, ⟨172, 24, 0, 2⟩, ⟨172, 25, 0, 2⟩]

/-- `CONDUITS`. -/
def permittedConduits : List (Zone × Zone × ProtoName × UInt16) :=
  [ (.supervisory, .control, .tcp, 502),
    (.supervisory, .ops, .tcp, 8086),
    (.it, .ops, .tcp, 8086),
    (.ops, .control, .tcp, 8443),
    (.ops, .control, .tcp, 20000),
    (.ops, .control, .tcp, 4840),
    (.ops, .control, .tcp, 102),
    (.it, .dmz, .tcp, 80),
    (.it, .dmz, .tcp, 22),
    (.dmz, .supervisory, .tcp, 8080) ]

/-- `is_permitted`. -/
def isPermitted (srcZone dstZone : Zone) (proto : ProtoName) (dstPort : UInt16) : Bool :=
  permittedConduits.any fun conduit => conduit == (srcZone, dstZone, proto, dstPort)

/-- A SYN without ACK. -/
def TcpHeader.opens (h : TcpHeader) : Bool := h.flags &&& 0x02 != 0 && h.flags &&& 0x10 == 0

/-- The fields of an `action=DROP` event. -/
structure DropEvent where
  srcZone : Zone
  dstZone : Zone
  srcIp : IPv4
  dstIp : IPv4
  dstPort : UInt16
  proto : ProtoName
deriving DecidableEq, Repr

/-- The line pushed to Loki. -/
def DropEvent.line (e : DropEvent) : String :=
  "action=DROP src_zone=" ++ e.srcZone.name ++ " dst_zone=" ++ e.dstZone.name
    ++ " src_ip=" ++ e.srcIp.str ++ " dst_ip=" ++ e.dstIp.str
    ++ " dst_port=" ++ toString e.dstPort.toNat ++ " proto=" ++ e.proto.text

/-- `OT_ZONES`. -/
def otZones : List Zone := [.ops, .dmz, .supervisory, .control]

/-- The event is also handed to `check_beacon`. -/
def DropEvent.checksBeacon (e : DropEvent) : Bool := e.dstZone == .it && e.srcZone ∈ otZones

/-- The protocol and port `handle` goes by; `none` for a TCP segment that opens no connection. -/
def flowKey (p : Packet) : Option (ProtoName × UInt16) :=
  match p.tcp? with
  | some h => if h.opens then some (.tcp, h.dport) else none
  | none =>
    match p.udpDport? with
    | some dport => some (.udp, dport)
    | none => if p.hasIcmp then some (.icmp, 0) else some (.ip, 0)

/-- `handle`: the event it ships, when it ships one. -/
def handle (p : Packet) : Option DropEvent :=
  if p.src ∈ gatewayIps ∨ p.dst ∈ gatewayIps then none
  else
    match zoneOf p.src, zoneOf p.dst with
    | some srcZone, some dstZone =>
      if srcZone = dstZone then none
      else
        match flowKey p with
        | none => none
        | some (proto, dstPort) =>
          if isPermitted srcZone dstZone proto dstPort then none
          else some
            { srcZone := srcZone, dstZone := dstZone, srcIp := p.src, dstIp := p.dst,
              dstPort := dstPort, proto := proto }
    | _, _ => none

/-! ## The packet as the firewall sees it -/

/-- The protocol number in the IPv4 header. -/
def Transport.protocol : Transport → UInt8
  | .tcp _ => tcpProtocol
  | .udp .. => 17
  | .icmp => icmpProtocol
  | .other n => n

/-- The destination port of the outer transport header. -/
def Transport.dport? : Transport → Option UInt16
  | .tcp h => some h.dport
  | .udp _ dport => some dport
  | _ => none

/-- The packet on its way from interface `iif` to `oif`, in conntrack state `state`. -/
def Packet.view (p : Packet) (iif oif : Iface) (state : CtState) : FwPacket :=
  { iif := iif, oif := oif, src := p.src, dst := p.dst, protocol := p.transport.protocol,
    icmpType := none, dport := p.transport.dport?, state := state }

/-- The packet opens a flow from zone `sz` to another zone `dz`, not to the gateway. -/
structure OpensFlow (p : Packet) (sz dz : Zone) : Prop where
  src : zoneOf p.src = some sz
  dst : zoneOf p.dst = some dz
  ne : sz ≠ dz
  dstNotGateway : p.dst ∉ gatewayIps
  syn : ∀ h, p.transport = .tcp h → h.opens = true

/-! ## When the two agree -/

/-- The segment uses a conduit the firewall restricts to one host, from another host. -/
def WrongHost (sz dz : Zone) (src : IPv4) (dport : UInt16) : Prop :=
  sz = .ops ∧ dz = .control ∧
    (dport = 8443 ∧ src ≠ ewsHost ∨
      (dport = 20000 ∨ dport = 4840 ∨ dport = 102) ∧ src ≠ insiderHost)

/-- The segment uses conduit C11, which `CONDUITS` does not list. -/
def UnlistedConduit (sz dz : Zone) (src : IPv4) (dport : UInt16) : Prop :=
  sz = .dmz ∧ dz = .ops ∧ dport = 22 ∧ src = bastionHost

/-- The conduits of the firewall, for a TCP segment with the given zones, source and port. -/
def Admitted (sz dz : Zone) (src : IPv4) (dport : UInt16) : Prop :=
  ∃ c ∈ conduits, sz = c.src ∧ dz = c.dst ∧ (∀ h ∈ c.host, src = h) ∧ dport = c.dport

/--
The telemetry can be trusted for the packet. A TCP segment has to come from a host its conduit
is not closed to and must not use the conduit missing in `CONDUITS`. Any other packet must not
tunnel a TCP segment that is no SYN or goes to a conduit port. A packet that claims to come from
the gateway, which `handle` ignores, has to be a TCP segment the firewall admits.
-/
def Trustworthy (p : Packet) (sz dz : Zone) : Prop :=
  if p.src ∈ gatewayIps then ∃ h, p.transport = .tcp h ∧ Admitted sz dz p.src h.dport
  else
    match p.transport with
    | .tcp h => ¬ WrongHost sz dz p.src h.dport ∧ ¬ UnlistedConduit sz dz p.src h.dport
    | _ => ∀ h, p.tcp? = some h → h.opens = true ∧ isPermitted sz dz .tcp h.dport = false

variable {p : Packet} {sz dz : Zone}

/-- The gateway's own traffic is no forwarded flow for the producer. -/
theorem handle_of_gateway (h : p.src ∈ gatewayIps) : handle p = none := if_pos (Or.inl h)

theorem handle_of_opensFlow (h : OpensFlow p sz dz) (hg : p.src ∉ gatewayIps) :
    handle p = match flowKey p with
      | none => none
      | some (proto, dstPort) =>
        if isPermitted sz dz proto dstPort then none
        else some
          { srcZone := sz, dstZone := dz, srcIp := p.src, dstIp := p.dst, dstPort := dstPort,
            proto := proto } := by
  unfold handle
  rw [if_neg (by simp [hg, h.dstNotGateway]), h.src, h.dst]
  simp only [if_neg h.ne]

/-- An event is shipped for a flow unless it opens no connection or the table permits it. -/
theorem handle_isSome_iff (h : OpensFlow p sz dz) (hg : p.src ∉ gatewayIps) :
    (handle p).isSome ↔ ∃ k, flowKey p = some k ∧ isPermitted sz dz k.1 k.2 = false := by
  rw [handle_of_opensFlow h hg]
  cases flowKey p with
  | none => simp
  | some k =>
    obtain ⟨proto, dport⟩ := k
    cases hp : isPermitted sz dz proto dport <;> simp [hp]

/-- Only TCP is ever permitted. -/
theorem isPermitted_not_tcp (sz dz : Zone) {proto : ProtoName} (h : proto ≠ .tcp) (port : UInt16) :
    isPermitted sz dz proto port = false := by
  unfold isPermitted
  rw [List.any_eq_false]
  intro c hc
  have htcp : ∀ c ∈ permittedConduits, c.2.2.1 = .tcp := by decide
  have hct := htcp c hc
  intro heq
  rw [beq_iff_eq] at heq
  exact h (by rw [heq] at hct; exact hct)

theorem flowKey_tcp {h : TcpHeader} (hp : p.transport = .tcp h) (hopen : h.opens = true) :
    flowKey p = some (.tcp, h.dport) := by
  have htcp : p.tcp? = some h := by
    unfold Packet.tcp? Packet.transports
    rw [hp]
    rfl
  simp [flowKey, htcp, hopen]

/-- Without a TCP layer the flow is never permitted, so an event is shipped. -/
theorem handle_isSome_of_no_tcp (h : OpensFlow p sz dz) (hg : p.src ∉ gatewayIps)
    (hp : p.tcp? = none) : (handle p).isSome = true := by
  rw [handle_isSome_iff h hg]
  unfold flowKey
  rw [hp]
  cases p.udpDport? with
  | some dport => exact ⟨_, rfl, isPermitted_not_tcp sz dz (by simp) _⟩
  | none =>
    cases p.hasIcmp with
    | true => exact ⟨_, rfl, isPermitted_not_tcp sz dz (by simp) _⟩
    | false => exact ⟨_, rfl, isPermitted_not_tcp sz dz (by simp) _⟩

variable {ifs : Zone → Iface} {iif oif : Iface}

/-- The firewall drops every new packet that is no TCP segment. -/
theorem forward_drops_not_tcp (hc : Carries ifs (p.view iif oif .new))
    (hp : ∀ h, p.transport ≠ .tcp h) :
    (forwardChain ifs).verdict (p.view iif oif .new) = .drop := by
  cases hv : (forwardChain ifs).verdict (p.view iif oif .new) with
  | drop => rfl
  | accept =>
    obtain ⟨c, -, -, -, -, hproto, hport⟩ := (forward_accepts_new_iff hc rfl).mp hv
    cases ht : p.transport with
    | tcp h => exact absurd ht (hp h)
    | udp s d => simp [Packet.view, ht, Transport.protocol, tcpProtocol] at hproto
    | icmp => simp [Packet.view, ht, Transport.protocol, icmpProtocol, tcpProtocol] at hproto
    | other n => simp [Packet.view, ht, Transport.dport?] at hport

theorem forward_drops_tcp_iff (hf : OpensFlow p sz dz) {h : TcpHeader}
    (hp : p.transport = .tcp h) (hc : Carries ifs (p.view iif oif .new)) :
    (forwardChain ifs).verdict (p.view iif oif .new) = .drop
      ↔ ¬ Admitted sz dz p.src h.dport := by
  have haccept : (forwardChain ifs).verdict (p.view iif oif .new) = .drop
      ↔ ¬ (forwardChain ifs).verdict (p.view iif oif .new) = .accept := by
    cases (forwardChain ifs).verdict (p.view iif oif .new) <;> simp
  rw [haccept, forward_accepts_new_iff hc rfl]
  simp only [Conduit.Admits, Packet.view, hf.src, hf.dst, hp, Transport.protocol, Transport.dport?,
    Option.some.injEq, true_and, Admitted]

variable {src : IPv4} {dport : UInt16}

/-- `CONDUITS` has every conduit of the firewall but the last, without its host. -/
theorem permittedConduits_eq :
    permittedConduits = conduits.dropLast.map fun c => (c.src, c.dst, .tcp, c.dport) := rfl

theorem isPermitted_tcp_iff :
    isPermitted sz dz .tcp dport = true ↔
      ∃ c ∈ conduits.dropLast, sz = c.src ∧ dz = c.dst ∧ dport = c.dport := by
  unfold isPermitted
  rw [permittedConduits_eq, List.any_map, List.any_eq_true]
  refine exists_congr fun c => and_congr_right fun _ => ?_
  rw [Function.comp_apply, beq_iff_eq, Prod.mk.injEq, Prod.mk.injEq, Prod.mk.injEq, eq_comm,
    @eq_comm _ c.dst, @eq_comm _ c.dport, and_iff_right rfl]

/-- What `CONDUITS` permits and the firewall does not comes from another host. -/
theorem wrongHost_iff :
    isPermitted sz dz .tcp dport = true ∧ ¬ Admitted sz dz src dport
      ↔ WrongHost sz dz src dport := by
  constructor
  · rintro ⟨hp, hnot⟩
    obtain ⟨c, hc, hsz, hdz, hport⟩ := isPermitted_tcp_iff.mp hp
    -- the conduit is restricted to a host, and the source is another one
    have hhost : ¬ ∀ h ∈ c.host, src = h := fun hhost =>
      hnot ⟨c, List.dropLast_subset _ hc, hsz, hdz, hhost, hport⟩
    push Not at hhost
    obtain ⟨h, hmem, hne⟩ := hhost
    have htable : ∀ c ∈ conduits.dropLast, ∀ h ∈ c.host, c.src = .ops ∧ c.dst = .control ∧
        (c.dport = 8443 ∧ h = ewsHost ∨
          (c.dport = 20000 ∨ c.dport = 4840 ∨ c.dport = 102) ∧ h = insiderHost) := by decide
    obtain ⟨hsrc, hdst, hhosts⟩ := htable c hc h hmem
    rw [← hport] at hhosts
    refine ⟨hsz.trans hsrc, hdz.trans hdst, ?_⟩
    rcases hhosts with ⟨h8443, rfl⟩ | ⟨hports, rfl⟩
    · exact Or.inl ⟨h8443, hne⟩
    · exact Or.inr ⟨hports, hne⟩
  · have hclosed : ∀ c ∈ conduits, c.src = .ops → c.dst = .control →
        (c.dport = 8443 → ewsHost ∈ c.host) ∧
          (c.dport = 20000 ∨ c.dport = 4840 ∨ c.dport = 102 → insiderHost ∈ c.host) := by decide
    rintro ⟨rfl, rfl, hports⟩
    constructor
    · rcases hports with ⟨rfl, -⟩ | ⟨rfl | rfl | rfl, -⟩ <;> decide
    · rintro ⟨c, hc, hsrc, hdst, hhost, hport⟩
      obtain ⟨hews, hinsider⟩ := hclosed c hc hsrc.symm hdst.symm
      rw [← hport] at hews hinsider
      rcases hports with ⟨h8443, hne⟩ | ⟨hother, hne⟩
      · exact hne (hhost _ (hews h8443))
      · exact hne (hhost _ (hinsider hother))

/-- What the firewall admits and `CONDUITS` does not permit uses the last conduit. -/
theorem unlistedConduit_iff :
    Admitted sz dz src dport ∧ ¬ isPermitted sz dz .tcp dport = true
      ↔ UnlistedConduit sz dz src dport := by
  constructor
  · rintro ⟨⟨c, hc, hsz, hdz, hhost, hport⟩, hnot⟩
    have hlast : ∀ c ∈ conduits, c ∈ conduits.dropLast ∨
        c = ⟨.dmz, some bastionHost, .ops, 22⟩ := by decide
    rcases hlast c hc with hc | rfl
    · exact absurd (isPermitted_tcp_iff.mpr ⟨c, hc, hsz, hdz, hport⟩) hnot
    · exact ⟨hsz, hdz, hport, hhost _ rfl⟩
  · rintro ⟨rfl, rfl, rfl, rfl⟩
    refine ⟨⟨⟨.dmz, some bastionHost, .ops, 22⟩, by decide, rfl, rfl, ?_, rfl⟩, by decide⟩
    exact fun h hh => Option.some.inj hh

/-- The two tables differ exactly on the source-restricted conduits and on C11. -/
theorem tables_agree_iff (sz dz : Zone) (src : IPv4) (dport : UInt16) :
    (isPermitted sz dz .tcp dport = true ↔ Admitted sz dz src dport)
      ↔ ¬ WrongHost sz dz src dport ∧ ¬ UnlistedConduit sz dz src dport := by
  rw [← wrongHost_iff, ← unlistedConduit_iff]
  tauto

/-- Without an event there is agreement exactly on what the firewall accepts. -/
theorem agrees_of_gateway (hf : OpensFlow p sz dz) (hc : Carries ifs (p.view iif oif .new))
    (hg : p.src ∈ gatewayIps) :
    ((handle p).isSome = true ↔ (forwardChain ifs).verdict (p.view iif oif .new) = .drop)
      ↔ ∃ h, p.transport = .tcp h ∧ Admitted sz dz p.src h.dport := by
  rw [handle_of_gateway hg]
  cases ht : p.transport with
  | tcp h =>
    rw [forward_drops_tcp_iff hf ht hc]
    simp
  | udp _ _ | icmp | other _ =>
    rw [forward_drops_not_tcp hc (by simp [ht])]
    simp

/--
**The telemetry agrees with the firewall exactly on trustworthy packets.**

For a packet that opens a flow between two zones, an event is shipped if and only if the firewall
drops the packet, unless the packet uses a source-restricted conduit from another host, uses the
conduit C11, hides a TCP segment in a tunnel the event is then judged by, or is dropped with an
address of the gateway for its source.
-/
theorem telemetry_agrees_iff (ifs : Zone → Iface) (iif oif : Iface) (p : Packet) (sz dz : Zone)
    (hf : OpensFlow p sz dz) (hc : Carries ifs (p.view iif oif .new)) :
    ((handle p).isSome = true ↔ (forwardChain ifs).verdict (p.view iif oif .new) = .drop)
      ↔ Trustworthy p sz dz := by
  unfold Trustworthy
  by_cases hg : p.src ∈ gatewayIps
  · rw [if_pos hg]
    exact agrees_of_gateway hf hc hg
  rw [if_neg hg]
  cases ht : p.transport with
  | tcp h =>
    -- both sides go by the header of the segment, so only the two tables matter
    have hevent : (handle p).isSome = true ↔ ¬ isPermitted sz dz .tcp h.dport = true := by
      rw [handle_isSome_iff hf hg, flowKey_tcp ht (hf.syn h ht)]
      simp
    rw [hevent, forward_drops_tcp_iff hf ht hc, not_iff_not, tables_agree_iff]
  | udp _ _ | icmp | other _ =>
    -- the firewall drops the packet; the event depends on a TCP segment inside it
    have hdrop : (forwardChain ifs).verdict (p.view iif oif .new) = .drop :=
      forward_drops_not_tcp hc (by simp [ht])
    simp only [hdrop, iff_true]
    cases htcp : p.tcp? with
    | none => simp [handle_isSome_of_no_tcp hf hg htcp]
    | some h =>
      rw [handle_isSome_iff hf hg]
      cases hopen : h.opens <;> simp [flowKey, htcp, hopen]

/-- The opening segment of a connection. -/
def synTo (src dst : IPv4) (dport : UInt16) : Packet :=
  { src := src, dst := dst, transport := .tcp { sport := 40000, dport := dport, flags := 0x02 },
    inner := [] }

theorem opensFlow_synTo {src dst : IPv4} (hs : zoneOf src = some sz) (hd : zoneOf dst = some dz)
    (hne : sz ≠ dz) (hg : dst ∉ gatewayIps) (dport : UInt16) :
    OpensFlow (synTo src dst dport) sz dz := by
  refine ⟨hs, hd, hne, hg, ?_⟩
  intro h hh
  cases hh
  show ((0x02 : UInt16) &&& 0x02 != 0 && (0x02 : UInt16) &&& 0x10 == 0) = true
  decide

theorem carries_labIfs {p : FwPacket} (sz dz : Zone) (hs : zoneOf p.src = some sz)
    (hd : zoneOf p.dst = some dz) (hi : p.iif = labIfs sz) (ho : p.oif = labIfs dz) :
    Carries labIfs p := by
  have hinj : ∀ z z' : Zone, labIfs z = labIfs z' ↔ z' = z := by
    intro z z'
    cases z <;> cases z' <;> decide
  constructor
  · intro z
    rw [hi, hinj, ← zoneOf_eq_some, hs, Option.some.injEq, eq_comm]
  · intro z
    rw [ho, hinj, ← zoneOf_eq_some, hd, Option.some.injEq, eq_comm]

/-- The engineering workstation deploying to a controller: accepted, and no event. -/
theorem telemetry_agrees_ews :
    ((handle (synTo ewsHost ⟨172, 21, 0, 10⟩ 8443)).isSome = true
        ↔ (forwardChain labIfs).verdict
            ((synTo ewsHost ⟨172, 21, 0, 10⟩ 8443).view "eth2" "eth4" .new) = .drop)
      ↔ Trustworthy (synTo ewsHost ⟨172, 21, 0, 10⟩ 8443) .ops .control :=
  telemetry_agrees_iff labIfs "eth2" "eth4" (synTo ewsHost ⟨172, 21, 0, 10⟩ 8443) .ops .control
    (opensFlow_synTo rfl rfl (by decide) (by decide) 8443)
    (carries_labIfs .ops .control rfl rfl rfl rfl)

/--
The historian host opening the deployment port of a controller is dropped without an event: the
table does not know that conduit C5 is closed to it.
-/
theorem telemetry_differs :
    ¬ ∀ (ifs : Zone → Iface) (iif oif : Iface) (p : Packet) (sz dz : Zone), OpensFlow p sz dz →
      Carries ifs (p.view iif oif .new) →
      ((handle p).isSome = true
        ↔ (forwardChain ifs).verdict (p.view iif oif .new) = .drop) := by
  intro h
  have hbad := h labIfs "eth2" "eth4" (synTo ⟨172, 23, 0, 10⟩ ⟨172, 21, 0, 10⟩ 8443) .ops .control
    (opensFlow_synTo rfl rfl (by decide) (by decide) 8443)
    (carries_labIfs .ops .control rfl rfl rfl rfl)
  revert hbad
  decide

end OtLab
