import OtLab.Firewall.Iptables

/-!
# The zone firewall

`lab-environment/network-config/firewall-rules.sh`: the commands of the script in their order,
and the filter table a complete run leaves behind. The interface of each zone is the result of
`get_iface`; it is a parameter here.

* `firewallRules_run` — a complete run gives the same table whatever was there before
* `forward_accepts_new_iff` — a new packet is accepted exactly when a conduit admits it
-/

namespace OtLab

open Lib

/-! ## The script -/

/-- The engineering workstation (EWS). -/
def ewsHost : IPv4 := ⟨172, 23, 0, 4⟩

/-- The HMI in the Supervisory zone. -/
def hmiHost : IPv4 := ⟨172, 22, 0, 10⟩

/-- The compromised workstation of the Operations zone. -/
def insiderHost : IPv4 := ⟨172, 23, 0, 20⟩

/-- The jump host of the DMZ. -/
def bastionHost : IPv4 := ⟨172, 25, 0, 11⟩

/-- A TCP conduit: source zone, source host where it is restricted, destination zone and port. -/
structure Conduit where
  src : Zone
  host : Option IPv4
  dst : Zone
  dport : UInt16
deriving DecidableEq, Repr

/-- The conduits of sections 5, 5b and 5c of the script, in its order. -/
def conduits : List Conduit :=
  [ -- C1, C3, C4
    ⟨.supervisory, none, .control, 502⟩,
    ⟨.supervisory, none, .ops, 8086⟩,
    ⟨.it, none, .ops, 8086⟩,
    -- C5 to C8, source-restricted
    ⟨.ops, some ewsHost, .control, 8443⟩,
    ⟨.ops, some insiderHost, .control, 20000⟩,
    ⟨.ops, some insiderHost, .control, 4840⟩,
    ⟨.ops, some insiderHost, .control, 102⟩,
    -- C9 (two rules), C10, C11
    ⟨.it, none, .dmz, 80⟩,
    ⟨.it, none, .dmz, 22⟩,
    ⟨.dmz, none, .supervisory, 8080⟩,
    ⟨.dmz, some bastionHost, .ops, 22⟩ ]

/-- `-m state --state ESTABLISHED,RELATED -j ACCEPT`. -/
def returnTraffic : Rule := { states := some [.established, .related], target := .accept }

/-- The rate-limited `LOG` rule at the end of `FORWARD`. -/
def logDenied : Rule := { limit := some (5, 10), target := .log "FW_DROP: " 4 }

section Script

variable (ifs : Zone → Iface)

/-- The rule of a conduit. -/
def Conduit.rule (c : Conduit) : Rule :=
  { iif := some (ifs c.src)
    oif := some (ifs c.dst)
    src := c.host
    protocol := some tcpProtocol
    dport := some c.dport
    target := .accept }

/-- The rules of `INPUT`. -/
def inputRules : List Rule :=
  [ { iif := some "lo", target := .accept },
    returnTraffic,
    { iif := some (ifs .it), protocol := some icmpProtocol, icmpType := some 8, target := .accept },
    { iif := some (ifs .it), protocol := some tcpProtocol, dport := some 22, target := .accept } ]

/-- The rules of `FORWARD`. -/
def forwardRules : List Rule := returnTraffic :: conduits.map (Conduit.rule ifs) ++ [logDenied]

/-- The `iptables` commands of the script. -/
def firewallRules : List Command :=
  [.flush, .deleteChains, .natFlush, .natDeleteChains,
    .policy .input .drop, .policy .forward .drop, .policy .output .accept,
    .append .input { iif := some "lo", target := .accept },
    .append .input returnTraffic,
    .append .forward returnTraffic,
    .append .input
      { iif := some (ifs .it), protocol := some icmpProtocol, icmpType := some 8,
        target := .accept },
    .append .input
      { iif := some (ifs .it), protocol := some tcpProtocol, dport := some 22,
        target := .accept }]
    ++ conduits.map (fun c => .append .forward (c.rule ifs))
    ++ [.append .forward logDenied]

/-- The `FORWARD` chain the script installs. -/
def forwardChain : Chain := { policy := .drop, rules := forwardRules ifs }

/-- The filter table the script installs. -/
def installed : Filter :=
  { input := { policy := .drop, rules := inputRules ifs }
    forward := forwardChain ifs
    output := { policy := .accept, rules := [] } }

/-- **A complete run of the script gives the same table whatever was there before.** -/
theorem firewallRules_run (f : Filter) :
    Command.runAll (firewallRules ifs) f = some (installed ifs) := rfl

theorem mem_forwardRules {r : Rule} : r ∈ forwardRules ifs ↔
    r = returnTraffic ∨ (∃ c ∈ conduits, c.rule ifs = r) ∨ r = logDenied := by
  simp [forwardRules]

/-- No rule of the script is a containment rule. -/
theorem dropFrom_not_mem_forwardRules (s : IPv4) : dropFrom s ∉ forwardRules ifs := by
  have htarget : ∀ r ∈ forwardRules ifs, r.target ≠ .drop := by
    intro r hr
    rcases (mem_forwardRules ifs).mp hr with rfl | ⟨c, -, rfl⟩ | rfl <;>
      simp [returnTraffic, Conduit.rule, logDenied]
  exact fun h => htarget _ h rfl

end Script

/-- Interface names as they can come out of `get_iface`. -/
def labIfs : Zone → Iface
  | .it => "eth0"
  | .dmz => "eth1"
  | .ops => "eth2"
  | .supervisory => "eth3"
  | .control => "eth4"

/-! ## New packets -/

/-- Each zone's interface carries exactly the packets of its network. -/
structure Carries (ifs : Zone → Iface) (p : FwPacket) : Prop where
  iif : ∀ z, p.iif = ifs z ↔ z.net.contains p.src = true
  oif : ∀ z, p.oif = ifs z ↔ z.net.contains p.dst = true

/-- The conduit admits a packet by its zones, source, protocol and port. -/
def Conduit.Admits (c : Conduit) (p : FwPacket) : Prop :=
  zoneOf p.src = some c.src ∧ zoneOf p.dst = some c.dst ∧ (∀ h ∈ c.host, p.src = h) ∧
    p.protocol = tcpProtocol ∧ p.dport = some c.dport

instance (c : Conduit) (p : FwPacket) : Decidable (c.Admits p) := by
  unfold Conduit.Admits
  infer_instance

variable {ifs : Zone → Iface} {p : FwPacket}

@[simp] theorem conduit_target (ifs : Zone → Iface) (c : Conduit) :
    (c.rule ifs).target = .accept := rfl

/-- The conduit lets a packet through by its interfaces, source, protocol and port. -/
def Conduit.Passes (ifs : Zone → Iface) (c : Conduit) (p : FwPacket) : Prop :=
  p.iif = ifs c.src ∧ p.oif = ifs c.dst ∧ (∀ h ∈ c.host, p.src = h) ∧
    p.protocol = tcpProtocol ∧ p.dport = some c.dport

theorem conduit_hits_iff_passes (c : Conduit) : (c.rule ifs).hits p = true ↔ c.Passes ifs p := by
  simp only [Rule.hits, Conduit.rule, Conduit.Passes, present, Option.all_some, Option.all_none,
    Bool.and_eq_true, Bool.and_true, Bool.true_and, beq_iff_eq, eq_comm (a := p.iif),
    eq_comm (a := p.oif), eq_comm (a := p.protocol)]
  cases c.host with
  | none => simp [and_assoc]
  | some h => simp [and_assoc, eq_comm (a := p.src)]

theorem conduit_hits_iff (hc : Carries ifs p) (c : Conduit) :
    (c.rule ifs).hits p = true ↔ c.Admits p := by
  rw [conduit_hits_iff_passes, Conduit.Passes, Conduit.Admits, hc.iif, hc.oif, zoneOf_eq_some,
    zoneOf_eq_some]

theorem returnTraffic_silent_of_ne (he : p.state ≠ .established) (hr : p.state ≠ .related) :
    returnTraffic.judge p = none := by
  refine Rule.judge_of_not_hits ?_
  simp [Rule.hits, returnTraffic, present, he, hr]

theorem logDenied_silent (p : FwPacket) : logDenied.judge p = none := by
  unfold Rule.judge
  split <;> rfl

theorem conduit_judge_iff (c : Conduit) :
    (c.rule ifs).judge p = some .accept ↔ c.Passes ifs p := by
  rw [← conduit_hits_iff_passes, Rule.judge]
  split
  · next h => simp [h, Target.verdict?]
  · next h => simp [h]

/-- A packet that is no return traffic is accepted exactly when a conduit lets it through. -/
theorem forward_accepts_iff_passes (he : p.state ≠ .established) (hr : p.state ≠ .related) :
    (forwardChain ifs).verdict p = .accept ↔ ∃ c ∈ conduits, c.Passes ifs p := by
  have hall : ∀ r ∈ forwardRules ifs, r.judge p = none ∨ r.judge p = some .accept := by
    intro r hmem
    rcases (mem_forwardRules ifs).mp hmem with rfl | ⟨c, -, rfl⟩ | rfl
    · exact Or.inl (returnTraffic_silent_of_ne he hr)
    · cases hb : (c.rule ifs).hits p with
      | false => exact Or.inl (Rule.judge_of_not_hits hb)
      | true => exact Or.inr (Rule.judge_of_hits hb)
    · exact Or.inl (logDenied_silent p)
  unfold Chain.verdict forwardChain
  rw [firstMatch_eq_iff hall (by simp)]
  constructor
  · rintro ⟨r, hmem, hv⟩
    rcases (mem_forwardRules ifs).mp hmem with rfl | ⟨c, hc, rfl⟩ | rfl
    · rw [returnTraffic_silent_of_ne he hr] at hv
      simp at hv
    · exact ⟨c, hc, conduit_judge_iff c |>.mp hv⟩
    · rw [logDenied_silent] at hv
      simp at hv
  · rintro ⟨c, hc, hpass⟩
    exact ⟨c.rule ifs, (mem_forwardRules ifs).mpr (Or.inr (Or.inl ⟨c, hc, rfl⟩)),
      (conduit_judge_iff c).mpr hpass⟩

/-- **A new packet is accepted exactly when a conduit admits it.** -/
theorem forward_accepts_new_iff (hc : Carries ifs p) (hn : p.state = .new) :
    (forwardChain ifs).verdict p = .accept ↔ ∃ c ∈ conduits, c.Admits p := by
  rw [forward_accepts_iff_passes (by simp [hn]) (by simp [hn])]
  refine exists_congr fun c => and_congr_right fun _ => ?_
  rw [← conduit_hits_iff_passes, conduit_hits_iff hc]

/-- Return traffic of established connections is accepted whatever its addresses and ports. -/
theorem forward_accepts_established (ifs : Zone → Iface) {p : FwPacket}
    (h : p.state = .established) : (forwardChain ifs).verdict p = .accept := by
  have hj : returnTraffic.judge p = some .accept := by
    rw [Rule.judge_of_hits (by simp [Rule.hits, returnTraffic, present, h])]
    rfl
  exact firstMatch_cons_some hj

end OtLab
