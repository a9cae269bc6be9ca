import OtLab.Firewall.Containment

/-!
# The stateful gateway

The gateway with its connection table: the first rule of `FORWARD` lets everything through that
the table knows, so what the other rules separate is separated only if the table never gets a
connection they do not admit.

A packet is classified by the table (`Tracked`): an `ESTABLISHED` packet belongs to one of its
connections, in either direction, and a `RELATED` one travels between the interfaces of one.
The responder inserts and deletes containment rules meanwhile.

* `segmented_run` — every entry of the table was admitted by a conduit
* `zones_stay_separated` — what follows for the zones, along every run
-/

namespace OtLab

open Lib

/-! ## The gateway -/

/-- A packet at the gateway: what the filter table sees, and the source port. -/
structure Arrival where
  packet : FwPacket
  sport : Option UInt16
deriving DecidableEq, Repr

namespace Arrival

/-- The packet runs between the interfaces of a connection, given by its first packet. -/
def Between (q first : Arrival) : Prop :=
  (q.packet.iif = first.packet.iif ∧ q.packet.oif = first.packet.oif) ∨
    (q.packet.iif = first.packet.oif ∧ q.packet.oif = first.packet.iif)

/-- Same addresses, protocol and ports as the first packet. -/
def SameTuple (q first : Arrival) : Prop :=
  q.packet.src = first.packet.src ∧ q.packet.dst = first.packet.dst ∧
    q.packet.protocol = first.packet.protocol ∧ q.sport = first.sport ∧
    q.packet.dport = first.packet.dport

/-- Addresses and ports of the first packet exchanged. -/
def ReplyTuple (q first : Arrival) : Prop :=
  q.packet.src = first.packet.dst ∧ q.packet.dst = first.packet.src ∧
    q.packet.protocol = first.packet.protocol ∧ q.sport = first.packet.dport ∧
    q.packet.dport = first.sport

/-- The packet belongs to the connection of a first packet, in either direction. -/
def Belongs (q first : Arrival) : Prop :=
  (q.packet.iif = first.packet.iif ∧ q.packet.oif = first.packet.oif ∧ q.SameTuple first) ∨
    (q.packet.iif = first.packet.oif ∧ q.packet.oif = first.packet.iif ∧ q.ReplyTuple first)

theorem Belongs.between {q first : Arrival} (h : q.Belongs first) : q.Between first := by
  rcases h with ⟨hi, ho, -⟩ | ⟨hi, ho, -⟩
  · exact Or.inl ⟨hi, ho⟩
  · exact Or.inr ⟨hi, ho⟩

end Arrival

/-- The filter table, and the first packets of the connections the gateway knows. -/
structure Gateway where
  filter : Filter
  connections : List Arrival

namespace Gateway

/-- After a complete run of the script, before any packet. -/
def start (ifs : Zone → Iface) : Gateway := ⟨installed ifs, []⟩

/-- The packet is forwarded. -/
def Forwards (g : Gateway) (q : Arrival) : Prop := g.filter.forward.verdict q.packet = .accept

/-- The packet is forwarded as the first one of a connection. -/
def Opens (g : Gateway) (q : Arrival) : Prop := q.packet.state = .new ∧ g.Forwards q

instance (g : Gateway) (q : Arrival) : Decidable (g.Forwards q) := by
  unfold Forwards
  infer_instance

instance (g : Gateway) (q : Arrival) : Decidable (g.Opens q) := by
  unfold Opens
  infer_instance

/-- The state of the packet is the one the connection table gives it. -/
def Tracked (g : Gateway) (q : Arrival) : Prop :=
  match q.packet.state with
  | .established => ∃ first ∈ g.connections, q.Belongs first
  | .related => ∃ first ∈ g.connections, q.Between first
  | .new | .invalid => True

/-- A packet, or a command of the responder with any text for the source. -/
inductive Event where
  | packet (q : Arrival)
  | applyDrop (source : String) (enforce : Bool)
  | revertDrop (source : String)

/-- A first packet that is forwarded enters its connection in the table. -/
def step (g : Gateway) : Event → Gateway
  | .packet q => if g.Opens q then { g with connections := q :: g.connections } else g
  | .applyDrop source enforce =>
    { g with filter := (OtLab.applyDrop iptables source enforce g.filter).2 }
  | .revertDrop source => { g with filter := (OtLab.revertDrop iptables source g.filter).2 }

theorem step_packet (g : Gateway) (q : Arrival) :
    g.step (.packet q) = if g.Opens q then { g with connections := q :: g.connections } else g :=
  rfl

/-! ## The invariant -/

/-- Only containment rules were added, and every connection was admitted by a conduit. -/
structure Segmented (ifs : Zone → Iface) (g : Gateway) : Prop where
  filter : ∃ l, g.filter = blockedAtHead ifs l
  connections : ∀ first ∈ g.connections,
    first.packet.state = .new ∧ ∃ c ∈ conduits, c.Passes ifs first.packet

variable {ifs : Zone → Iface} {g : Gateway} {q : Arrival}

theorem segmented_start (ifs : Zone → Iface) : Segmented ifs (start ifs) where
  filter := ⟨[], rfl⟩
  connections := by simp [start]

/-- What is no return traffic is forwarded through a conduit. -/
theorem Segmented.passes (hg : Segmented ifs g) (he : q.packet.state ≠ .established)
    (hr : q.packet.state ≠ .related) (hq : g.Forwards q) :
    ∃ c ∈ conduits, c.Passes ifs q.packet := by
  obtain ⟨l, hl⟩ := hg.filter
  unfold Forwards at hq
  rw [hl] at hq
  exact (forward_accepts_iff_passes he hr).mp (accepts_of_blockedAtHead hq)

theorem Segmented.step (hg : Segmented ifs g) (e : Event) : Segmented ifs (g.step e) := by
  obtain ⟨l, hl⟩ := hg.filter
  cases e with
  | packet q =>
    rw [step_packet]
    by_cases ho : g.Opens q
    · rw [if_pos ho]
      obtain ⟨hn, hq⟩ := ho
      refine ⟨⟨l, hl⟩, fun first hfirst => ?_⟩
      rcases List.mem_cons.mp hfirst with rfl | hfirst
      · exact ⟨hn, hg.passes (by simp [hn]) (by simp [hn]) hq⟩
      · exact hg.connections first hfirst
    · rw [if_neg ho]
      exact hg
  | applyDrop source enforce =>
    refine ⟨?_, hg.connections⟩
    rw [Gateway.step, hl]
    exact blockedAtHead_applyDrop l source enforce
  | revertDrop source =>
    refine ⟨?_, hg.connections⟩
    rw [Gateway.step, hl]
    exact blockedAtHead_revertDrop l source

/-- Whatever arrives and whatever the responder does, the gateway stays segmented. -/
theorem segmented_run (ifs : Zone → Iface) (es : List Event) :
    Segmented ifs (run step (start ifs) es) :=
  run_invariant (Segmented ifs) (fun _ e hg _ => hg.step e) (segmented_start ifs)
    (stepsMeet_of_forall (P := fun _ => True) (fun _ _ => trivial) _)

/-- **A forwarded packet runs along a conduit**, in its direction or back. -/
theorem Segmented.along_conduit (hg : Segmented ifs g) (ht : g.Tracked q) (hq : g.Forwards q) :
    ∃ c ∈ conduits, (q.packet.iif = ifs c.src ∧ q.packet.oif = ifs c.dst) ∨
      (q.packet.iif = ifs c.dst ∧ q.packet.oif = ifs c.src) := by
  have hback : ∀ first ∈ g.connections, q.Between first → ∃ c ∈ conduits,
      (q.packet.iif = ifs c.src ∧ q.packet.oif = ifs c.dst) ∨
        (q.packet.iif = ifs c.dst ∧ q.packet.oif = ifs c.src) := by
    intro first hfirst hb
    obtain ⟨-, c, hc, hi, ho, -⟩ := hg.connections first hfirst
    exact ⟨c, hc, by rwa [Arrival.Between, hi, ho] at hb⟩
  have hforth : q.packet.state ≠ .established → q.packet.state ≠ .related → ∃ c ∈ conduits,
      (q.packet.iif = ifs c.src ∧ q.packet.oif = ifs c.dst) ∨
        (q.packet.iif = ifs c.dst ∧ q.packet.oif = ifs c.src) := by
    intro he hr
    obtain ⟨c, hc, hi, ho, -⟩ := hg.passes he hr hq
    exact ⟨c, hc, Or.inl ⟨hi, ho⟩⟩
  unfold Tracked at ht
  cases hs : q.packet.state with
  | new => exact hforth (by simp [hs]) (by simp [hs])
  | invalid => exact hforth (by simp [hs]) (by simp [hs])
  | established =>
    rw [hs] at ht
    obtain ⟨first, hfirst, hb⟩ := ht
    exact hback first hfirst hb.between
  | related =>
    rw [hs] at ht
    obtain ⟨first, hfirst, hb⟩ := ht
    exact hback first hfirst hb

/-! ## What is separated -/

/-- No conduit leads to the Enterprise, out of Control, or from Operations past Control. -/
theorem conduits_layered : ∀ c ∈ conduits,
    c.dst ≠ .it ∧ c.src ≠ .control ∧ (c.src = .ops → c.dst = .control) ∧
      (c.src = .it → c.dst ≠ .control) := by
  decide

/--
**The zones stay separated along every run.**

Every zone has an interface of its own. Whatever packets have arrived and whatever containment
commands were run: no packet is forwarded between Enterprise and Control; no connection is opened
from Control, to the Enterprise, or from Operations to a zone other than Control; and every
connection in the table was opened through a conduit.
-/
theorem zones_stay_separated (ifs : Zone → Iface) (hifs : Function.Injective ifs)
    (es : List Event) :
    let g := run step (start ifs) es
    (∀ q, g.Tracked q → g.Forwards q →
      ¬ (q.packet.iif = ifs .it ∧ q.packet.oif = ifs .control) ∧
      ¬ (q.packet.iif = ifs .control ∧ q.packet.oif = ifs .it)) ∧
    (∀ q, g.Opens q → q.packet.iif ≠ ifs .control ∧ q.packet.oif ≠ ifs .it ∧
      (q.packet.iif = ifs .ops → q.packet.oif = ifs .control)) ∧
    ∀ first ∈ g.connections, ∃ c ∈ conduits, (c.rule ifs).hits first.packet = true := by
  intro g
  have hg : Segmented ifs g := segmented_run ifs es
  refine ⟨?_, ?_, ?_⟩
  · intro q ht hq
    obtain ⟨c, hc, hpath⟩ := hg.along_conduit ht hq
    obtain ⟨hdst, hsrc, -, hit⟩ := conduits_layered c hc
    rcases hpath with ⟨hi, ho⟩ | ⟨hi, ho⟩
    · rw [hi, ho]
      exact ⟨fun h => hit (hifs h.1) (hifs h.2), fun h => hsrc (hifs h.1)⟩
    · rw [hi, ho]
      exact ⟨fun h => hdst (hifs h.1), fun h => hit (hifs h.2) (hifs h.1)⟩
  · rintro q ⟨hn, hq⟩
    obtain ⟨c, hc, hi, ho, -⟩ := hg.passes (by simp [hn]) (by simp [hn]) hq
    obtain ⟨hdst, hsrc, hops, -⟩ := conduits_layered c hc
    rw [hi, ho]
    exact ⟨fun h => hsrc (hifs h), fun h => hdst (hifs h), fun h => congrArg ifs (hops (hifs h))⟩
  · intro first hfirst
    obtain ⟨-, c, hc, hpass⟩ := hg.connections first hfirst
    exact ⟨c, hc, (conduit_hits_iff_passes c).mpr hpass⟩

theorem labIfs_injective : Function.Injective labIfs := by
  intro z z' h
  cases z <;> cases z' <;> first | rfl | exact absurd h (by decide)

/-- The HMI opens a Modbus connection to the intake PLC. -/
def hmiToPlc : Arrival :=
  { packet :=
      { iif := labIfs .supervisory, oif := labIfs .control, src := hmiHost,
        dst := ⟨172, 21, 0, 10⟩, protocol := tcpProtocol, icmpType := none, dport := some 502,
        state := .new }
    sport := some 40000 }

/-- The HMI's connection, in the table behind a block of the attacker, was opened through C1. -/
theorem zones_stay_separated_hmi :
    ∃ c ∈ conduits, (c.rule labIfs).hits hmiToPlc.packet = true := by
  have hmem : hmiToPlc ∈ (run step (start labIfs)
      [.packet hmiToPlc, .applyDrop "172.24.0.10" true]).connections := by
    decide
  exact (zones_stay_separated labIfs labIfs_injective _).2.2 hmiToPlc hmem

end Gateway

end OtLab
