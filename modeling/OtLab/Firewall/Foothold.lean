import OtLab.Firewall.Conntrack

/-!
# How far a foothold reaches

An attacker holds a host in some zone, sends any packets from there, with any source address, and
takes a host of another zone by every connection the gateway lets him open into it. Meanwhile
anything else may cross the gateway, and the responder inserts and deletes its rules.

Every conduit leads down the order Enterprise, DMZ, Supervisory, Operations, Control.

* `mem_held_iff` — the zones that can be taken are the ones the conduits lead to
* `foothold_reach` — so a foothold takes exactly the zones below its own, by few crossings
-/

namespace OtLab

open Lib

/-! ## The order of the zones -/

/-- The position of a zone, Control at the bottom. -/
def Zone.rank : Zone → Nat
  | .it => 4
  | .dmz => 3
  | .supervisory => 2
  | .ops => 1
  | .control => 0

/-- Some conduit leads from the one zone to the other. -/
def Adjoins (z z' : Zone) : Prop := ∃ c ∈ conduits, c.src = z ∧ c.dst = z'

instance (z z' : Zone) : Decidable (Adjoins z z') := List.decidableBEx _ conduits

/-- A path of `n` conduits leads from the one zone to the other. -/
inductive Leads (start : Zone) : Nat → Zone → Prop where
  | here : Leads start 0 start
  | cross {n : Nat} {z z' : Zone} : Leads start n z → Adjoins z z' → Leads start (n + 1) z'

/-- **Every conduit leads down.** -/
theorem Adjoins.rank_lt {z z' : Zone} (h : Adjoins z z') : z'.rank < z.rank := by
  revert h
  cases z <;> cases z' <;> decide

/-- A path is no longer than the way down. -/
theorem Leads.length_add_rank_le {start z : Zone} {n : Nat} (h : Leads start n z) :
    n + z.rank ≤ start.rank := by
  induction h with
  | here => exact (Nat.zero_add _).le
  | cross _ ha ih =>
    have := ha.rank_lt
    omega

/-- No path from the Enterprise to Control has a single conduit. -/
theorem Leads.two_le {n : Nat} (h : Leads .it n .control) : 2 ≤ n := by
  rcases h with - | ⟨h', ha⟩
  rcases h' with - | ⟨-, -⟩
  · exact absurd ha (by decide)
  · omega

/-- From every zone a path leads to each zone below it. -/
theorem exists_leads {start z : Zone} (h : z.rank ≤ start.rank) : ∃ n, Leads start n z := by
  have one : ∀ {a b : Zone}, Adjoins a b → ∃ n, Leads a n b := fun ha => ⟨1, .cross .here ha⟩
  have two : ∀ {a b c : Zone}, Adjoins a b → Adjoins b c → ∃ n, Leads a n c :=
    fun ha hb => ⟨2, .cross (.cross .here ha) hb⟩
  revert h
  cases start <;> cases z <;> intro h
  all_goals first
    | exact ⟨0, .here⟩
    | exact absurd h (by decide)
    | exact one (by decide)
    -- Enterprise to Supervisory through the DMZ, to Control and from the DMZ through Operations
    | exact two (b := .dmz) (by decide) (by decide)
    | exact two (b := .ops) (by decide) (by decide)

/-! ## The attacker -/

/-- The gateway, and the zones the attacker holds a host in, with the crossings it took. -/
structure Campaign where
  gateway : Gateway
  held : List (Zone × Nat)

namespace Campaign

/-- Anything at the gateway, or a packet of the attacker from a zone, and into another one. -/
inductive Event where
  | other (e : Gateway.Event)
  | cross (z : Zone) (n : Nat) (z' : Zone) (q : Arrival)

section Campaign

variable (ifs : Zone → Iface)

/-- The attacker holds a host in the zone, and his packet opens a connection into the other. -/
def Takes (c : Campaign) (z : Zone) (n : Nat) (z' : Zone) (q : Arrival) : Prop :=
  (z, n) ∈ c.held ∧ q.packet.iif = ifs z ∧ q.packet.oif = ifs z' ∧ c.gateway.Opens q

instance (c : Campaign) (z : Zone) (n : Nat) (z' : Zone) (q : Arrival) :
    Decidable (c.Takes ifs z n z' q) := by
  unfold Takes
  infer_instance

def step (c : Campaign) : Event → Campaign
  | .other e => { c with gateway := c.gateway.step e }
  | .cross z n z' q =>
    { gateway := c.gateway.step (.packet q)
      held := if c.Takes ifs z n z' q then (z', n + 1) :: c.held else c.held }

/-- A freshly started gateway, and one zone taken without crossing it. -/
def start (z : Zone) : Campaign := ⟨Gateway.start ifs, [(z, 0)]⟩

/-- The gateway is segmented, and conduits lead to every zone that is held. -/
structure Inv (z₀ : Zone) (c : Campaign) : Prop where
  segmented : Gateway.Segmented ifs c.gateway
  held : ∀ f ∈ c.held, Leads z₀ f.2 f.1

end Campaign

variable {ifs : Zone → Iface} {z₀ : Zone} {c : Campaign}

theorem inv_start (ifs : Zone → Iface) (z₀ : Zone) : Inv ifs z₀ (start ifs z₀) where
  segmented := Gateway.segmented_start ifs
  held := by
    intro f hf
    rw [List.mem_singleton.mp hf]
    exact .here

/-- A zone is only taken through a conduit, whatever source address the packet claims. -/
theorem Inv.adjoins (h : Inv ifs z₀ c) (hifs : Function.Injective ifs) {z z' : Zone} {n : Nat}
    {q : Arrival} (ht : c.Takes ifs z n z' q) : Adjoins z z' := by
  obtain ⟨-, hi, ho, hnew, hq⟩ := ht
  obtain ⟨d, hd, hi', ho', -⟩ := h.segmented.passes (by simp [hnew]) (by simp [hnew]) hq
  exact ⟨d, hd, hifs (hi'.symm.trans hi), hifs (ho'.symm.trans ho)⟩

theorem Inv.step (hifs : Function.Injective ifs) (h : Inv ifs z₀ c) (e : Event) :
    Inv ifs z₀ (c.step ifs e) := by
  cases e with
  | other e => exact ⟨h.segmented.step e, h.held⟩
  | cross z n z' q =>
    refine ⟨h.segmented.step (.packet q), fun f hf => ?_⟩
    simp only [Campaign.step] at hf
    split at hf
    · next ht =>
      rcases List.mem_cons.mp hf with rfl | hf
      · exact .cross (h.held _ ht.1) (h.adjoins hifs ht)
      · exact h.held f hf
    · exact h.held f hf

theorem inv_run (hifs : Function.Injective ifs) (z₀ : Zone) (es : List Event) :
    Inv ifs z₀ (run (step ifs) (start ifs z₀) es) :=
  run_invariant (Inv ifs z₀) (fun _ e h _ => h.step hifs e) (inv_start ifs z₀)
    (stepsMeet_of_forall (P := fun _ => True) (fun _ _ => trivial) _)

/-! ## The attacker's way down -/

/-- The first packet of a connection through a conduit. -/
def throughConduit (ifs : Zone → Iface) (d : Conduit) : Arrival :=
  { packet :=
      { iif := ifs d.src, oif := ifs d.dst, src := d.host.getD insiderHost, dst := hmiHost,
        protocol := tcpProtocol, icmpType := none, dport := some d.dport, state := .new }
    sport := some 40000 }

/-- As long as nobody is blocked, the gateway lets it through. -/
theorem opens_throughConduit {g : Gateway} (hg : g.filter = installed ifs) {d : Conduit}
    (hd : d ∈ conduits) : g.Opens (throughConduit ifs d) := by
  refine ⟨rfl, ?_⟩
  unfold Gateway.Forwards
  rw [hg]
  refine (forward_accepts_iff_passes (by simp [throughConduit]) (by simp [throughConduit])).mpr
    ⟨d, hd, rfl, rfl, ?_, rfl, rfl⟩
  intro host hhost
  show d.host.getD insiderHost = host
  rw [Option.mem_def.mp hhost]
  rfl

/-- What a path of conduits leads to can be taken. -/
theorem exists_run_of_leads (ifs : Zone → Iface) {z₀ z : Zone} {n : Nat} (h : Leads z₀ n z) :
    ∃ es, (run (step ifs) (start ifs z₀) es).gateway.filter = installed ifs ∧
      (z, n) ∈ (run (step ifs) (start ifs z₀) es).held := by
  induction h with
  | here => exact ⟨[], rfl, List.mem_singleton_self _⟩
  | @cross n z z' _ ha ih =>
    obtain ⟨es, hfilter, hheld⟩ := ih
    obtain ⟨d, hd, rfl, rfl⟩ := ha
    refine ⟨es ++ [.cross d.src n d.dst (throughConduit ifs d)], ?_⟩
    rw [run_append, run_cons, run_nil]
    generalize run (step ifs) (start ifs z₀) es = c at hfilter hheld
    have hopens := opens_throughConduit hfilter hd
    have htakes : c.Takes ifs d.src n d.dst (throughConduit ifs d) := ⟨hheld, rfl, rfl, hopens⟩
    constructor
    · show (c.gateway.step (.packet (throughConduit ifs d))).filter = _
      rw [Gateway.step_packet, if_pos hopens]
      exact hfilter
    · show _ ∈ if c.Takes ifs d.src n d.dst (throughConduit ifs d) then _ else _
      rw [if_pos htakes]
      exact List.mem_cons_self

/-- **A zone can be taken with `n` crossings exactly when `n` conduits lead to it.** -/
theorem mem_held_iff (hifs : Function.Injective ifs) (z₀ z : Zone) (n : Nat) :
    (∃ es, (z, n) ∈ (run (step ifs) (start ifs z₀) es).held) ↔ Leads z₀ n z := by
  constructor
  · rintro ⟨es, h⟩
    exact (inv_run hifs z₀ es).held _ h
  · intro h
    obtain ⟨es, -, hheld⟩ := exists_run_of_leads ifs h
    exact ⟨es, hheld⟩

/--
**A foothold takes exactly the zones below its own.**

Every zone has an interface of its own. Whatever the attacker sends, whatever else arrives and
whatever the responder does, a zone can be taken from a foothold exactly when it is not above it in
the order Enterprise, DMZ, Supervisory, Operations, Control; no way there crosses the gateway more
often than there are steps down; and none from the Enterprise to Control crosses it only once.
-/
theorem foothold_reach (ifs : Zone → Iface) (hifs : Function.Injective ifs) (z₀ z : Zone) :
    ((∃ es n, (z, n) ∈ (run (step ifs) (start ifs z₀) es).held) ↔ z.rank ≤ z₀.rank) ∧
      ∀ es n, (z, n) ∈ (run (step ifs) (start ifs z₀) es).held →
        n ≤ z₀.rank - z.rank ∧ (z₀ = .it → z = .control → 2 ≤ n) := by
  have hleads : ∀ es n, (z, n) ∈ (run (step ifs) (start ifs z₀) es).held → Leads z₀ n z :=
    fun es n h => (inv_run hifs z₀ es).held (z, n) h
  refine ⟨⟨?_, fun h => ?_⟩, fun es n h => ⟨?_, ?_⟩⟩
  · rintro ⟨es, n, h⟩
    have := (hleads es n h).length_add_rank_le
    omega
  · obtain ⟨n, hn⟩ := exists_leads h
    obtain ⟨es, hes⟩ := (mem_held_iff hifs z₀ z n).mpr hn
    exact ⟨es, n, hes⟩
  · have := (hleads es n h).length_add_rank_le
    omega
  · rintro rfl rfl
    exact (hleads es n h).two_le

/-- A foothold in the DMZ never becomes one in the Enterprise. -/
theorem foothold_reach_dmz :
    ¬ ∃ es n, (Zone.it, n) ∈ (run (step labIfs) (start labIfs .dmz) es).held :=
  mt (foothold_reach labIfs Gateway.labIfs_injective .dmz .it).1.mp (by decide)

end Campaign

end OtLab
