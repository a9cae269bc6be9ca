import OtLab.Firewall.Ruleset

/-!
# Where the script stops

`firewall-rules.sh` may stop early: it exits when an interface was not found, and it can be
interrupted after any command. `failsClosed_iff` says which chains left behind accept no new
inter-zone packet that the completed ruleset drops. An earlier complete run may have seen other
interface names: the container runtime does not keep their order.
-/

namespace OtLab

open Lib

/-! ## The script up to a command -/

/-- What `get_iface` prints for a zone: the interface with its address, or nothing. -/
def getIface (ifs : Zone → Iface) (found : Zone → Bool) (zone : Zone) : String :=
  if found zone then ifs zone else ""

/-- The zones in the order of the detection loop. -/
def detectionLoop : List Zone := [.it, .ops, .supervisory, .control, .dmz]

/-- Every zone passes the check of the detection loop. -/
def Detected (ifs : Zone → Iface) (found : Zone → Bool) : Prop :=
  ∀ zone ∈ detectionLoop, getIface ifs found zone ≠ ""

instance (ifs : Zone → Iface) (found : Zone → Bool) : Decidable (Detected ifs found) :=
  List.decidableBAll _ detectionLoop

/-- The commands the script gets to: none after a failed detection (`exit 1`). -/
def script (ifs : Zone → Iface) (found : Zone → Bool) : List Command :=
  if Detected ifs found then firewallRules (getIface ifs found) else []

/--
What the script finds: the kernel default, or the table of an earlier complete run, which was made
with the interface names of that time.
-/
inductive Start where
  | kernelDefault
  | earlierRun (earlier : Zone → Iface)

def Start.filter : Start → Filter
  | .kernelDefault => OtLab.kernelDefault
  | .earlierRun earlier => installed earlier

/-- The table left behind when the script stops after `k` commands. -/
def leftBehind (ifs : Zone → Iface) (found : Zone → Bool) (start : Start) (k : Nat) :
    Option Filter :=
  Command.runAll ((script ifs found).take k) start.filter

/-- The packet goes from one zone to another, through their interfaces. -/
def InterZone (ifs : Zone → Iface) (p : FwPacket) : Prop :=
  ∃ a b, a ≠ b ∧ zoneOf p.src = some a ∧ zoneOf p.dst = some b ∧ p.iif = ifs a ∧ p.oif = ifs b

/-- A new inter-zone packet is accepted only if the completed ruleset accepts it. -/
def FailsClosed (ifs : Zone → Iface) (found : Zone → Bool) (start : Start) (k : Nat) : Prop :=
  ∃ f, leftBehind ifs found start k = some f ∧
    ∀ p, p.state = .new → InterZone ifs p →
      f.forward.verdict p = .accept → (installed ifs).forward.verdict p = .accept

variable {ifs : Zone → Iface} {found : Zone → Bool}

/-- When the detection succeeds it found every interface. -/
theorem Detected.getIface_eq (h : Detected ifs found) : getIface ifs found = ifs := by
  funext zone
  have hmem : zone ∈ detectionLoop := by cases zone <;> decide
  have hne := h zone hmem
  unfold getIface at hne ⊢
  split
  · rfl
  · next hf => exact absurd (if_neg hf) hne

theorem script_of_detected (h : Detected ifs found) : script ifs found = firewallRules ifs := by
  rw [script, if_pos h, h.getIface_eq]

/-! ## Appends -/

/-- The rules that commands append to `FORWARD`. -/
def forwardAppends : List Command → List Rule :=
  List.filterMap fun
    | .append .forward r => some r
    | _ => none

theorem forwardAppends_cons (cmd : Command) (cmds : List Command) :
    forwardAppends (cmd :: cmds) = forwardAppends [cmd] ++ forwardAppends cmds :=
  List.filterMap_append (l := [cmd])

/-- A command that only appends, or sets a policy other than that of `FORWARD`. -/
def Appends : Command → Prop
  | .append _ _ => True
  | .policy n _ => n ≠ .forward
  | _ => False

instance : DecidablePred Appends
  | .append _ _ => inferInstanceAs (Decidable True)
  | .policy n _ => inferInstanceAs (Decidable (n ≠ .forward))
  | .flush | .deleteChains | .natFlush | .natDeleteChains | .insert _ _ | .delete _ _ =>
    inferInstanceAs (Decidable False)

/-- The effect on `FORWARD` of one such command. -/
theorem run_forward_of_appends {cmd : Command} (h : Appends cmd) (f : Filter) :
    ∃ g, cmd.run f = some g ∧
      g.forward = ⟨f.forward.policy, f.forward.rules ++ forwardAppends [cmd]⟩ := by
  cases cmd with
  | append n r => cases n <;> exact ⟨_, rfl, by simp [Filter.set, Filter.get, forwardAppends]⟩
  | policy n v =>
    cases n with
    | forward => exact absurd rfl h
    | input => exact ⟨_, rfl, by simp [Filter.set, forwardAppends]⟩
    | output => exact ⟨_, rfl, by simp [Filter.set, forwardAppends]⟩
  | flush | deleteChains | natFlush | natDeleteChains | insert | delete => exact absurd h id

theorem runAll_forward_of_appends {cmds : List Command} (h : ∀ cmd ∈ cmds, Appends cmd)
    (f : Filter) :
    ∃ g, Command.runAll cmds f = some g ∧
      g.forward = ⟨f.forward.policy, f.forward.rules ++ forwardAppends cmds⟩ := by
  induction cmds generalizing f with
  | nil => exact ⟨f, rfl, by simp [forwardAppends]⟩
  | cons cmd cmds ih =>
    obtain ⟨g, hg, hforward⟩ := run_forward_of_appends (h cmd (by simp)) f
    obtain ⟨g', hg', hforward'⟩ := ih (fun c hc => h c (by simp [hc])) g
    refine ⟨g', ?_, ?_⟩
    · rw [Command.runAll, List.foldlM_cons, hg]
      exact hg'
    · rw [hforward', hforward, forwardAppends_cons cmd cmds, List.append_assoc]

/-! ## The commands of the script -/

/-- The commands up to `iptables -P FORWARD DROP`. -/
def resetCommands : List Command :=
  [.flush, .deleteChains, .natFlush, .natDeleteChains, .policy .input .drop,
    .policy .forward .drop]

/-- The commands after it. -/
def ruleCommands (ifs : Zone → Iface) : List Command := (firewallRules ifs).drop 6

theorem firewallRules_eq (ifs : Zone → Iface) :
    firewallRules ifs = resetCommands ++ ruleCommands ifs := rfl

theorem appends_of_mem_ruleCommands : ∀ cmd ∈ ruleCommands ifs, Appends cmd := by
  intro cmd hmem
  simp only [ruleCommands, firewallRules, List.cons_append, List.nil_append,
    List.drop_succ_cons, List.drop_zero, List.mem_cons, List.mem_append, List.mem_map,
    List.not_mem_nil, or_false] at hmem
  rcases hmem with rfl | rfl | rfl | rfl | rfl | rfl | ⟨c, -, rfl⟩ | rfl <;>
    simp [Appends]

theorem forwardAppends_ruleCommands (ifs : Zone → Iface) :
    forwardAppends (ruleCommands ifs) = forwardRules ifs := rfl

/-- `FORWARD` drops by policy, and its rules are the first ones of the completed ruleset. -/
def DropsEarly (ifs : Zone → Iface) (f : Filter) : Prop :=
  ∃ l, l <+: forwardRules ifs ∧ f.forward = ⟨.drop, l⟩

/-- After the policy of `FORWARD` is set, whatever the table was before. -/
theorem dropsEarly_of_six {k : Nat} (h : Detected ifs found) (hk : 6 ≤ k) (start : Start) :
    ∃ f, leftBehind ifs found start k = some f ∧ DropsEarly ifs f := by
  have htake : (firewallRules ifs).take k = resetCommands ++ (ruleCommands ifs).take (k - 6) := by
    rw [firewallRules_eq, List.take_append, List.take_of_length_le hk]
    rfl
  obtain ⟨f, hf, hreset⟩ : ∃ f, Command.runAll resetCommands start.filter = some f ∧
      f.forward = ⟨.drop, []⟩ := by
    cases start <;> exact ⟨_, rfl, rfl⟩
  have happends : ∀ cmd ∈ (ruleCommands ifs).take (k - 6), Appends cmd :=
    fun cmd hmem => appends_of_mem_ruleCommands cmd (List.mem_of_mem_take hmem)
  obtain ⟨g, hg, hforward⟩ := runAll_forward_of_appends happends f
  refine ⟨g, ?_, forwardAppends ((ruleCommands ifs).take (k - 6)), ?_, ?_⟩
  · rw [leftBehind, script_of_detected h, htake, Command.runAll, List.foldlM_append]
    exact Option.bind_eq_some_iff.mpr ⟨f, hf, hg⟩
  · rw [← forwardAppends_ruleCommands]
    exact (List.take_prefix _ _).filterMap _
  · rw [hforward, hreset, List.nil_append]

/-- A later run of the script: after the flush the policy of the earlier run drops everything. -/
theorem dropsEarly_of_flush {k : Nat} (h : Detected ifs found) (hk : 1 ≤ k)
    (earlier : Zone → Iface) :
    ∃ f, leftBehind ifs found (.earlierRun earlier) k = some f ∧ DropsEarly ifs f := by
  rcases Nat.lt_or_ge k 6 with hlt | hge
  · have hempty : ([] : List Rule) <+: forwardRules ifs := List.nil_prefix
    unfold leftBehind
    rw [script_of_detected h]
    match k, hk, hlt with
    | 1, _, _ | 2, _, _ | 3, _, _ | 4, _, _ | 5, _, _ => exact ⟨_, rfl, [], hempty, rfl⟩
  · exact dropsEarly_of_six h hge _

/-- Without a flush the table stays as it was. -/
theorem leftBehind_of_not_flushed {k : Nat} (h : ¬ (Detected ifs found ∧ 1 ≤ k)) (start : Start) :
    leftBehind ifs found start k = some start.filter := by
  by_cases hd : Detected ifs found
  · obtain rfl : k = 0 := Nat.lt_one_iff.mp (Nat.lt_of_not_le fun hk => h ⟨hd, hk⟩)
    rfl
  · rw [leftBehind, script, if_neg hd, List.take_nil]
    rfl

/-- From the kernel default nothing is dropped before the policy is set. -/
theorem accepts_all {k : Nat} (h : ¬ (Detected ifs found ∧ 6 ≤ k)) :
    ∃ f, leftBehind ifs found .kernelDefault k = some f ∧ f.forward = ⟨.accept, []⟩ := by
  by_cases hd : Detected ifs found
  · have hk : k < 6 := Nat.lt_of_not_le fun hk => h ⟨hd, hk⟩
    unfold leftBehind
    rw [script_of_detected hd]
    match k, hk with
    | 0, _ | 1, _ | 2, _ | 3, _ | 4, _ | 5, _ => exact ⟨_, rfl, rfl⟩
  · refine ⟨kernelDefault, ?_, rfl⟩
    rw [leftBehind, script, if_neg hd, List.take_nil]
    rfl

/-! ## What gets in -/

/-- A first part of the rules accepts no more than all of them. -/
theorem accepts_of_dropsEarly {f : Filter} (h : DropsEarly ifs f) {p : FwPacket}
    (hp : f.forward.verdict p = .accept) : (installed ifs).forward.verdict p = .accept := by
  obtain ⟨l, ⟨rest, hrest⟩, hf⟩ := h
  rw [hf] at hp
  have hne : firstMatch Rule.judge .drop l p ≠ .drop := by
    intro hdrop
    rw [Chain.verdict, hdrop] at hp
    cases hp
  show firstMatch Rule.judge .drop (forwardRules ifs) p = .accept
  rw [← hrest, firstMatch_append_of_ne hne]
  exact hp

/-- A UDP datagram from the enterprise network to a controller. -/
def strayDatagram (ifs : Zone → Iface) : FwPacket :=
  { iif := ifs .it, oif := ifs .control, src := ⟨172, 24, 0, 10⟩, dst := ⟨172, 21, 0, 10⟩,
    protocol := 17, icmpType := none, dport := some 502, state := .new }

theorem interZone_strayDatagram : InterZone ifs (strayDatagram ifs) := by
  refine ⟨.it, .control, by decide, ?_, ?_, rfl, rfl⟩
  · show zoneOf ⟨172, 24, 0, 10⟩ = some .it
    decide
  · show zoneOf ⟨172, 21, 0, 10⟩ = some .control
    decide

theorem strayDatagram_not_accepted :
    (installed ifs).forward.verdict (strayDatagram ifs) ≠ .accept := by
  intro h
  obtain ⟨c, -, -, -, -, htcp, -⟩ :=
    (forward_accepts_iff_passes (by simp [strayDatagram]) (by simp [strayDatagram])).mp h
  exact absurd htcp (show (17 : UInt8) ≠ 6 by decide)

/-! ## The rules of an earlier run -/

/--
What the conduit rules of an earlier run open between the zones that have their interfaces now,
some conduit opens between these zones as well.
-/
def Kept (ifs earlier : Zone → Iface) : Prop :=
  ∀ c ∈ conduits, ∀ a b, a ≠ b → ifs a = earlier c.src → ifs b = earlier c.dst →
    (∀ h ∈ c.host, zoneOf h = some a) →
    ∃ c' ∈ conduits, ifs c'.src = ifs a ∧ ifs c'.dst = ifs b ∧ c'.dport = c.dport ∧
      ∀ h ∈ c'.host, c.host = some h

/-- In particular when the interfaces have kept their names. -/
theorem Kept.refl (ifs : Zone → Iface) : Kept ifs ifs :=
  fun c hc _ _ _ ha hb _ => ⟨c, hc, ha.symm, hb.symm, rfl, fun _ hh => hh⟩

/-- A host of each zone that no conduit is restricted to. -/
def plainHost : Zone → IPv4
  | .it => ⟨172, 24, 0, 10⟩
  | .dmz => ⟨172, 25, 0, 10⟩
  | .ops => ⟨172, 23, 0, 10⟩
  | .supervisory => ⟨172, 22, 0, 10⟩
  | .control => ⟨172, 21, 0, 10⟩

theorem zoneOf_plainHost (z : Zone) : zoneOf (plainHost z) = some z := by
  cases z <;> decide

theorem plainHost_not_restricted (z : Zone) : ∀ c ∈ conduits, plainHost z ∉ c.host := by
  cases z <;> decide

/-- The first packet of a connection that a conduit rule of the earlier run is about. -/
def earlierPacket (ifs : Zone → Iface) (c : Conduit) (a b : Zone) : FwPacket :=
  { iif := ifs a, oif := ifs b, src := c.host.getD (plainHost a), dst := plainHost b,
    protocol := tcpProtocol, icmpType := none, dport := some c.dport, state := .new }

theorem interZone_earlierPacket {c : Conduit} {a b : Zone} (hne : a ≠ b)
    (hhost : ∀ h ∈ c.host, zoneOf h = some a) : InterZone ifs (earlierPacket ifs c a b) := by
  refine ⟨a, b, hne, ?_, zoneOf_plainHost b, rfl, rfl⟩
  show zoneOf (c.host.getD (plainHost a)) = some a
  cases hc : c.host with
  | none => exact zoneOf_plainHost a
  | some h => exact hhost h hc

/-- The rules of an earlier run accept no more than the completed ruleset exactly when `Kept`. -/
theorem kept_iff {earlier : Zone → Iface} :
    (∀ p, p.state = .new → InterZone ifs p → (installed earlier).forward.verdict p = .accept →
      (installed ifs).forward.verdict p = .accept) ↔ Kept ifs earlier := by
  have hpasses : ∀ (names : Zone → Iface) {p : FwPacket}, p.state = .new →
      ((installed names).forward.verdict p = .accept ↔ ∃ c ∈ conduits, c.Passes names p) :=
    fun names p hn => forward_accepts_iff_passes (by simp [hn]) (by simp [hn])
  constructor
  · intro hclosed c hc a b hne ha hb hhost
    -- a packet this rule is about, from a source that as few rules as possible name
    have hold : c.Passes earlier (earlierPacket ifs c a b) := by
      refine ⟨ha, hb, fun h hh => ?_, rfl, rfl⟩
      show c.host.getD (plainHost a) = h
      rw [Option.mem_def.mp hh, Option.getD_some]
    obtain ⟨c', hc', hi, ho, hsrc, -, hport⟩ := (hpasses ifs rfl).mp
      (hclosed _ rfl (interZone_earlierPacket hne hhost) ((hpasses earlier rfl).mpr ⟨c, hc, hold⟩))
    refine ⟨c', hc', hi.symm, ho.symm, (Option.some.inj hport).symm, fun h hh => ?_⟩
    have hsrc : c.host.getD (plainHost a) = h := hsrc h hh
    cases hcase : c.host with
    | none =>
      -- an unrestricted source would be a host some conduit is restricted to
      rw [hcase, Option.getD_none] at hsrc
      exact absurd (hsrc ▸ hh) (plainHost_not_restricted a c' hc')
    | some h' =>
      rw [hcase, Option.getD_some] at hsrc
      rw [hsrc]
  · intro hkept p hn hzones hp
    obtain ⟨a, b, hne, hsrc, -, hi, ho⟩ := hzones
    obtain ⟨c, hc, hiif, hoif, hhost, htcp, hport⟩ := (hpasses earlier hn).mp hp
    obtain ⟨c', hc', hi', ho', hport', hhost'⟩ := hkept c hc a b hne (hi.symm.trans hiif)
      (ho.symm.trans hoif) fun h hh => by rw [← hhost h hh, hsrc]
    exact (hpasses ifs hn).mpr ⟨c', hc', hi.trans hi'.symm, ho.trans ho'.symm,
      fun h hh => hhost h (hhost' h hh), htcp, by rw [hport, hport']⟩

/-! ## When the script fails closed -/

/--
**The script fails closed exactly when its detection succeeded and it got past
`iptables -P FORWARD DROP`, or it came after a complete run and got past the flush or found rules
that still mean the same.**

This is for every outcome of the detection, every number of commands executed and every names the
interfaces had in the earlier run. On a gateway with the kernel default, a failed detection or an
earlier interruption leaves an empty chain that accepts everything. After a complete run a failed
detection leaves its rules, which name interfaces that may belong to other zones now.
-/
theorem failsClosed_iff (ifs : Zone → Iface) (found : Zone → Bool) (start : Start) (k : Nat) :
    FailsClosed ifs found start k ↔ (Detected ifs found ∧ 6 ≤ k) ∨
      ∃ earlier, start = .earlierRun earlier ∧
        (Kept ifs earlier ∨ (Detected ifs found ∧ 1 ≤ k)) := by
  constructor
  · rintro ⟨f, hf, hclosed⟩
    cases start with
    | earlierRun earlier =>
      -- without the flush the earlier rules are what decides
      refine Or.inr ⟨earlier, rfl, or_iff_not_imp_right.mpr fun hflush => kept_iff.mp ?_⟩
      rw [leftBehind_of_not_flushed hflush] at hf
      obtain rfl : (installed earlier) = f := Option.some.inj hf
      exact hclosed
    | kernelDefault =>
      left
      by_contra hearly
      obtain ⟨g, hg, hopen⟩ := accepts_all hearly
      obtain rfl : f = g := Option.some.inj (hf.symm.trans hg)
      refine strayDatagram_not_accepted (hclosed (strayDatagram ifs) rfl interZone_strayDatagram ?_)
      rw [hopen]
      rfl
  · intro h
    have hearly : (∃ f, leftBehind ifs found start k = some f ∧ DropsEarly ifs f) →
        FailsClosed ifs found start k := fun ⟨f, hf, hearly⟩ =>
      ⟨f, hf, fun p _ _ hp => accepts_of_dropsEarly hearly hp⟩
    rcases h with ⟨hd, hk⟩ | ⟨earlier, rfl, hrest⟩
    · exact hearly (dropsEarly_of_six hd hk start)
    by_cases hflush : Detected ifs found ∧ 1 ≤ k
    · exact hearly (dropsEarly_of_flush hflush.1 hflush.2 earlier)
    · have hkept : Kept ifs earlier := hrest.resolve_right hflush
      exact ⟨_, leftBehind_of_not_flushed hflush _, kept_iff.mpr hkept⟩

/-- `labIfs` with the interfaces of the Enterprise and the Supervisory zone exchanged. -/
def renamedIfs : Zone → Iface
  | .it => labIfs .supervisory
  | .supervisory => labIfs .it
  | zone => labIfs zone

/-- After such a renaming C1 of the earlier run opens Modbus to the Enterprise zone. -/
example : ¬ Kept labIfs renamedIfs := by
  intro h
  obtain ⟨c, hc, hsrc, hdst, hport, -⟩ := h ⟨.supervisory, none, .control, 502⟩ (by decide)
    .it .control (by decide) rfl rfl nofun
  revert c
  decide

/-- The DMZ interface is missing on a fresh gateway: the enterprise network reaches a controller. -/
theorem failed_detection_opens :
    ¬ ∀ ifs found start k, FailsClosed ifs found start k := by
  intro h
  obtain ⟨f, hf, hclosed⟩ := h labIfs (fun zone => decide (zone ≠ .dmz)) .kernelDefault 40
  obtain rfl : kernelDefault = f := Option.some.inj hf
  exact strayDatagram_not_accepted
    (hclosed (strayDatagram labIfs) rfl interZone_strayDatagram rfl)

end OtLab
