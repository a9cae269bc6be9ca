import OtLab.Firewall.Ruleset
import OtLab.Lib.Run

/-!
# Containment commands

The two ways the lab blocks a source on the gateway: `apply_drop` / `revert_drop` of
`responder.py`, which insert at the head of `FORWARD`, and `block_ip` / `unblock_ip` of the
playbook `auto_block_ip.py`, which append at its end.

* `gateway_block_total_targeted_reversible` — what the responder's commands do to any chain
  reachable by them
* `host_block_changes_no_verdict` — the playbook's rules never change a verdict
* `host_block_never_contains` — so no source is contained by the playbook
-/

namespace OtLab

open Lib

/-! ## The commands -/

section Commands

variable {W : Type*} (subprocessRun : List String → W → CompletedProcess × W)

/-- `responder.apply_drop`: the status text it returns, and the world after the command. -/
def applyDrop (source : String) (enforce : Bool) (w : W) : String × W :=
  if !enforce then ("dry-run", w)
  else
    let result := subprocessRun ["iptables", "-I", "FORWARD", "-s", source, "-j", "DROP"] w
    (if result.1.returncode = 0 then "blocked" else "error: " ++ strip result.1.stderr, result.2)

/-- `responder.revert_drop`. -/
def revertDrop (source : String) (w : W) : Bool × W :=
  let result := subprocessRun ["iptables", "-D", "FORWARD", "-s", source, "-j", "DROP"] w
  (result.1.returncode == 0, result.2)

/-- `auto_block_ip.block_ip`. The words of its command are the ones `shlex.split` gives. -/
def blockIp (ip gateway : String) (dryRun : Bool) (w : W) : Bool × W :=
  if dryRun then (true, w)
  else
    let result := subprocessRun
      ["docker", "exec", gateway, "iptables", "-A", "FORWARD", "-s", ip, "-j", "DROP"] w
    (result.1.returncode == 0, result.2)

/-- `auto_block_ip.unblock_ip`. -/
def unblockIp (ip gateway : String) (dryRun : Bool) (w : W) : Bool × W :=
  if dryRun then (true, w)
  else
    let result := subprocessRun
      ["docker", "exec", gateway, "iptables", "-D", "FORWARD", "-s", ip, "-j", "DROP"] w
    (result.1.returncode == 0, result.2)

end Commands

/-- `docker exec <gateway> <command>` runs the command on the gateway. -/
def dockerExec : List String → Filter → CompletedProcess × Filter
  | "docker" :: "exec" :: _ :: args, f => iptables args f
  | _, f => (⟨127, "command not found"⟩, f)

/-- The gateway container of the playbook's default argument. -/
def otGateway : String := "ot_gateway"

/-! ## Verdicts behind containment rules -/

variable {ifs : Zone → Iface} {p : FwPacket}

/-- A containment rule ahead of a chain drops every packet of its source. -/
theorem verdict_of_dropFrom_mem {l : List IPv4} {rules : List Rule} {policy : Verdict}
    {s : IPv4} (hs : s ∈ l) (hp : p.src = s) :
    (Chain.mk policy (l.map dropFrom ++ rules)).verdict p = .drop := by
  refine firstMatch_append_of_mem (r := dropFrom s) ?_ (List.mem_map_of_mem hs)
    (judge_dropFrom_self hp)
  intro r hr
  obtain ⟨t, -, rfl⟩ := List.mem_map.mp hr
  exact judge_dropFrom t p

/-! ## The responder's commands -/

/-- A containment command of the responder in enforce mode. -/
inductive GatewayOp where
  | applyDrop (s : IPv4)
  | revertDrop (s : IPv4)
deriving DecidableEq, Repr

namespace GatewayOp

def source : GatewayOp → IPv4
  | applyDrop s => s
  | revertDrop s => s

/-- Runs the command; `none` when it does not report success. -/
def exec (f : Filter) : GatewayOp → Option Filter
  | applyDrop s =>
    let r := OtLab.applyDrop iptables s.str true f
    if r.1 = "blocked" then some r.2 else none
  | revertDrop s =>
    let r := OtLab.revertDrop iptables s.str f
    if r.1 then some r.2 else none

/-- Runs commands in order, all of which succeed. -/
def execAll (ops : List GatewayOp) (f : Filter) : Option Filter := ops.foldlM exec f

/-- What the command does to the rules of `FORWARD`. -/
def edit : GatewayOp → HeadEdit Rule
  | applyDrop s => .insert (dropFrom s)
  | revertDrop s => .delete (dropFrom s)

theorem exec_eq (f : Filter) (op : GatewayOp) :
    op.exec f = (op.edit.act f.forward.rules).map f.withForward := by
  cases op with
  | applyDrop s => simp [exec, OtLab.applyDrop, iptables_insert, edit, HeadEdit.act]
  | revertDrop s =>
    simp only [exec, OtLab.revertDrop, iptables_delete, edit, HeadEdit.act]
    by_cases h : dropFrom s ∈ f.forward.rules <;> simp [h]

/-- A command that succeeds puts the rule of its source at the head, or takes one out. -/
theorem exec_cases {op : GatewayOp} {f f' : Filter} (h : op.exec f = some f') :
    (∃ s, op = applyDrop s ∧ f' = f.withForward (dropFrom s :: f.forward.rules)) ∨
      ∃ s, op = revertDrop s ∧ f' = f.withForward (f.forward.rules.erase (dropFrom s)) := by
  rw [exec_eq] at h
  obtain ⟨rules, hrules, rfl⟩ := Option.map_eq_some_iff.mp h
  cases op with
  | applyDrop s =>
    simp only [edit, HeadEdit.act, Option.some.injEq] at hrules
    exact Or.inl ⟨s, rfl, by rw [← hrules]⟩
  | revertDrop s =>
    simp only [edit, HeadEdit.act] at hrules
    split at hrules
    · exact Or.inr ⟨s, rfl, by rw [← Option.some.inj hrules]⟩
    · cases hrules

theorem execAll_eq (ops : List GatewayOp) (f : Filter) :
    execAll ops f = (HeadEdit.actAll (ops.map edit) f.forward.rules).map f.withForward := by
  induction ops generalizing f with
  | nil => simp [execAll]
  | cons op ops ih =>
    show (op.exec f).bind (execAll ops) = _
    rw [exec_eq, List.map_cons, HeadEdit.actAll_cons]
    cases op.edit.act f.forward.rules with
    | none => rfl
    | some l =>
      simp only [Option.map_some, Option.bind_some]
      rw [ih]
      rfl

theorem edit_rule (op : GatewayOp) : op.edit.rule = dropFrom op.source := by
  cases op <;> rfl

end GatewayOp

/-- The table of the script with containment rules for `l` at the head of `FORWARD`. -/
def blockedAtHead (ifs : Zone → Iface) (l : List IPv4) : Filter :=
  (installed ifs).withForward (l.map dropFrom ++ forwardRules ifs)

theorem erase_map_dropFrom (l : List IPv4) (s : IPv4) :
    (l.map dropFrom).erase (dropFrom s) = (l.erase s).map dropFrom :=
  (List.map_erase dropFrom_injective l).symm

/-- Taking out the rule of a source takes out its first containment rule. -/
theorem erase_blockedAtHead (l : List IPv4) (s : IPv4) :
    (l.map dropFrom ++ forwardRules ifs).erase (dropFrom s)
      = (l.erase s).map dropFrom ++ forwardRules ifs := by
  rw [← erase_map_dropFrom]
  by_cases hs : dropFrom s ∈ l.map dropFrom
  · exact List.erase_append_left _ hs
  · rw [List.erase_append_right _ hs, List.erase_of_not_mem hs,
      List.erase_of_not_mem (dropFrom_not_mem_forwardRules ifs s)]

/-- One command keeps the shape of the table. -/
theorem blockedAtHead_step {l : List IPv4} {op : GatewayOp} {f' : Filter}
    (h : op.exec (blockedAtHead ifs l) = some f') : ∃ l', f' = blockedAtHead ifs l' := by
  rcases GatewayOp.exec_cases h with ⟨s, -, rfl⟩ | ⟨s, -, rfl⟩
  · exact ⟨s :: l, rfl⟩
  · exact ⟨l.erase s, congrArg (installed ifs).withForward (erase_blockedAtHead l s)⟩

/-- Whatever text `apply_drop` is called with, the shape of the table is kept. -/
theorem blockedAtHead_applyDrop (l : List IPv4) (t : String) (enforce : Bool) :
    ∃ l', (applyDrop iptables t enforce (blockedAtHead ifs l)).2 = blockedAtHead ifs l' := by
  cases enforce with
  | false => exact ⟨l, rfl⟩
  | true =>
    show ∃ l', (iptables _ (blockedAtHead ifs l)).2 = _
    rw [iptables_insert_snd]
    cases IPv4.parse t.toList with
    | none => exact ⟨l, rfl⟩
    | some s => exact ⟨s :: l, rfl⟩

theorem blockedAtHead_revertDrop (l : List IPv4) (t : String) :
    ∃ l', (revertDrop iptables t (blockedAtHead ifs l)).2 = blockedAtHead ifs l' := by
  show ∃ l', (iptables _ (blockedAtHead ifs l)).2 = _
  rw [iptables_delete_snd]
  cases IPv4.parse t.toList with
  | none => exact ⟨l, rfl⟩
  | some s => exact ⟨l.erase s, congrArg (installed ifs).withForward (erase_blockedAtHead l s)⟩

/-- What is accepted behind containment rules is accepted without them. -/
theorem accepts_of_blockedAtHead {l : List IPv4}
    (h : (blockedAtHead ifs l).forward.verdict p = .accept) :
    (forwardChain ifs).verdict p = .accept := by
  induction l with
  | nil => exact h
  | cons s l ih =>
    by_cases hp : p.src = s
    · have hdrop : (blockedAtHead ifs (s :: l)).forward.verdict p = .drop :=
        verdict_of_dropFrom_mem List.mem_cons_self hp
      rw [hdrop] at h
      cases h
    · have hskip : (blockedAtHead ifs (s :: l)).forward.verdict p
          = (blockedAtHead ifs l).forward.verdict p :=
        firstMatch_cons_none (judge_dropFrom_other hp)
      exact ih (hskip ▸ h)

/-- **Reachable tables**: the responder's commands only stack containment rules at the head. -/
theorem blockedAtHead_of_reachable {ops : List GatewayOp} {l : List IPv4} {f : Filter}
    (h : GatewayOp.execAll ops (blockedAtHead ifs l) = some f) :
    ∃ l', f = blockedAtHead ifs l' := by
  refine foldlM_invariant (fun f => ∃ l, f = blockedAtHead ifs l) ?_ ⟨l, rfl⟩ h
  rintro _ op f' ⟨l, rfl⟩ hstep
  exact blockedAtHead_step hstep

/-- As long as no `revert_drop` of `s` succeeds after `apply_drop(s)`, `s` stays blocked. -/
theorem drop_until_revert {l : List IPv4} {s : IPv4} {ops : List GatewayOp} {f' : Filter}
    (hops : ∀ op ∈ ops, op ≠ .revertDrop s)
    (h : GatewayOp.execAll (.applyDrop s :: ops) (blockedAtHead ifs l) = some f')
    (hp : p.src = s) : f'.forward.verdict p = .drop := by
  have hmem : dropFrom s ∈ f'.forward.rules := by
    rw [GatewayOp.execAll_eq, List.map_cons, HeadEdit.actAll_cons] at h
    obtain ⟨rules, hrules, rfl⟩ := Option.map_eq_some_iff.mp h
    refine HeadEdit.mem_of_actAll ?_ List.mem_cons_self hrules
    intro e he
    obtain ⟨op, hop, rfl⟩ := List.mem_map.mp he
    cases op with
    | applyDrop t => simp [GatewayOp.edit]
    | revertDrop t =>
      have hts : t ≠ s := fun hts => hops _ hop (by rw [hts])
      simpa [GatewayOp.edit] using fun heq => hts (dropFrom_injective heq)
  obtain ⟨l', rfl⟩ := blockedAtHead_of_reachable h
  have hl : s ∈ l' := by
    have := (List.mem_append.mp hmem).resolve_right (dropFrom_not_mem_forwardRules ifs s)
    obtain ⟨t, ht, heq⟩ := List.mem_map.mp this
    exact dropFrom_injective heq ▸ ht
  exact verdict_of_dropFrom_mem hl hp

/-- A containment command does not touch the verdict of other sources. -/
theorem verdict_exec_other {op : GatewayOp} {f f' : Filter} (h : op.exec f = some f')
    (hp : p.src ≠ op.source) : f'.forward.verdict p = f.forward.verdict p := by
  have hj : (dropFrom op.source).judge p = none := judge_dropFrom_other hp
  rcases GatewayOp.exec_cases h with ⟨s, rfl, rfl⟩ | ⟨s, rfl, rfl⟩
  · exact firstMatch_cons_none hj
  · exact firstMatch_erase_none hj

/-- A block is undone by the unblock of the same source, whatever is done to others between. -/
theorem execAll_block_unblock {s : IPv4} {ops : List GatewayOp} (h : ∀ op ∈ ops, op.source ≠ s)
    (f : Filter) :
    GatewayOp.execAll (.applyDrop s :: ops ++ [.revertDrop s]) f = GatewayOp.execAll ops f := by
  rw [GatewayOp.execAll_eq, GatewayOp.execAll_eq]
  congr 1
  have hrule : ∀ e ∈ ops.map GatewayOp.edit, e.rule ≠ dropFrom s := by
    intro e he
    obtain ⟨op, hop, rfl⟩ := List.mem_map.mp he
    rw [GatewayOp.edit_rule]
    exact fun heq => h op hop (dropFrom_injective heq)
  rw [List.map_append]
  exact HeadEdit.actAll_insert_delete hrule f.forward.rules

/--
**The responder's block is total, targeted and reversible.**

From any table the responder's commands lead to: after `apply_drop(s)` every packet of `s` is
dropped until a `revert_drop(s)` succeeds; neither command changes the verdict of a packet of
another source; and block, commands for other sources, unblock gives the table those commands
alone give, so the same verdict on every packet.
-/
theorem gateway_block_total_targeted_reversible (ifs : Zone → Iface) (history : List GatewayOp)
    (f : Filter) (hreach : GatewayOp.execAll history (installed ifs) = some f) (s : IPv4) :
    (∀ ops f', (∀ op ∈ ops, op ≠ .revertDrop s) →
      GatewayOp.execAll (.applyDrop s :: ops) f = some f' →
      ∀ p : FwPacket, p.src = s → f'.forward.verdict p = .drop) ∧
    (∀ op f', op.source = s → GatewayOp.exec f op = some f' →
      ∀ p : FwPacket, p.src ≠ s → f'.forward.verdict p = f.forward.verdict p) ∧
    (∀ ops, (∀ op ∈ ops, op.source ≠ s) →
      GatewayOp.execAll (.applyDrop s :: ops ++ [.revertDrop s]) f = GatewayOp.execAll ops f) := by
  have hstart : installed ifs = blockedAtHead ifs [] := rfl
  rw [hstart] at hreach
  obtain ⟨l, rfl⟩ := blockedAtHead_of_reachable hreach
  refine ⟨?_, ?_, ?_⟩
  · exact fun ops f' hops h p hp => drop_until_revert hops h hp
  · exact fun op f' hop h p hp => verdict_exec_other h (hop ▸ hp)
  · exact fun ops hops => execAll_block_unblock hops _

/-- The attacker's host in the Enterprise zone. -/
def attackerHost : IPv4 := ⟨172, 24, 0, 10⟩

/--
With `insiderHost` blocked already, `attackerHost` is blocked, the insider unblocked and the jump
host blocked, and the attacker unblocked: what is left is the table with the jump host blocked.
-/
theorem gateway_block_total_targeted_reversible_attacker :
    ∃ f, GatewayOp.execAll [.applyDrop insiderHost] (installed labIfs) = some f ∧
      GatewayOp.execAll [.applyDrop attackerHost, .revertDrop insiderHost, .applyDrop bastionHost,
        .revertDrop attackerHost] f = some (blockedAtHead labIfs [bastionHost]) := by
  have hblocked : GatewayOp.execAll [.applyDrop insiderHost] (installed labIfs)
      = some (blockedAtHead labIfs [insiderHost]) := by
    rw [GatewayOp.execAll_eq]
    rfl
  refine ⟨blockedAtHead labIfs [insiderHost], hblocked, ?_⟩
  refine ((gateway_block_total_targeted_reversible labIfs [.applyDrop insiderHost]
    (blockedAtHead labIfs [insiderHost]) hblocked attackerHost).2.2
      [.revertDrop insiderHost, .applyDrop bastionHost] (by decide)).trans ?_
  rw [GatewayOp.execAll_eq]
  rfl

/-! ## The playbook's commands -/

/-- A command of the playbook on the running gateway. -/
inductive HostOp where
  | blockIp (s : IPv4)
  | unblockIp (s : IPv4)
deriving DecidableEq, Repr

namespace HostOp

def source : HostOp → IPv4
  | blockIp s => s
  | unblockIp s => s

/-- Runs the command; `none` when it does not report success. -/
def exec (f : Filter) : HostOp → Option Filter
  | blockIp s =>
    let r := OtLab.blockIp dockerExec s.str otGateway false f
    if r.1 then some r.2 else none
  | unblockIp s =>
    let r := OtLab.unblockIp dockerExec s.str otGateway false f
    if r.1 then some r.2 else none

/-- Runs commands in order, all of which succeed. -/
def execAll (ops : List HostOp) (f : Filter) : Option Filter := ops.foldlM exec f

theorem exec_blockIp (s : IPv4) (f : Filter) :
    exec f (blockIp s) = some (f.withForward (f.forward.rules ++ [dropFrom s])) := by
  simp [exec, OtLab.blockIp, dockerExec, iptables_append]

theorem exec_unblockIp (s : IPv4) (f : Filter) :
    exec f (unblockIp s) = if dropFrom s ∈ f.forward.rules then
      some (f.withForward (f.forward.rules.erase (dropFrom s))) else none := by
  simp only [exec, OtLab.unblockIp, dockerExec, iptables_delete]
  by_cases h : dropFrom s ∈ f.forward.rules <;> simp [h]

end HostOp

/-- The table of the script with containment rules for `l` at the end of `FORWARD`. -/
def blockedAtEnd (ifs : Zone → Iface) (l : List IPv4) : Filter :=
  (installed ifs).withForward (forwardRules ifs ++ l.map dropFrom)

/-- One command keeps the shape of the table. -/
theorem blockedAtEnd_step {l : List IPv4} {op : HostOp} {f' : Filter}
    (h : op.exec (blockedAtEnd ifs l) = some f') : ∃ l', f' = blockedAtEnd ifs l' := by
  cases op with
  | blockIp s =>
    rw [HostOp.exec_blockIp, Option.some.injEq] at h
    refine ⟨l ++ [s], h ▸ ?_⟩
    simp [blockedAtEnd]
  | unblockIp s =>
    rw [HostOp.exec_unblockIp] at h
    split at h
    · rw [Option.some.injEq] at h
      have herase : (blockedAtEnd ifs l).forward.rules.erase (dropFrom s)
          = forwardRules ifs ++ (l.erase s).map dropFrom := by
        rw [← erase_map_dropFrom]
        exact List.erase_append_right _ (dropFrom_not_mem_forwardRules ifs s)
      refine ⟨l.erase s, ?_⟩
      rw [← h, herase]
      rfl
    · simp at h

/-- **Reachable tables**: the playbook's commands only collect containment rules at the end. -/
theorem blockedAtEnd_of_reachable {ops : List HostOp} {l : List IPv4} {f : Filter}
    (h : HostOp.execAll ops (blockedAtEnd ifs l) = some f) : ∃ l', f = blockedAtEnd ifs l' := by
  refine foldlM_invariant (fun f => ∃ l, f = blockedAtEnd ifs l) ?_ ⟨l, rfl⟩ h
  rintro _ op f' ⟨l, rfl⟩ hstep
  exact blockedAtEnd_step hstep

/--
**The playbook's blocks never change a verdict.**

Its rules stand behind every conduit and only repeat the policy.
-/
theorem host_block_changes_no_verdict {history : List HostOp} {f : Filter}
    (hreach : HostOp.execAll history (installed ifs) = some f) (p : FwPacket) :
    f.forward.verdict p = (forwardChain ifs).verdict p := by
  have hstart : installed ifs = blockedAtEnd ifs [] := by simp [blockedAtEnd, installed,
    Filter.withForward, forwardChain]
  rw [hstart] at hreach
  obtain ⟨l, rfl⟩ := blockedAtEnd_of_reachable hreach
  refine firstMatch_append_default ?_
  intro r hr
  obtain ⟨s, -, rfl⟩ := List.mem_map.mp hr
  exact judge_dropFrom s p

/-- The last command of a history that is about `s`. -/
def lastAbout (s : IPv4) (history : List HostOp) : Option HostOp :=
  (history.filter fun op => op.source == s).getLast?

/--
**The playbook contains no source.**

Whatever was blocked and unblocked before, after a successful `block_ip(s)` packets of `s` still
pass: those of an established connection are accepted by the first rule of the chain.
-/
theorem host_block_never_contains (ifs : Zone → Iface) (history : List HostOp) (f : Filter)
    (hreach : HostOp.execAll history (installed ifs) = some f) (s : IPv4)
    (_hlast : lastAbout s history = some (.blockIp s)) :
    ¬ ∀ p : FwPacket, p.src = s → f.forward.verdict p = .drop := by
  intro hdrop
  -- any packet of `s` on a connection that is already established
  let p : FwPacket :=
    { iif := ifs .it, oif := ifs .dmz, src := s, dst := bastionHost, protocol := tcpProtocol,
      icmpType := none, dport := some 22, state := .established }
  have hacc : f.forward.verdict p = .accept := by
    rw [host_block_changes_no_verdict hreach]
    exact forward_accepts_established ifs rfl
  rw [hdrop p rfl] at hacc
  simp at hacc

/-- After `block_ip(172.24.0.10)` that host is not contained. -/
theorem host_block_never_contains_attacker :
    ¬ ∀ p : FwPacket, p.src = attackerHost →
      (blockedAtEnd labIfs [attackerHost]).forward.verdict p = .drop :=
  host_block_never_contains labIfs [.blockIp attackerHost] _ (by decide) attackerHost (by decide)

/--
The blocked attacker still opens a new connection to the jump host over conduit C9, so the
playbook does not contain every source it reports as blocked.
-/
theorem host_block_leaves_conduit_open :
    ¬ ∀ (ifs : Zone → Iface) (history : List HostOp) (f : Filter),
      HostOp.execAll history (installed ifs) = some f → ∀ s : IPv4,
      lastAbout s history = some (.blockIp s) →
      ∀ p : FwPacket, p.src = s → f.forward.verdict p = .drop := by
  intro h
  have hdrop := h labIfs [.blockIp attackerHost] (blockedAtEnd labIfs [attackerHost])
    (by decide) attackerHost (by decide)
    { iif := "eth0", oif := "eth1", src := attackerHost, dst := bastionHost,
      protocol := tcpProtocol, icmpType := none, dport := some 22, state := .new } rfl
  revert hdrop
  decide

end OtLab
