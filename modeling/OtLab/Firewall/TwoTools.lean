import Mathlib.Data.List.Count
import OtLab.Firewall.Containment

/-!
# Two containment tools on one chain

The responder and the playbook work on the same `FORWARD` chain, the one at its head and the other
at its end, and both delete the first rule of a source. What their calls have done is accounted for
by two counters for each source: its containment rules ahead of the conduits, and those behind them.

* `chain_refines_standing` — the chain refines the counters, along every interleaving of calls
-/

namespace OtLab

open Lib

/-! ## The calls -/

/-- A call of one of the tools' functions on the running gateway. -/
inductive ToolCall where
  | applyDrop (s : IPv4) (enforce : Bool)
  | revertDrop (s : IPv4)
  | blockIp (s : IPv4) (dryRun : Bool)
  | unblockIp (s : IPv4) (dryRun : Bool)
deriving DecidableEq, Repr

/-- The filter table after a call, whether it reports success or not. -/
def ToolCall.exec (f : Filter) : ToolCall → Filter
  | applyDrop s enforce => (OtLab.applyDrop iptables s.str enforce f).2
  | revertDrop s => (OtLab.revertDrop iptables s.str f).2
  | blockIp s dryRun => (OtLab.blockIp dockerExec s.str otGateway dryRun f).2
  | unblockIp s dryRun => (OtLab.unblockIp dockerExec s.str otGateway dryRun f).2

/-! ## The account -/

/-- How many containment rules a source has ahead of the conduits, and behind them. -/
structure Standing where
  ahead : IPv4 → Nat
  behind : IPv4 → Nat

namespace Standing

def none : Standing := ⟨fun _ => 0, fun _ => 0⟩

/-- A deletion takes a rule behind the conduits only when there is none ahead of them. -/
def delete (a : Standing) (s : IPv4) : Standing :=
  if a.ahead s = 0 then { a with behind := Function.update a.behind s (a.behind s - 1) }
  else { a with ahead := Function.update a.ahead s (a.ahead s - 1) }

/-- What a call does to the account. -/
def record (a : Standing) : ToolCall → Standing
  | .applyDrop s true => { a with ahead := Function.update a.ahead s (a.ahead s + 1) }
  | .blockIp s false => { a with behind := Function.update a.behind s (a.behind s + 1) }
  | .revertDrop s | .unblockIp s false => a.delete s
  | .applyDrop _ false | .blockIp _ true | .unblockIp _ true => a

end Standing

/-! ## The chain -/

variable {ifs : Zone → Iface} {front back : List IPv4} {a : Standing} {s : IPv4}

/-- The table of the script with containment rules on both sides of its own. -/
def blockedAround (ifs : Zone → Iface) (front back : List IPv4) : Filter :=
  (installed ifs).withForward (front.map dropFrom ++ forwardRules ifs ++ back.map dropFrom)

/-- The rules on both sides are the ones the account counts. -/
structure Accounts (a : Standing) (front back : List IPv4) : Prop where
  ahead : ∀ s, a.ahead s = front.count s
  behind : ∀ s, a.behind s = back.count s

theorem accounts_none : Accounts Standing.none [] [] := ⟨fun _ => rfl, fun _ => rfl⟩

/-- The first rule of a source is ahead of the conduits when it has any there. -/
theorem erase_blockedAround (s : IPv4) :
    (blockedAround ifs front back).forward.rules.erase (dropFrom s) =
      if s ∈ front then (blockedAround ifs (front.erase s) back).forward.rules
      else (blockedAround ifs front (back.erase s)).forward.rules := by
  have hmem : dropFrom s ∈ front.map dropFrom ↔ s ∈ front :=
    List.mem_map_of_injective dropFrom_injective
  have hrules : ∀ front back, (blockedAround ifs front back).forward.rules
      = front.map dropFrom ++ forwardRules ifs ++ back.map dropFrom := fun _ _ => rfl
  rw [hrules, hrules, hrules, List.append_assoc]
  by_cases hs : s ∈ front
  · rw [if_pos hs, List.erase_append_left _ (hmem.mpr hs), erase_map_dropFrom, List.append_assoc]
  · rw [if_neg hs, List.erase_append_right _ (mt hmem.mp hs),
      List.erase_append_right _ (dropFrom_not_mem_forwardRules ifs s), erase_map_dropFrom,
      List.append_assoc]

/-- What a deletion leaves of the chain, whether there was a rule to delete or not. -/
theorem delete_blockedAround (s : IPv4) :
    (iptables ["iptables", "-D", "FORWARD", "-s", s.str, "-j", "DROP"]
        (blockedAround ifs front back)).2 =
      if s ∈ front then blockedAround ifs (front.erase s) back
      else blockedAround ifs front (back.erase s) := by
  have hparse : IPv4.parse s.str.toList = some s := by
    simp [IPv4.str, IPv4.parse_chars]
  rw [iptables_delete_snd, hparse]
  dsimp only
  rw [erase_blockedAround]
  split <;> rfl

theorem exec_applyDrop (s : IPv4) :
    (ToolCall.applyDrop s true).exec (blockedAround ifs front back)
      = blockedAround ifs (s :: front) back := by
  show (iptables _ _).2 = _
  rw [iptables_insert]
  rfl

theorem exec_blockIp (s : IPv4) :
    (ToolCall.blockIp s false).exec (blockedAround ifs front back)
      = blockedAround ifs front (back ++ [s]) := by
  show (iptables _ _).2 = _
  rw [iptables_append]
  unfold blockedAround
  rw [List.map_append, ← List.append_assoc]
  rfl

/-! ## The refinement -/

theorem count_update (l : List IPv4) (s t : IPv4) (n : Nat) :
    Function.update l.count s n t = if t = s then n else l.count t :=
  Function.update_apply _ _ _ _

theorem Accounts.apply (h : Accounts a front back) (s : IPv4) :
    Accounts (a.record (.applyDrop s true)) (s :: front) back := by
  refine ⟨fun t => ?_, h.behind⟩
  show Function.update a.ahead s (a.ahead s + 1) t = _
  rw [funext h.ahead, count_update, List.count_cons]
  by_cases ht : t = s
  · simp [ht]
  · simp [ht, Ne.symm ht]

theorem Accounts.block (h : Accounts a front back) (s : IPv4) :
    Accounts (a.record (.blockIp s false)) front (back ++ [s]) := by
  refine ⟨h.ahead, fun t => ?_⟩
  show Function.update a.behind s (a.behind s + 1) t = _
  rw [funext h.behind, count_update, List.count_append, List.count_singleton]
  by_cases ht : t = s
  · simp [ht]
  · simp [ht, Ne.symm ht]

theorem Accounts.delete (h : Accounts a front back) (s : IPv4) :
    ∃ front' back', Accounts (a.delete s) front' back' ∧
      (iptables ["iptables", "-D", "FORWARD", "-s", s.str, "-j", "DROP"]
        (blockedAround ifs front back)).2 = blockedAround ifs front' back' := by
  have hcount : ∀ (l : List IPv4) (t : IPv4),
      Function.update l.count s (l.count s - 1) t = (l.erase s).count t := by
    intro l t
    rw [count_update, List.count_erase]
    by_cases ht : t = s
    · simp [ht]
    · simp [ht, Ne.symm ht]
  rw [delete_blockedAround]
  unfold Standing.delete
  by_cases hs : s ∈ front
  · rw [if_pos hs, h.ahead, if_neg (List.count_pos_iff.mpr hs).ne']
    refine ⟨front.erase s, back, ⟨fun t => ?_, h.behind⟩, rfl⟩
    show Function.update a.ahead s (front.count s - 1) t = _
    rw [funext h.ahead, hcount]
  · rw [if_neg hs, h.ahead, if_pos (List.count_eq_zero.mpr hs)]
    refine ⟨front, back.erase s, ⟨h.ahead, fun t => ?_⟩, rfl⟩
    show Function.update a.behind s (a.behind s - 1) t = _
    rw [funext h.behind, hcount]

/-- The chain of the gateway is the one the account stands for. -/
def Refines (ifs : Zone → Iface) (f : Filter) (a : Standing) : Prop :=
  ∃ front back, Accounts a front back ∧ f = blockedAround ifs front back

/-- **One call of either tool keeps the chain and the account together.** -/
theorem refines_step (f : Filter) (a : Standing) (c : ToolCall) (h : Refines ifs f a) :
    Refines ifs (c.exec f) (a.record c) := by
  obtain ⟨front, back, ha, rfl⟩ := h
  rcases c with ⟨s, - | -⟩ | s | ⟨s, - | -⟩ | ⟨s, - | -⟩
  · exact ⟨front, back, ha, rfl⟩
  · exact ⟨s :: front, back, ha.apply s, exec_applyDrop s⟩
  · exact ha.delete s
  · exact ⟨front, back ++ [s], ha.block s, exec_blockIp s⟩
  · exact ⟨front, back, ha, rfl⟩
  · exact ha.delete s
  · exact ⟨front, back, ha, rfl⟩

/-- The verdict of the chain goes by the rules ahead of the conduits alone. -/
theorem verdict_blockedAround (p : FwPacket) :
    (blockedAround ifs front back).forward.verdict p =
      if p.src ∈ front then .drop else (forwardChain ifs).verdict p := by
  by_cases hp : p.src ∈ front
  · rw [if_pos hp]
    show (Chain.mk .drop
      (front.map dropFrom ++ forwardRules ifs ++ back.map dropFrom)).verdict p = _
    rw [List.append_assoc]
    exact verdict_of_dropFrom_mem hp rfl
  · rw [if_neg hp]
    have hsilent : ∀ r ∈ front.map dropFrom, r.judge p = none := by
      intro r hr
      obtain ⟨s, hs, rfl⟩ := List.mem_map.mp hr
      exact judge_dropFrom_other fun hsrc => hp (hsrc ▸ hs)
    have hdrop : ∀ r ∈ back.map dropFrom, r.judge p = none ∨ r.judge p = some .drop := by
      intro r hr
      obtain ⟨s, -, rfl⟩ := List.mem_map.mp hr
      exact judge_dropFrom s p
    show firstMatch Rule.judge .drop (front.map dropFrom ++ forwardRules ifs ++ back.map dropFrom) p
      = firstMatch Rule.judge .drop (forwardRules ifs) p
    rw [firstMatch_append_default hdrop, firstMatch_append_none hsilent]

/-- The containment rules of a source in the chain. -/
theorem count_blockedAround (s : IPv4) :
    (blockedAround ifs front back).forward.rules.count (dropFrom s)
      = front.count s + back.count s := by
  have hown : (forwardRules ifs).count (dropFrom s) = 0 :=
    List.count_eq_zero.mpr (dropFrom_not_mem_forwardRules ifs s)
  show (front.map dropFrom ++ forwardRules ifs ++ back.map dropFrom).count (dropFrom s) = _
  rw [List.count_append, List.count_append, hown, Nat.add_zero,
    List.count_map_of_injective _ _ dropFrom_injective,
    List.count_map_of_injective _ _ dropFrom_injective]

/--
**The chain refines the account of the two tools.**

After any interleaving of calls of both tools, failing ones and dry runs included: the chain holds
as many containment rules of a source as the account says; a packet is dropped when its source has
a rule ahead of the conduits, and otherwise gets the verdict of the script's own chain; the other
chains are those of the script. So what one tool does to a source depends on the other tool's
calls for this source alone, and a playbook block counts for nothing while a playbook unblock can
lift the responder's block.
-/
theorem chain_refines_standing (ifs : Zone → Iface) (calls : List ToolCall) :
    let f := run ToolCall.exec (installed ifs) calls
    let a := run Standing.record Standing.none calls
    (∀ s, f.forward.rules.count (dropFrom s) = a.ahead s + a.behind s) ∧
      (∀ p, f.forward.verdict p =
        if a.ahead p.src = 0 then (forwardChain ifs).verdict p else .drop) ∧
      f.input = (installed ifs).input ∧ f.output = (installed ifs).output := by
  intro f a
  have hstart : Refines ifs (installed ifs) Standing.none :=
    ⟨[], [], accounts_none, by simp [blockedAround, installed, Filter.withForward, forwardChain]⟩
  obtain ⟨front, back, ha, hf⟩ : Refines ifs f a :=
    run_lockstep (Refines ifs) (fun c _ f a => refines_step f a c) hstart
  rw [hf]
  refine ⟨fun s => ?_, fun p => ?_, rfl, rfl⟩
  · rw [count_blockedAround, ha.ahead, ha.behind]
  · rw [verdict_blockedAround, ha.ahead]
    by_cases hp : p.src ∈ front
    · rw [if_pos hp, if_neg (List.count_pos_iff.mpr hp).ne']
    · rw [if_neg hp, if_pos (List.count_eq_zero.mpr hp)]

/-- The responder blocks a source, the playbook blocks and unblocks it: the block is lifted. -/
example :
    let a := run Standing.record Standing.none
      [.applyDrop attackerHost true, .blockIp attackerHost false, .unblockIp attackerHost false]
    a.ahead attackerHost = 0 ∧ a.behind attackerHost = 1 := by
  decide

end OtLab
