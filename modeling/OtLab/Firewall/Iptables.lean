import OtLab.Lib.FirstMatch
import OtLab.Net.Packet

/-!
# The filter table

The part of `iptables` the lab uses: the three built-in chains of the filter table, rules with
the matches of `firewall-rules.sh`, and the commands that change them. A chain is evaluated as
an ordered rule list (`OtLab.Lib.firstMatch`): the first matching rule with a terminating target
decides, `LOG` does not decide, and the policy decides when no rule does.

The arguments of a command line are the ones of `subprocess.run`: a list of strings.
-/

namespace OtLab

open Lib

/-! ## Rules and chains -/

/-- The state of a packet for `-m state`. -/
inductive CtState where
  | new
  | established
  | related
  | invalid
deriving DecidableEq, Repr

inductive Verdict where
  | accept
  | drop
deriving DecidableEq, Repr

inductive Target where
  | accept
  | drop
  /-- `LOG` with its prefix text and level -/
  | log (text : String) (level : Nat)
deriving DecidableEq, Repr

/-- The verdict of a terminating target. -/
def Target.verdict? : Target → Option Verdict
  | .accept => some .accept
  | .drop => some .drop
  | .log .. => none

/-- A network interface, by its name. -/
abbrev Iface := String

def tcpProtocol : UInt8 := 6

def icmpProtocol : UInt8 := 1

/--
A rule of a chain. A match that is `none` is absent from the rule.

`limit` (rate per minute and burst) only throttles the `LOG` rule, which never decides, so
`Rule.hits` does not look at it.
-/
structure Rule where
  states : Option (List CtState) := none
  iif : Option Iface := none
  oif : Option Iface := none
  src : Option IPv4 := none
  protocol : Option UInt8 := none
  icmpType : Option Nat := none
  dport : Option UInt16 := none
  limit : Option (Nat × Nat) := none
  target : Target
deriving DecidableEq, Repr

/-- What the filter table sees of a packet. -/
structure FwPacket where
  iif : Iface
  oif : Iface
  src : IPv4
  dst : IPv4
  protocol : UInt8
  icmpType : Option Nat
  dport : Option UInt16
  state : CtState
deriving DecidableEq, Repr

/-- A match that is present has to hold. -/
def present {α : Type*} (m : Option α) (test : α → Bool) : Bool := m.all test

/-- All matches of the rule hold for the packet. -/
def Rule.hits (r : Rule) (p : FwPacket) : Bool :=
  present r.states (fun l => p.state ∈ l) && present r.iif (· == p.iif)
    && present r.oif (· == p.oif) && present r.src (· == p.src)
    && present r.protocol (· == p.protocol) && present r.icmpType (fun t => p.icmpType == some t)
    && present r.dport (fun d => p.dport == some d)

/-- What a rule says about a packet. -/
def Rule.judge (r : Rule) (p : FwPacket) : Option Verdict :=
  if r.hits p then r.target.verdict? else none

structure Chain where
  policy : Verdict
  rules : List Rule
deriving DecidableEq, Repr

/-- The verdict of a chain on a packet. -/
def Chain.verdict (c : Chain) (p : FwPacket) : Verdict := firstMatch Rule.judge c.policy c.rules p

theorem Rule.judge_of_hits {r : Rule} {p : FwPacket} (h : r.hits p = true) :
    r.judge p = r.target.verdict? := by
  simp [Rule.judge, h]

theorem Rule.judge_of_not_hits {r : Rule} {p : FwPacket} (h : r.hits p = false) :
    r.judge p = none := by
  simp [Rule.judge, h]

/-! ## The rule of a containment -/

/-- `-s <source> -j DROP`. -/
def dropFrom (source : IPv4) : Rule := { src := some source, target := .drop }

theorem dropFrom_injective : Function.Injective dropFrom := by
  intro s t h
  simpa [dropFrom] using h

theorem judge_dropFrom_self {s : IPv4} {p : FwPacket} (h : p.src = s) :
    (dropFrom s).judge p = some .drop := by
  simp [Rule.judge, Rule.hits, present, dropFrom, h, Target.verdict?]

theorem judge_dropFrom_other {s : IPv4} {p : FwPacket} (h : p.src ≠ s) :
    (dropFrom s).judge p = none := by
  have hne : ¬ s = p.src := fun hs => h hs.symm
  simp [Rule.judge, Rule.hits, present, dropFrom, hne]

/-- A containment rule is silent or drops. -/
theorem judge_dropFrom (s : IPv4) (p : FwPacket) :
    (dropFrom s).judge p = none ∨ (dropFrom s).judge p = some .drop := by
  by_cases h : p.src = s
  · exact Or.inr (judge_dropFrom_self h)
  · exact Or.inl (judge_dropFrom_other h)

/-! ## Commands -/

/-- The built-in chains of the filter table. -/
structure Filter where
  input : Chain
  forward : Chain
  output : Chain
deriving DecidableEq, Repr

/-- The kernel default: empty chains that accept. -/
def kernelDefault : Filter :=
  { input := ⟨.accept, []⟩, forward := ⟨.accept, []⟩, output := ⟨.accept, []⟩ }

inductive ChainName where
  | input
  | forward
  | output
deriving DecidableEq, Repr

def Filter.get (f : Filter) : ChainName → Chain
  | .input => f.input
  | .forward => f.forward
  | .output => f.output

def Filter.set (f : Filter) (n : ChainName) (c : Chain) : Filter :=
  match n with
  | .input => { f with input := c }
  | .forward => { f with forward := c }
  | .output => { f with output := c }

/-- The commands of the lab. `natFlush` and `natDeleteChains` are `-t nat -F` and `-t nat -X`. -/
inductive Command where
  | flush
  | deleteChains
  | natFlush
  | natDeleteChains
  | policy (chain : ChainName) (v : Verdict)
  | append (chain : ChainName) (r : Rule)
  | insert (chain : ChainName) (r : Rule)
  | delete (chain : ChainName) (r : Rule)
deriving DecidableEq, Repr

/--
The effect of a command; `none` is a non-zero exit. `-I` inserts at the head, `-D` deletes the
first equal rule and fails when there is none. There are no user chains to delete.
-/
def Command.run (f : Filter) : Command → Option Filter
  | .flush => some
      { input := { f.input with rules := [] }
        forward := { f.forward with rules := [] }
        output := { f.output with rules := [] } }
  | .deleteChains | .natFlush | .natDeleteChains => some f
  | .policy n v => some (f.set n { f.get n with policy := v })
  | .append n r => some (f.set n { f.get n with rules := (f.get n).rules ++ [r] })
  | .insert n r => some (f.set n { f.get n with rules := r :: (f.get n).rules })
  | .delete n r =>
    if r ∈ (f.get n).rules then some (f.set n { f.get n with rules := (f.get n).rules.erase r })
    else none

/-- Runs commands in order, all of which have to succeed. -/
def Command.runAll (cmds : List Command) (f : Filter) : Option Filter :=
  cmds.foldlM Command.run f

/-- The filter with other rules in `FORWARD`. -/
def Filter.withForward (f : Filter) (rules : List Rule) : Filter :=
  { f with forward := { f.forward with rules := rules } }

@[simp] theorem forward_withForward (f : Filter) (rules : List Rule) :
    (f.withForward rules).forward = { f.forward with rules := rules } := rfl

@[simp] theorem withForward_withForward (f : Filter) (l l' : List Rule) :
    (f.withForward l).withForward l' = f.withForward l' := rfl

@[simp] theorem withForward_self (f : Filter) : f.withForward f.forward.rules = f := rfl

/-! ## Command lines -/

/-- What `subprocess.run` reports of a finished command. -/
structure CompletedProcess where
  returncode : Int
  stderr : String
deriving DecidableEq, Repr

/-- The containment command of an argument list, when it is one. -/
def parseArgs : List String → Option (Rule → Command)
  | ["iptables", "-I", "FORWARD", "-s", _, "-j", "DROP"] => some (.insert .forward)
  | ["iptables", "-A", "FORWARD", "-s", _, "-j", "DROP"] => some (.append .forward)
  | ["iptables", "-D", "FORWARD", "-s", _, "-j", "DROP"] => some (.delete .forward)
  | _ => none

/-- The address argument of a containment command. -/
def sourceArg (args : List String) : Option IPv4 := (args[4]?).bind fun s => IPv4.parse s.toList

/--
`subprocess.run` of a containment command on a gateway whose filter table is `f`. An address
that is no IPv4 address is refused by `iptables`, and so is the deletion of a missing rule.
-/
def iptables (args : List String) (f : Filter) : CompletedProcess × Filter :=
  match parseArgs args, sourceArg args with
  | some cmd, some s =>
    match (cmd (dropFrom s)).run f with
    | some f' => (⟨0, ""⟩, f')
    | none => (⟨1, "iptables: Bad rule (does a matching rule exist in that chain?)."⟩, f)
  | _, _ => (⟨2, "iptables: invalid arguments"⟩, f)

theorem sourceArg_str (a b c d : String) (s : IPv4) (rest : List String) :
    sourceArg (a :: b :: c :: d :: s.str :: rest) = some s := by
  simp [sourceArg, IPv4.str, IPv4.parse_chars]

/-- `iptables -I FORWARD -s <s> -j DROP` puts the rule at the head. -/
theorem iptables_insert (s : IPv4) (f : Filter) :
    iptables ["iptables", "-I", "FORWARD", "-s", s.str, "-j", "DROP"] f
      = (⟨0, ""⟩, f.withForward (dropFrom s :: f.forward.rules)) := by
  unfold iptables
  rw [sourceArg_str]
  rfl

/-- `iptables -A FORWARD -s <s> -j DROP` puts the rule at the end. -/
theorem iptables_append (s : IPv4) (f : Filter) :
    iptables ["iptables", "-A", "FORWARD", "-s", s.str, "-j", "DROP"] f
      = (⟨0, ""⟩, f.withForward (f.forward.rules ++ [dropFrom s])) := by
  unfold iptables
  rw [sourceArg_str]
  rfl

/-- `iptables -D FORWARD -s <s> -j DROP` takes out the first such rule, or fails. -/
theorem iptables_delete (s : IPv4) (f : Filter) :
    iptables ["iptables", "-D", "FORWARD", "-s", s.str, "-j", "DROP"] f
      = if dropFrom s ∈ f.forward.rules then
          (⟨0, ""⟩, f.withForward (f.forward.rules.erase (dropFrom s)))
        else (⟨1, "iptables: Bad rule (does a matching rule exist in that chain?)."⟩, f) := by
  unfold iptables
  rw [sourceArg_str]
  by_cases h : dropFrom s ∈ f.forward.rules
  · have hrun : (Command.delete .forward (dropFrom s)).run f
        = some (f.withForward (f.forward.rules.erase (dropFrom s))) := by
      simp [Command.run, Filter.get, Filter.set, h, Filter.withForward]
    simp [parseArgs, hrun, h]
  · have hrun : (Command.delete .forward (dropFrom s)).run f = none := by
      simp [Command.run, Filter.get, h]
    simp [parseArgs, hrun, h]

/-- `-I` with any text for the address: what is no address is refused. -/
theorem iptables_insert_snd (t : String) (f : Filter) :
    (iptables ["iptables", "-I", "FORWARD", "-s", t, "-j", "DROP"] f).2 =
      match IPv4.parse t.toList with
      | some s => f.withForward (dropFrom s :: f.forward.rules)
      | none => f := by
  unfold iptables sourceArg
  cases h : IPv4.parse t.toList with
  | none => simp [h]
  | some s =>
    simp [h]
    rfl

/-- `-D` with any text for the address; a rule that is missing is no rule to take out. -/
theorem iptables_delete_snd (t : String) (f : Filter) :
    (iptables ["iptables", "-D", "FORWARD", "-s", t, "-j", "DROP"] f).2 =
      match IPv4.parse t.toList with
      | some s => f.withForward (f.forward.rules.erase (dropFrom s))
      | none => f := by
  unfold iptables sourceArg
  cases h : IPv4.parse t.toList with
  | none => simp [h]
  | some s =>
    by_cases hm : dropFrom s ∈ f.forward.rules
    · simp [h, parseArgs, Command.run, Filter.get, hm]
      rfl
    · simp [h, parseArgs, Command.run, Filter.get, hm, List.erase_of_not_mem]

end OtLab
