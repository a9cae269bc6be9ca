import OtLab.Response.Responder

/-!
# Containment and `--unblock`

The gateway's `FORWARD` chain, the memory of an armed responder daemon, and `responder.py
--unblock`, which runs as a process of its own: it deletes a rule from the chain and tells the
daemon nothing. The state also carries what an observer would write down, the clock readings and
the offences of every source since its last successful unblock.

The chain and the daemon can disagree about a source in both directions. `Keeps` excludes the
steps at which this matters.

* `containment_consistent` — in runs without such steps an unblock leaves no rule behind and a
  source that offends again is dropped again
* `containment_inconsistent` — without the condition this fails
-/

namespace OtLab.Responder

open Lib

/-! ## The system -/

inductive Event where
  | line (e : Entry)
  | restart (now : ℚ)
  | unblock (s : IPv4)

/-- The clock reading of an event that takes one. -/
def Event.reading : Event → Option ℚ
  | line e => some e.now
  | restart now => some now
  | unblock _ => none

structure Gateway where
  filter : Filter
  daemon : Daemon
  /-- the offences of a source since the last unblock of it that reported ok -/
  since : IPv4 → Option (List ℚ)
  readings : List ℚ

/-- A daemon that was just started on a gateway. -/
def Gateway.start (f : Filter) : Gateway := ⟨f, Daemon.start, fun _ => none, []⟩

/-- The source has a containment rule in the chain. -/
def Gateway.Dropped (g : Gateway) (s : IPv4) : Prop := dropFrom s ∈ g.filter.forward.rules

instance (g : Gateway) (s : IPv4) : Decidable (g.Dropped s) :=
  inferInstanceAs (Decidable (dropFrom s ∈ g.filter.forward.rules))

/-- The configuration with `OT_RESPONDER_ENFORCE=1`. -/
def armed (window : ℚ) (threshold : Nat) : Config := ⟨window, threshold, true⟩

section System

variable (loads : String → Option Json) (window : ℚ) (threshold : Nat)

/-- One event. Every command of the responder runs `iptables` on the gateway's table. -/
def Gateway.step (g : Gateway) : Event → Gateway
  | .line e =>
    let r := handle loads iptables (armed window threshold) (g.daemon, g.filter) e
    { filter := r.2
      daemon := r.1
      since := fun s =>
        if isOffence loads s.str e.line then (g.since s).map (· ++ [e.now]) else g.since s
      readings := g.readings ++ [e.now] }
  | .restart now => { g with daemon := Daemon.start, readings := g.readings ++ [now] }
  | .unblock s =>
    let r := revertDrop iptables s.str g.filter
    { g with
      filter := r.2
      since := if r.1 then Function.update g.since s (some []) else g.since }

/-- `THRESHOLD` of the offences lie within the window that ends at one of them. -/
def Reaches (times : List ℚ) : Prop :=
  ∃ t ∈ times, threshold ≤ (times.filter fun u => u ∈ Set.Ioc (t - window) t).length

instance (times : List ℚ) : Decidable (Reaches window threshold times) :=
  inferInstanceAs (Decidable (∃ t ∈ times, _))

/--
The chain and the daemon's memory are consistent: an unblock that reports ok leaves no rule of the
source, and a source that reached the threshold again since its unblock has one.
-/
def Gateway.Consistent (g : Gateway) (s : IPv4) : Prop :=
  ((revertDrop iptables s.str g.filter).1 = true →
    dropFrom s ∉ (revertDrop iptables s.str g.filter).2.forward.rules) ∧
  (∀ times ∈ g.since s, Reaches window threshold times → g.Dropped s)

/--
The step does not act on a disagreement of chain and memory: an offence of a source in `blocked`
meets its rule, one that makes the daemon block a source meets no rule of it, and a restart
forgets no offence that still counts for a source unblocked earlier.
-/
def Gateway.Keeps (g : Gateway) : Event → Prop
  | .line e => ∀ s : IPv4, isOffence loads s.str e.line = true →
      (Key.str s.str ∈ g.daemon.blocked → g.Dropped s) ∧
      (Key.str s.str ∉ g.daemon.blocked →
        (record g.daemon.state (.str s.str) e.now window threshold).1 = true → ¬ g.Dropped s)
  | .restart now => ∀ s : IPv4, ∀ times ∈ g.since s, ¬ g.Dropped s → ∀ t ∈ times, t ≤ now - window
  | .unblock _ => True

end System

/-! ## What a step does to the chain -/

section Chain

variable {loads : String → Option Json} {window : ℚ} {threshold : Nat} {d : Daemon} {f : Filter}
  {e : Entry} {s : IPv4}

theorem isSome_ipAddress_str (s : IPv4) : (ipAddress s.str).isSome = true := by
  rw [ipAddress_str]
  rfl

/-- `iptables` refuses a source that is no IPv4 address. -/
theorem applyDrop_of_not_ipv4 {t : String} (h : IPv4.parse t.toList = none) :
    (applyDrop iptables t true f).2 = f := by
  simp [applyDrop, iptables, sourceArg, h]

theorem applyDrop_str (s : IPv4) :
    (applyDrop iptables s.str true f).2 = f.withForward (dropFrom s :: f.forward.rules) := by
  simp [applyDrop, iptables_insert]

/-- An offence that fires puts the rule of its source at the head of the chain. -/
theorem handle_filter_of_fires (ho : isOffence loads s.str e.line = true)
    (hf : (view s.str d).fires window threshold e.now = true) :
    (handle loads iptables (armed window threshold) (d, f) e).2
      = f.withForward (dropFrom s :: f.forward.rules) := by
  have hcall : (processLine loads iptables (armed window threshold) e.line e.now d f).called
      = some (.str s.str) := (view_step ho (isSome_ipAddress_str s)).2.mpr hf
  show (processLine ..).world = _
  rw [processLine_world, hcall]
  exact applyDrop_str s

/-- A line leaves the table as it is, or puts the rule of a source that fires at the head. -/
theorem handle_filter_cases :
    (handle loads iptables (armed window threshold) (d, f) e).2 = f ∨
      ∃ s : IPv4, isOffence loads s.str e.line = true ∧
        (view s.str d).fires window threshold e.now = true ∧
        (handle loads iptables (armed window threshold) (d, f) e).2
          = f.withForward (dropFrom s :: f.forward.rules) := by
  have hworld := @processLine_world _ loads iptables (armed window threshold) e.line e.now d f
  cases hcall : (processLine loads iptables (armed window threshold) e.line e.now d f).called with
  | none => exact Or.inl (by rw [hcall] at hworld; exact hworld)
  | some k =>
    rw [hcall] at hworld
    cases k with
    | int n => exact Or.inl hworld
    | str t =>
      cases ht : IPv4.parse t.toList with
      | none => exact Or.inl (hworld.trans (applyDrop_of_not_ipv4 ht))
      | some s =>
        obtain rfl := IPv4.str_of_parse ht
        obtain ⟨-, ho, hf⟩ := fires_of_called hcall
        exact Or.inr ⟨s, ho, hf, handle_filter_of_fires ho hf⟩

/-- The code's own check is the one of the tracker. -/
theorem fires_view {now : ℚ} :
    (view s.str d).fires window threshold now = true ↔
      Key.str s.str ∉ d.blocked ∧
        (record d.state (.str s.str) now window threshold).1 = true := by
  simp [Tracker.fires, view, record, Tracker.prune]

end Chain

/-! ## The unblock process -/

theorem revertDrop_fst (s : IPv4) (f : Filter) :
    (revertDrop iptables s.str f).1 = decide (dropFrom s ∈ f.forward.rules) := by
  simp only [revertDrop, iptables_delete]
  by_cases h : dropFrom s ∈ f.forward.rules <;> simp [h]

theorem revertDrop_rules (s : IPv4) (f : Filter) :
    (revertDrop iptables s.str f).2.forward.rules = f.forward.rules.erase (dropFrom s) := by
  simp only [revertDrop, iptables_delete]
  by_cases h : dropFrom s ∈ f.forward.rules
  · simp [h]
  · simp [h, List.erase_of_not_mem h]

/-! ## The invariant -/

section Invariant

variable {loads : String → Option Json} {window : ℚ} {threshold : Nat} {g : Gateway} {s : IPv4}

/-- A further offence can only reach the threshold in the window that ends at it. -/
theorem Reaches.of_append {times : List ℚ} {now : ℚ} (hle : ∀ t ∈ times, t ≤ now)
    (h : Reaches window threshold (times ++ [now])) :
    Reaches window threshold times ∨ threshold ≤ (inWindow window now times).length + 1 := by
  obtain ⟨t, ht, hcount⟩ := h
  rw [List.filter_append, List.length_append] at hcount
  rcases List.mem_append.mp ht with ht | ht
  · rcases (hle t ht).eq_or_lt with rfl | hlt
    · right
      rw [inWindow_eq_filter_Ioc hle]
      exact hcount.trans (Nat.add_le_add_left (List.length_filter_le _ [_]) _)
    · left
      have hnil : [now].filter (fun u => decide (u ∈ Set.Ioc (t - window) t)) = [] := by
        simp [hlt]
      rw [hnil] at hcount
      exact ⟨t, ht, hcount⟩
  · right
    obtain rfl := List.mem_singleton.mp ht
    rw [inWindow_eq_filter_Ioc hle]
    exact hcount.trans (Nat.add_le_add_left (List.length_filter_le _ [_]) _)

/--
The invariant for one source: the chain holds at most one rule of it; and without a rule, the
daemon still has every offence since the unblock that a later window can contain.
-/
structure Gateway.Inv (window : ℚ) (threshold : Nat) (g : Gateway) (s : IPv4) : Prop where
  one : g.filter.forward.rules.count (dropFrom s) ≤ 1
  seen : ∀ times ∈ g.since s, ∀ t ∈ times, t ∈ g.readings
  below : ∀ times ∈ g.since s, ¬ g.Dropped s → ¬ Reaches window threshold times
  recorded : ∀ times ∈ g.since s, ¬ g.Dropped s → ∀ now, (∀ t ∈ g.readings, t ≤ now) →
    (inWindow window now times).length
      ≤ (inWindow window now (g.daemon.state (.str s.str))).length

theorem Gateway.dropped_iff_of_count {g' : Gateway}
    (h : g'.filter.forward.rules.count (dropFrom s) = g.filter.forward.rules.count (dropFrom s)) :
    g'.Dropped s ↔ g.Dropped s := by
  unfold Gateway.Dropped
  rw [← List.count_pos_iff, h, List.count_pos_iff]

/-- The invariant is what makes chain and memory consistent. -/
theorem Gateway.Inv.consistent (h : g.Inv window threshold s) :
    g.Consistent window threshold s := by
  refine ⟨fun _ => ?_, fun times htimes hreach => ?_⟩
  · rw [revertDrop_rules, ← List.count_eq_zero, List.count_erase_self]
    have := h.one
    omega
  · by_contra hd
    exact h.below times htimes hd hreach

theorem Gateway.inv_start {f : Filter} (hf : dropFrom s ∉ f.forward.rules) :
    (Gateway.start f).Inv window threshold s where
  one := by
    show f.forward.rules.count (dropFrom s) ≤ 1
    rw [List.count_eq_zero.mpr hf]
    exact Nat.zero_le 1
  seen := nofun
  below := nofun
  recorded := nofun

theorem Gateway.inv_restart {now : ℚ} (h : g.Inv window threshold s)
    (hk : g.Keeps loads window threshold (.restart now)) :
    (g.step loads window threshold (.restart now)).Inv window threshold s where
  one := h.one
  seen := fun times htimes t ht => List.mem_append_left _ (h.seen times htimes t ht)
  below := h.below
  recorded := by
    intro times htimes hd now' hnow'
    have hnone : inWindow window now' times = [] := by
      refine List.filter_eq_nil_iff.mpr fun t ht => ?_
      have hold : t ≤ now - window := hk s times htimes hd t ht
      have hlater : now ≤ now' := hnow' now (List.mem_append_right _ (by simp))
      simp only [decide_eq_true_eq, not_lt]
      exact hold.trans (sub_le_sub_right hlater window)
    rw [hnone]
    exact Nat.zero_le _

/-- A successful unblock of the source starts its list of offences anew. -/
theorem Gateway.since_unblock (g : Gateway) (s s' : IPv4) :
    (g.step loads window threshold (.unblock s')).since s
      = if s = s' ∧ g.Dropped s' then some [] else g.since s := by
  show (if (revertDrop iptables s'.str g.filter).1 = true
    then Function.update g.since s' (some []) else g.since) s = _
  have hok : (revertDrop iptables s'.str g.filter).1 = true ↔ g.Dropped s' := by
    rw [revertDrop_fst, decide_eq_true_iff]
    rfl
  by_cases hd : g.Dropped s'
  · rw [if_pos (hok.mpr hd), Function.update_apply]
    simp only [hd, and_true]
  · rw [if_neg (mt hok.mp hd), if_neg fun h => hd h.2]

theorem Gateway.inv_unblock (h : g.Inv window threshold s) (s' : IPv4) :
    (g.step loads window threshold (.unblock s')).Inv window threshold s := by
  have hrules : (g.step loads window threshold (.unblock s')).filter.forward.rules
      = g.filter.forward.rules.erase (dropFrom s') := revertDrop_rules s' g.filter
  by_cases hs : s = s' ∧ g.Dropped s'
  · obtain ⟨rfl, hd⟩ := hs
    have hsince : (g.step loads window threshold (.unblock s)).since s = some [] := by
      rw [since_unblock, if_pos ⟨rfl, hd⟩]
    refine ⟨?_, ?_, ?_, ?_⟩
    · rw [hrules, List.count_erase_self]
      exact (Nat.sub_le _ 1).trans h.one
    all_goals
      rw [hsince]
      rintro times ⟨⟩
    · exact nofun
    · rintro - ⟨t, ht, -⟩
      exact absurd ht (by simp)
    · exact fun _ _ _ => Nat.zero_le _
  · -- the rules of `s` and its offences stay as they are
    have hcount : (g.step loads window threshold (.unblock s')).filter.forward.rules.count
        (dropFrom s) = g.filter.forward.rules.count (dropFrom s) := by
      rw [hrules]
      by_cases hd : g.Dropped s'
      · exact List.count_erase_of_ne fun heq => hs ⟨dropFrom_injective heq, hd⟩
      · rw [List.erase_of_not_mem hd]
    have hdropped := Gateway.dropped_iff_of_count hcount
    have hsince : (g.step loads window threshold (.unblock s')).since s = g.since s := by
      rw [since_unblock]
      exact if_neg hs
    refine ⟨hcount.le.trans h.one, ?_, ?_, ?_⟩
    all_goals rw [hsince]
    · exact h.seen
    · rw [hdropped]
      exact h.below
    · rw [hdropped]
      exact h.recorded

/-- A line after which nothing fired for `s` keeps the number of its rules. -/
theorem count_handle {d : Daemon} {f : Filter} {e : Entry}
    (h : isOffence loads s.str e.line = true → (view s.str d).fires window threshold e.now ≠ true) :
    (handle loads iptables (armed window threshold) (d, f) e).2.forward.rules.count (dropFrom s)
      = f.forward.rules.count (dropFrom s) := by
  rcases @handle_filter_cases loads window threshold d f e with heq | ⟨s', ho, hf, heq⟩
  · rw [heq]
  · have hne : dropFrom s' ≠ dropFrom s := by
      intro hd
      obtain rfl := dropFrom_injective hd
      exact h ho hf
    rw [heq]
    exact List.count_cons_of_ne hne

/-- A line that is no offence of `s` changes nothing about `s` but the clock. -/
theorem Gateway.inv_line_of_not_offence {e : Entry} (h : g.Inv window threshold s)
    (ho : isOffence loads s.str e.line ≠ true) :
    (g.step loads window threshold (.line e)).Inv window threshold s := by
  have hcount : (g.step loads window threshold (.line e)).filter.forward.rules.count (dropFrom s)
      = g.filter.forward.rules.count (dropFrom s) := count_handle fun ho' => absurd ho' ho
  have hdropped := Gateway.dropped_iff_of_count hcount
  have hsince : (g.step loads window threshold (.line e)).since s = g.since s := if_neg ho
  have hstate : (g.step loads window threshold (.line e)).daemon.state (.str s.str)
      = g.daemon.state (.str s.str) := by
    have hview := @view_handle _ loads iptables (armed window threshold) s.str
      (isSome_ipAddress_str s) (g.daemon, g.filter) e
    rw [if_neg ho] at hview
    exact congrArg Tracker.kept hview
  refine ⟨hcount ▸ h.one, ?_, ?_, ?_⟩
  all_goals rw [hsince]
  · exact fun times htimes t ht => List.mem_append_left _ (h.seen times htimes t ht)
  · rw [hdropped]
    exact h.below
  · rw [hdropped, hstate]
    exact fun times htimes hd now hnow =>
      h.recorded times htimes hd now fun t ht => hnow t (List.mem_append_left _ ht)

theorem Gateway.seen_line_of_offence {e : Entry} (h : g.Inv window threshold s)
    (ho : isOffence loads s.str e.line = true) :
    ∀ times ∈ (g.step loads window threshold (.line e)).since s, ∀ t ∈ times,
      t ∈ (g.step loads window threshold (.line e)).readings := by
  have hsince : (g.step loads window threshold (.line e)).since s
      = (g.since s).map (· ++ [e.now]) := if_pos ho
  rw [hsince]
  rintro _ hmap t ht
  obtain ⟨times, htimes, rfl⟩ := Option.mem_map.mp hmap
  rcases List.mem_append.mp ht with ht | ht
  · exact List.mem_append_left _ (h.seen times htimes t ht)
  · exact List.mem_append_right _ ht

/-- An offence that fires is answered with the first rule of its source. -/
theorem Gateway.inv_line_of_fires {e : Entry} (h : g.Inv window threshold s)
    (ho : isOffence loads s.str e.line = true) (hnd : ¬ g.Dropped s)
    (hf : (view s.str g.daemon).fires window threshold e.now = true) :
    (g.step loads window threshold (.line e)).Inv window threshold s := by
  have hrules : (g.step loads window threshold (.line e)).filter.forward.rules
      = dropFrom s :: g.filter.forward.rules :=
    congrArg (fun f => f.forward.rules) (handle_filter_of_fires ho hf)
  have hd : (g.step loads window threshold (.line e)).Dropped s := by
    unfold Gateway.Dropped
    rw [hrules]
    exact List.mem_cons_self
  refine ⟨?_, seen_line_of_offence h ho, fun _ _ hd' => absurd hd hd',
    fun _ _ hd' => absurd hd hd'⟩
  rw [hrules, List.count_cons_self, List.count_eq_zero.mpr hnd]

/-- An offence of a source that is not in `blocked` is recorded. -/
theorem Gateway.state_line_of_offence {e : Entry} (ho : isOffence loads s.str e.line = true)
    (hnb : Key.str s.str ∉ g.daemon.blocked) :
    (g.step loads window threshold (.line e)).daemon.state (.str s.str)
      = inWindow window e.now (g.daemon.state (.str s.str)) ++ [e.now] := by
  have hfired : (view s.str g.daemon).fired = false := decide_eq_false hnb
  have hview := @view_handle _ loads iptables (armed window threshold) s.str
    (isSome_ipAddress_str s) (g.daemon, g.filter) e
  rw [if_pos ho, Tracker.observe_of_not_fired hfired] at hview
  exact congrArg Tracker.kept hview

/-- One that does not fire has fewer than `THRESHOLD` recorded times. -/
theorem Gateway.few_of_not_fires {now : ℚ} (hnb : Key.str s.str ∉ g.daemon.blocked)
    (hf : (view s.str g.daemon).fires window threshold now ≠ true) :
    (inWindow window now (g.daemon.state (.str s.str))).length + 1 < threshold := by
  simpa [Tracker.fires, hnb, Tracker.prune, view] using hf

/-- An offence that does not fire is recorded, unless the source has a rule already. -/
theorem Gateway.inv_line_of_not_fires {e : Entry} (h : g.Inv window threshold s)
    (hclock : ∀ t ∈ g.readings, t ≤ e.now) (ho : isOffence loads s.str e.line = true)
    (hb : Key.str s.str ∈ g.daemon.blocked → g.Dropped s)
    (hf : (view s.str g.daemon).fires window threshold e.now ≠ true) :
    (g.step loads window threshold (.line e)).Inv window threshold s := by
  have hcount : (g.step loads window threshold (.line e)).filter.forward.rules.count (dropFrom s)
      = g.filter.forward.rules.count (dropFrom s) := count_handle fun _ => hf
  have hdropped := Gateway.dropped_iff_of_count hcount
  have hseen := seen_line_of_offence h ho
  by_cases hd : g.Dropped s
  · exact ⟨hcount ▸ h.one, hseen, fun _ _ hd' => absurd (hdropped.mpr hd) hd',
      fun _ _ hd' => absurd (hdropped.mpr hd) hd'⟩
  -- without a rule the source is not in `blocked`, so the offence is recorded
  have hnb : Key.str s.str ∉ g.daemon.blocked := mt hb hd
  have hsince : (g.step loads window threshold (.line e)).since s
      = (g.since s).map (· ++ [e.now]) := if_pos ho
  refine ⟨hcount ▸ h.one, hseen, ?_, ?_⟩
  all_goals
    rw [hsince]
    rintro _ hmap -
    obtain ⟨times, htimes, rfl⟩ := Option.mem_map.mp hmap
  · intro hreach
    have hle : ∀ t ∈ times, t ≤ e.now := fun t ht => hclock t (h.seen times htimes t ht)
    rcases Reaches.of_append hle hreach with hbefore | hnow
    · exact h.below times htimes hd hbefore
    · have hrecorded := h.recorded times htimes hd e.now hclock
      have hfew := few_of_not_fires hnb hf
      omega
  · intro now hnow
    have hlater : e.now ≤ now := hnow e.now (List.mem_append_right _ (by simp))
    have hrecorded := h.recorded times htimes hd now fun t ht =>
      hnow t (List.mem_append_left _ ht)
    rw [state_line_of_offence ho hnb, inWindow_append, inWindow_append, inWindow_inWindow hlater,
      List.length_append, List.length_append]
    exact Nat.add_le_add_right hrecorded _

/-- A line keeps the invariant, whether or not it is an offence of the source. -/
theorem Gateway.inv_line {e : Entry} (h : g.Inv window threshold s)
    (hclock : ∀ t ∈ g.readings, t ≤ e.now) (hk : g.Keeps loads window threshold (.line e)) :
    (g.step loads window threshold (.line e)).Inv window threshold s := by
  by_cases ho : isOffence loads s.str e.line = true
  · obtain ⟨hblocked, hfresh⟩ := hk s ho
    by_cases hf : (view s.str g.daemon).fires window threshold e.now = true
    · obtain ⟨hnb, hrecord⟩ := fires_view.mp hf
      exact inv_line_of_fires h ho (hfresh hnb hrecord) hf
    · exact inv_line_of_not_fires h hclock ho hblocked hf
  · exact inv_line_of_not_offence h ho

/-- The readings an event brings are not earlier than the ones before. -/
def Gateway.InOrder (g : Gateway) (e : Event) : Prop :=
  ∀ t ∈ g.readings, ∀ now ∈ e.reading, t ≤ now

/-- One step keeps the invariant. -/
theorem Gateway.inv_step {ev : Event} (h : g.Inv window threshold s) (hclock : g.InOrder ev)
    (hk : g.Keeps loads window threshold ev) :
    (g.step loads window threshold ev).Inv window threshold s := by
  cases ev with
  | line e => exact inv_line h (fun t ht => hclock t ht e.now rfl) hk
  | restart now => exact inv_restart h hk
  | unblock s' => exact inv_unblock h s'

theorem Gateway.readings_step (g : Gateway) (ev : Event) :
    (g.step loads window threshold ev).readings = g.readings ++ ev.reading.toList := by
  cases ev with
  | unblock s => exact (List.append_nil _).symm
  | _ => rfl

/-- Along a run whose clock never runs back every step is in order. -/
theorem Gateway.stepsMeet_inOrder {evs : List Event} : ∀ {g : Gateway},
    (g.readings ++ evs.filterMap Event.reading).Pairwise (· ≤ ·) →
      StepsMeet (Gateway.step loads window threshold) Gateway.InOrder g evs := by
  induction evs with
  | nil => exact fun _ => trivial
  | cons ev evs ih =>
    intro g hp
    have hsplit : (ev :: evs).filterMap Event.reading
        = ev.reading.toList ++ evs.filterMap Event.reading := by
      cases ev <;> rfl
    rw [hsplit] at hp
    refine ⟨fun t ht now hnow => ?_, ih ?_⟩
    · refine (List.pairwise_append.mp hp).2.2 t ht now (List.mem_append_left _ ?_)
      exact Option.mem_toList.mpr hnow
    · rw [readings_step, List.append_assoc]
      exact hp

/--
**Chain and memory stay consistent in runs that keep them in step.**

From the table of the script, in every run of lines, restarts and unblocks whose steps all meet
`Keeps`: an unblock that reports ok leaves no rule of its source, and a source with `THRESHOLD`
offences within the window since its last successful unblock has a rule again.
-/
theorem containment_consistent (ifs : Zone → Iface) (evs : List Event)
    (hclock : (evs.filterMap Event.reading).Pairwise (· ≤ ·))
    (hkeeps : StepsMeet (Gateway.step loads window threshold) (Gateway.Keeps loads window threshold)
      (Gateway.start (installed ifs)) evs) (s : IPv4) :
    (run (Gateway.step loads window threshold) (Gateway.start (installed ifs)) evs).Consistent
      window threshold s := by
  have hstart : (Gateway.start (installed ifs)).Inv window threshold s :=
    Gateway.inv_start (dropFrom_not_mem_forwardRules ifs s)
  have hsteps := stepsMeet_and (Gateway.stepsMeet_inOrder (g := Gateway.start (installed ifs))
    hclock) hkeeps
  refine (run_invariant (fun g : Gateway => g.Inv window threshold s) ?_ hstart
    hsteps).consistent
  exact fun _ _ h hc => Gateway.inv_step h hc.1 hc.2

end Invariant

/-- The alert of the attacker's writes, as it is read back. -/
def attackerAlert : String × Json := writeAlert "172.24.0.10"

/-- The attacker writes at a given time. -/
def attackerWrites (now : ℚ) : Event := .line ⟨now, attackerAlert.1⟩

theorem source_attackerAlert {s : IPv4}
    (h : isOffence (loadsOf [attackerAlert]) s.str attackerAlert.1 = true) : s = attackerHost := by
  rw [attackerAlert, isOffence_writeAlert, beq_iff_eq] at h
  have hs : attackerHost.str = s.str := h
  exact (IPv4.str_injective hs).symm

/-- A daemon restarted after the unblock drops the attacker again. -/
theorem containment_consistent_restarted :
    (run (Gateway.step (loadsOf [attackerAlert]) 300 3) (Gateway.start (installed labIfs))
      [attackerWrites 0, attackerWrites 10, attackerWrites 20, .unblock attackerHost, .restart 30,
        attackerWrites 40, attackerWrites 50, attackerWrites 60]).Dropped attackerHost := by
  refine (containment_consistent labIfs _ (by decide +kernel) ?_ attackerHost).2 [40, 50, 60]
    (by decide +kernel) (by decide +kernel)
  refine ⟨?_, ?_, ?_, trivial, ?_, ?_, ?_, ?_, trivial⟩
  case refine_4 =>
    -- only the attacker has been unblocked, and it has no offences since
    intro s times htimes
    rw [Gateway.since_unblock] at htimes
    split at htimes
    · obtain rfl := Option.mem_some_iff.mp htimes
      exact fun _ => nofun
    · simp [Gateway.step, Gateway.start, attackerWrites] at htimes
  all_goals
    intro s ho
    obtain rfl := source_attackerAlert ho
    decide +kernel

/--
A source that is unblocked while the daemon keeps running is never dropped again, so chain and
memory do not stay consistent in every run.
-/
theorem containment_inconsistent :
    ¬ ∀ (loads : String → Option Json) (window : ℚ) (threshold : Nat) (ifs : Zone → Iface)
      (evs : List Event), (evs.filterMap Event.reading).Pairwise (· ≤ ·) → ∀ s : IPv4,
      (run (Gateway.step loads window threshold) (Gateway.start (installed ifs)) evs).Consistent
        window threshold s := by
  intro h
  have hb := (h (loadsOf [attackerAlert]) 300 3 labIfs
    [attackerWrites 0, attackerWrites 10, attackerWrites 20, .unblock attackerHost,
      attackerWrites 30, attackerWrites 40, attackerWrites 50] (by decide +kernel)
    attackerHost).2 [30, 40, 50] (by decide +kernel) (by decide +kernel)
  revert hb
  decide +kernel

end OtLab.Responder
