import OtLab.Response.Unblock

/-!
# Blocks that fail

`process_line` adds a source to `blocked` whatever `apply_drop` returned. With enforcement on and
any outcome of `iptables`, the memory of the daemon says the truth exactly when every DROP command
it issues succeeds.

* `records_iff` — for one line from any state, and for whole runs
-/

namespace OtLab.Responder

open Lib

section Blocks

variable {W : Type*} (loads : String → Option Json)
  (subprocessRun : List String → W → CompletedProcess × W) (window : ℚ) (threshold : Nat)

/-- What `process_line` does with the line, with enforcement on. -/
def outcome (dw : Daemon × W) (e : Entry) : Outcome W :=
  processLine loads subprocessRun (armed window threshold) e.line e.now dw.1 dw.2

/-- `iptables` accepts the DROP command for the source. -/
def DropSucceeds (s : String) (w : W) : Prop :=
  (subprocessRun ["iptables", "-I", "FORWARD", "-s", s, "-j", "DROP"] w).1.returncode = 0

/-- The line is an offence that makes a source reach the threshold which is not in `blocked`. -/
structure Attempts (s : String) (d : Daemon) (e : Entry) : Prop where
  offence : isOffence loads s e.line = true
  unblocked : Key.str s ∉ d.blocked
  address : (ipAddress s).isSome = true
  reached : (record d.state (.str s) e.now window threshold).1 = true

/-- A DROP command that the line makes the daemon issue succeeds. -/
def AttemptSucceeds (dw : Daemon × W) (e : Entry) : Prop :=
  ∀ s, Attempts loads window threshold s dw.1 e → DropSucceeds subprocessRun s dw.2

/-- A failed block is not recorded as a block, and is tried again. -/
structure RecordsBlock (dw : Daemon × W) (e : Entry) : Prop where
  /-- a new source in `blocked` is one for which `apply_drop` returned "blocked" -/
  recorded : ∀ k ∉ dw.1.blocked,
    k ∈ (outcome loads subprocessRun window threshold dw e).daemon.blocked →
      (outcome loads subprocessRun window threshold dw e).called = some k ∧
        (outcome loads subprocessRun window threshold dw e).status = some "blocked"
  unblocked : ∀ k, (outcome loads subprocessRun window threshold dw e).called = some k →
    (outcome loads subprocessRun window threshold dw e).status ≠ some "blocked" →
      k ∉ (outcome loads subprocessRun window threshold dw e).daemon.blocked
  /-- the next offence that still finds enough of them in the window is another attempt -/
  retried : ∀ s, (outcome loads subprocessRun window threshold dw e).called = some (.str s) →
    (outcome loads subprocessRun window threshold dw e).status ≠ some "blocked" →
    ∀ (others : List Entry) (e' : Entry),
      (∀ x ∈ others, isOffence loads s x.line = false) → isOffence loads s e'.line = true →
      (record (outcome loads subprocessRun window threshold dw e).daemon.state (.str s) e'.now
        window threshold).1 = true →
      (outcome loads subprocessRun window threshold
        (run (handle loads subprocessRun (armed window threshold))
          (handle loads subprocessRun (armed window threshold) dw e) others) e').called
        = some (.str s)

/-- The same along a run, in which every source in `blocked` had a DROP command that succeeded. -/
structure RunRecords (w : W) (log : List Entry) : Prop where
  steps : StepsMeet (handle loads subprocessRun (armed window threshold))
    (RecordsBlock loads subprocessRun window threshold) (Daemon.start, w) log
  blocked : ∀ (k : Nat), ∀ key ∈
    (before loads subprocessRun (armed window threshold) w log k).1.blocked,
      ∃ j < k, ∃ s, key = .str s ∧
        callAt loads subprocessRun (armed window threshold) w log j = some (.str s) ∧
        DropSucceeds subprocessRun s
          (before loads subprocessRun (armed window threshold) w log j).2

variable {loads subprocessRun window threshold} {s : String} {dw : Daemon × W} {e : Entry} {w : W}

theorem applyDrop_blocked_iff :
    (applyDrop subprocessRun s true w).1 = "blocked" ↔ DropSucceeds subprocessRun s w := by
  unfold applyDrop DropSucceeds
  rw [if_neg (by simp)]
  dsimp only
  split
  · next h => exact iff_of_true rfl h
  · next h =>
    refine iff_of_false (fun heq => ?_) h
    have hchars := congrArg String.toList heq
    simp at hchars

theorem Attempts.fires (h : Attempts loads window threshold s dw.1 e) :
    (view s dw.1).fires window threshold e.now = true := by
  have hb : (view s dw.1).fired = false := decide_eq_false h.unblocked
  unfold Tracker.fires
  rw [hb]
  exact h.reached

/-- An attempt puts the source into `blocked`, with whatever status. -/
theorem outcome_of_attempts (subprocessRun : List String → W → CompletedProcess × W)
    (h : Attempts loads window threshold s dw.1 e) :
    ∃ state, outcome loads subprocessRun window threshold dw e
      = ⟨none, some (.str s), some (applyDrop subprocessRun s true dw.2).1,
          ⟨state, insert (.str s) dw.1.blocked⟩, (applyDrop subprocessRun s true dw.2).2⟩ := by
  have hr := (reading_eq_source_iff (ne_empty_of_isSome h.address)).mpr h.offence
  unfold outcome
  rw [processLine_of_source hr h.unblocked h.address]
  exact ⟨_, if_pos h.fires⟩

/-- `apply_drop` is called for a text exactly at an attempt. -/
theorem called_iff_attempts :
    (outcome loads subprocessRun window threshold dw e).called = some (.str s) ↔
      Attempts loads window threshold s dw.1 e := by
  constructor
  · intro h
    obtain ⟨hv, ho, hf⟩ := fires_of_called h
    obtain ⟨hfired, hreached⟩ := Bool.and_eq_true_iff.mp hf
    exact ⟨ho, of_decide_eq_false (by simpa [view] using hfired), hv, hreached⟩
  · intro h
    obtain ⟨state, hout⟩ := outcome_of_attempts subprocessRun h
    rw [hout]

/-- An integer is no word of a command, so `subprocess.run` raises before anything is recorded. -/
theorem blocked_of_int {n : Int} (h : reading loads e.line = .source (.int n)) :
    (outcome loads subprocessRun window threshold dw e).daemon.blocked = dw.1.blocked := by
  unfold outcome processLine
  rw [h]
  dsimp only
  split_ifs
  · rfl
  · rfl
  · simp [dropKey, armed]
  · rfl

/-- `apply_drop` is called for nobody, or for the source of the line that is not in `blocked`. -/
theorem called_cases (subprocessRun : List String → W → CompletedProcess × W) (dw : Daemon × W)
    (e : Entry) :
    ((outcome loads subprocessRun window threshold dw e).called = none ∧
      (outcome loads subprocessRun window threshold dw e).daemon.blocked = dw.1.blocked) ∨
    ∃ k, (outcome loads subprocessRun window threshold dw e).called = some k ∧
      reading loads e.line = .source k ∧ k ∉ dw.1.blocked := by
  unfold outcome
  rcases @processLine_cases _ loads subprocessRun (armed window threshold) e.line e.now dw.1 dw.2
    with ⟨e', ho⟩ | ⟨k, state, hk, hb, -, ⟨-, ho⟩ | ⟨-, raised, status, blocked, -, ho⟩⟩
  · rw [ho]
    exact Or.inl ⟨rfl, rfl⟩
  · rw [ho]
    exact Or.inl ⟨rfl, rfl⟩
  · rw [ho]
    exact Or.inr ⟨k, rfl, hk, hb⟩

/-- A line adds nothing to `blocked`, or it is an attempt and adds its source. -/
theorem blocked_cases (subprocessRun : List String → W → CompletedProcess × W) (dw : Daemon × W)
    (e : Entry) :
    (outcome loads subprocessRun window threshold dw e).daemon.blocked = dw.1.blocked ∨
      ∃ s, Attempts loads window threshold s dw.1 e ∧
        (outcome loads subprocessRun window threshold dw e).daemon.blocked
          = insert (.str s) dw.1.blocked := by
  rcases @called_cases _ loads window threshold subprocessRun dw e with
    ⟨-, hsame⟩ | ⟨k, hcalled, hr, -⟩
  · exact Or.inl hsame
  cases k with
  | str s =>
    have hattempt := called_iff_attempts.mp hcalled
    obtain ⟨state, hout⟩ := outcome_of_attempts subprocessRun hattempt
    exact Or.inr ⟨s, hattempt, by rw [hout]⟩
  | int n => exact Or.inl (blocked_of_int hr)

/-- The status of a call for a text is "blocked" exactly when its DROP command succeeds. -/
theorem status_of_called
    (h : (outcome loads subprocessRun window threshold dw e).called = some (.str s)) :
    (outcome loads subprocessRun window threshold dw e).status = some "blocked" ↔
      DropSucceeds subprocessRun s dw.2 := by
  obtain ⟨state, hout⟩ := outcome_of_attempts subprocessRun (called_iff_attempts.mp h)
  rw [hout, ← applyDrop_blocked_iff, Option.some.injEq]

/-- When its attempt succeeds a line does what is promised. -/
theorem recordsBlock_of_succeeds (h : AttemptSucceeds loads subprocessRun window threshold dw e) :
    RecordsBlock loads subprocessRun window threshold dw e := by
  have hstatus : ∀ s, (outcome loads subprocessRun window threshold dw e).called = some (.str s) →
      (outcome loads subprocessRun window threshold dw e).status = some "blocked" :=
    fun s hcalled => (status_of_called hcalled).mpr (h s (called_iff_attempts.mp hcalled))
  refine ⟨?_, ?_, ?_⟩
  · intro k hk hmem
    rcases blocked_cases subprocessRun dw e with hsame | ⟨s, hattempt, hinsert⟩
    · exact absurd (hsame ▸ hmem) hk
    · rw [hinsert, Finset.mem_insert, or_iff_left hk] at hmem
      obtain rfl := hmem
      have hcalled : (outcome loads subprocessRun window threshold dw e).called = some (.str s) :=
        called_iff_attempts.mpr hattempt
      exact ⟨hcalled, hstatus s hcalled⟩
  · intro k hcalled hfailed
    rcases @called_cases _ loads window threshold subprocessRun dw e with
      ⟨hnone, -⟩ | ⟨k', hcalled', hr, hb⟩
    · rw [hnone] at hcalled
      cases hcalled
    obtain rfl := Option.some.inj (hcalled.symm.trans hcalled')
    cases k with
    | str s => exact absurd (hstatus s hcalled) hfailed
    | int n =>
      rw [blocked_of_int hr]
      exact hb
  · intro s hcalled hfailed
    exact absurd (hstatus s hcalled) hfailed

/-- An attempt that fails is recorded all the same. -/
theorem succeeds_of_recordsBlock (h : RecordsBlock loads subprocessRun window threshold dw e) :
    AttemptSucceeds loads subprocessRun window threshold dw e := by
  intro s hattempt
  have hcalled : (outcome loads subprocessRun window threshold dw e).called = some (.str s) :=
    called_iff_attempts.mpr hattempt
  obtain ⟨state, hout⟩ := outcome_of_attempts subprocessRun hattempt
  refine (status_of_called hcalled).mp (h.recorded (.str s) hattempt.unblocked ?_).2
  rw [hout]
  exact Finset.mem_insert_self _ _

theorem recordsBlock_iff :
    RecordsBlock loads subprocessRun window threshold dw e ↔
      AttemptSucceeds loads subprocessRun window threshold dw e :=
  ⟨succeeds_of_recordsBlock, recordsBlock_of_succeeds⟩

/-! ## Runs -/

variable {log : List Entry}

theorem callAt_of_attempts {j : Nat} (he : log[j]? = some e)
    (h : Attempts loads window threshold s
      (before loads subprocessRun (armed window threshold) w log j).1 e) :
    callAt loads subprocessRun (armed window threshold) w log j = some (.str s) := by
  unfold callAt
  rw [he, Option.bind_some]
  exact called_iff_attempts.mpr h

/-- Where a source in `blocked` comes from. -/
theorem mem_blocked_of_run
    (h : StepsMeet (handle loads subprocessRun (armed window threshold))
      (AttemptSucceeds loads subprocessRun window threshold) (Daemon.start, w) log) (k : Nat) :
    ∀ key ∈ (before loads subprocessRun (armed window threshold) w log k).1.blocked,
      ∃ j < k, ∃ s, key = .str s ∧
        callAt loads subprocessRun (armed window threshold) w log j = some (.str s) ∧
        DropSucceeds subprocessRun s
          (before loads subprocessRun (armed window threshold) w log j).2 := by
  induction k with
  | zero => simp [before, Daemon.start]
  | succ k ih =>
    intro key hkey
    have hearlier : key ∈ (before loads subprocessRun (armed window threshold) w log k).1.blocked →
        ∃ j < k + 1, ∃ s, key = .str s ∧
          callAt loads subprocessRun (armed window threshold) w log j = some (.str s) ∧
          DropSucceeds subprocessRun s
            (before loads subprocessRun (armed window threshold) w log j).2 := by
      intro hmem
      obtain ⟨j, hj, hrest⟩ := ih key hmem
      exact ⟨j, by omega, hrest⟩
    cases he : log[k]? with
    | none =>
      rw [before, take_succ_of_none he] at hkey
      exact hearlier hkey
    | some e =>
      rw [before_succ he] at hkey
      rcases blocked_cases subprocessRun
        (before loads subprocessRun (armed window threshold) w log k) e with
        hsame | ⟨s, hattempt, hinsert⟩
      · exact hearlier (hsame ▸ hkey)
      · rcases Finset.mem_insert.mp (hinsert ▸ hkey) with rfl | hmem
        · exact ⟨k, by omega, s, rfl, callAt_of_attempts he hattempt,
            stepsMeet_getElem? h he s hattempt⟩
        · exact hearlier hmem

/--
**A failed block is not recorded as a block exactly when no block fails.**

For one line, from any state, the promise is kept exactly when the DROP command the line makes the
daemon issue succeeds, if there is one; for a run it is kept exactly when all of them succeed.
-/
theorem records_iff (loads : String → Option Json)
    (subprocessRun : List String → W → CompletedProcess × W) (window : ℚ) (threshold : Nat) :
    (∀ dw e, RecordsBlock loads subprocessRun window threshold dw e ↔
      AttemptSucceeds loads subprocessRun window threshold dw e) ∧
    (∀ w log, RunRecords loads subprocessRun window threshold w log ↔
      StepsMeet (handle loads subprocessRun (armed window threshold))
        (AttemptSucceeds loads subprocessRun window threshold) (Daemon.start, w) log) := by
  refine ⟨fun dw e => recordsBlock_iff, fun w log => ?_⟩
  constructor
  · intro h
    exact (stepsMeet_congr fun _ _ => recordsBlock_iff).mp h.steps
  · intro h
    exact ⟨(stepsMeet_congr fun _ _ => recordsBlock_iff).mpr h, mem_blocked_of_run h⟩

end Blocks

/-- An `iptables` that refuses every command, for example for want of the privilege. -/
def refusing (_ : List String) (f : Filter) : CompletedProcess × Filter :=
  (⟨4, "iptables: Permission denied (you must be root)."⟩, f)

/-- Three offences with an `iptables` that fails: the attacker is in `blocked`, and not dropped. -/
theorem failed_block_recorded :
    ¬ ∀ (loads : String → Option Json)
      (subprocessRun : List String → Filter → CompletedProcess × Filter) (window : ℚ)
      (threshold : Nat) (w : Filter) (log : List Entry),
      RunRecords loads subprocessRun window threshold w log := by
  intro h
  obtain ⟨j, -, s, hs, -, hdrop⟩ := (h (loadsOf [attackerAlert]) refusing 300 3 (installed labIfs)
    [⟨0, attackerAlert.1⟩, ⟨10, attackerAlert.1⟩, ⟨20, attackerAlert.1⟩]).blocked 3
    (.str "172.24.0.10") (by decide +kernel)
  exact absurd (show (4 : Int) = 0 from hdrop) (by decide)

end OtLab.Responder
