import OtLab.Detection.FirewallEvents
import OtLab.Detection.Jitter

/-!
# The beaconing script

`simulate_c2_beacon.py` calls an address of the Enterprise from an OT host, again and again, with a
random pause in between. Every call is a SYN that the firewall drops, with retransmissions until the
connection times out; `firewall_events.py` sees them all.

* `watch_flows` — what the deque of the key holds while the script runs
* `watch_burst` — a deque takes at most one flow of those that come within two seconds
* `script_detected` — the fifth call raises the alert, and no other flow of the run does
-/

namespace OtLab.Beacon

open Lib

/-! ## The script -/

/-- `--interval` and `--jitter` -/
structure Options where
  interval : ℝ
  jitter : ℝ

noncomputable def Options.default : Options := ⟨3, 1 / 5⟩

/--
One turn of the loop: when the SYN is retransmitted, how long it takes until `sleep` is called, and
what `random.uniform` returns then.
-/
structure Callback where
  retransmissions : List ℝ
  took : ℝ
  offset : ℝ

namespace Options

variable (o : Options)

/-- From one call to the next. -/
noncomputable def pause (b : Callback) : ℝ := b.took + max 0.1 (o.interval + b.offset)

/-- The start of the call behind some others. -/
noncomputable def after (t : ℝ) : List Callback → ℝ
  | [] => t
  | b :: bs => after (t + o.pause b) bs

/-- The starts of the calls. -/
noncomputable def starts (t : ℝ) : List Callback → List ℝ
  | [] => []
  | b :: bs => t :: starts (t + o.pause b) bs

/-- The flows of the calls, with their retransmissions. -/
noncomputable def flows (t : ℝ) : List Callback → List ℝ
  | [] => []
  | b :: bs => (t :: b.retransmissions.map (t + ·)) ++ flows (t + o.pause b) bs

/-- A connection attempt times out after 1.5 seconds, and the loop is back within two. -/
structure Plausible (b : Callback) : Prop where
  retransmissions : ∀ r ∈ b.retransmissions, 0 ≤ r ∧ r ≤ 3 / 2
  took : 0 ≤ b.took ∧ b.took ≤ 2
  offset : -o.jitter ≤ b.offset ∧ b.offset ≤ o.jitter

/-- The pauses are of similar length and five calls come within the window. -/
structure Tuned : Prop where
  shortest : 2 ≤ o.interval - o.jitter
  ratio : o.interval + o.jitter + 2 ≤ 19 / 10 * (o.interval - o.jitter)
  span : 4 * (o.interval + o.jitter + 2) ≤ 60

end Options

theorem tuned_default : Options.default.Tuned := by
  refine ⟨?_, ?_, ?_⟩ <;> norm_num [Options.default]

/-- Five to eight calls, one after the other. -/
structure Script (o : Options) where
  start : ℝ
  four : List Callback
  fifth : Callback
  rest : List Callback
  four_length : four.length = 4
  rest_length : rest.length ≤ 3
  bounded : ∀ b ∈ four ++ fifth :: rest, o.Plausible b

/-- When the fifth call starts. -/
noncomputable def Script.fifthStart {o : Options} (s : Script o) : ℝ := o.after s.start s.four

/-- The flows behind the first one of the fifth call. -/
noncomputable def Script.later {o : Options} (s : Script o) : List ℝ :=
  s.fifth.retransmissions.map (s.fifthStart + ·)
    ++ o.flows (s.fifthStart + o.pause s.fifth) s.rest

/-! ## Pauses -/

variable {o : Options} {b : Callback} {bs : List Callback} {t : ℝ}

theorem pause_bounds (ho : o.Tuned) (hb : o.Plausible b) :
    o.interval - o.jitter ≤ o.pause b ∧ o.pause b ≤ o.interval + o.jitter + 2 := by
  obtain ⟨htook, htook'⟩ := hb.took
  obtain ⟨hoff, hoff'⟩ := hb.offset
  have hshort := ho.shortest
  unfold Options.pause
  constructor
  · have := le_max_right 0.1 (o.interval + b.offset)
    linarith
  · have : max 0.1 (o.interval + b.offset) ≤ o.interval + o.jitter :=
      max_le (by linarith) (by linarith)
    linarith

/-- The starts of the calls and of the one behind them, by their pauses. -/
theorem starts_append_after (o : Options) (bs : List Callback) : ∀ t,
    o.starts t bs ++ [o.after t bs] = timestamps t (bs.map o.pause) := by
  induction bs with
  | nil => exact fun t => List.scanl_nil.symm
  | cons b bs ih =>
    intro t
    rw [Options.starts, Options.after, List.cons_append, ih]
    exact List.scanl_cons.symm

theorem length_starts (bs : List Callback) : ∀ t, (o.starts t bs).length = bs.length := by
  induction bs with
  | nil => exact fun _ => rfl
  | cons b bs ih => exact fun t => congrArg Nat.succ (ih _)

/-- The call behind some others starts in the time their pauses take. -/
theorem after_bounds (ho : o.Tuned) (hbs : ∀ b ∈ bs, o.Plausible b) : ∀ t,
    t ≤ o.after t bs ∧ o.after t bs ≤ t + bs.length * (o.interval + o.jitter + 2) := by
  induction bs with
  | nil =>
    intro t
    simp [Options.after]
  | cons b bs ih =>
    intro t
    obtain ⟨hlow, hhigh⟩ := pause_bounds ho (hbs b List.mem_cons_self)
    obtain ⟨hle, hge⟩ := ih (fun b' hb' => hbs b' (List.mem_cons_of_mem b hb')) (t + o.pause b)
    have hshort := ho.shortest
    rw [Options.after, List.length_cons]
    push_cast
    constructor
    · linarith
    · linarith

/-- Every call starts two seconds before the one behind them all. -/
theorem starts_bounds (ho : o.Tuned) (hbs : ∀ b ∈ bs, o.Plausible b) : ∀ t,
    ∀ x ∈ o.starts t bs, t ≤ x ∧ x + 2 ≤ o.after t bs := by
  induction bs with
  | nil => exact fun _ _ hx => absurd hx List.not_mem_nil
  | cons b bs ih =>
    intro t x hx
    have hbs' : ∀ b ∈ bs, o.Plausible b := fun b' hb' => hbs b' (List.mem_cons_of_mem b hb')
    have hpause := (pause_bounds ho (hbs b List.mem_cons_self)).1
    have hshort := ho.shortest
    have hle := (after_bounds ho hbs' (t + o.pause b)).1
    rw [Options.after]
    rcases List.mem_cons.mp hx with rfl | hx
    · exact ⟨le_refl _, by linarith⟩
    · obtain ⟨hlow, hhigh⟩ := ih hbs' (t + o.pause b) x hx
      exact ⟨by linarith, hhigh⟩

/-- The pauses of a tuned script are jittered. -/
theorem jittered_pauses (ho : o.Tuned) (hne : bs ≠ []) (hbs : ∀ b ∈ bs, o.Plausible b) :
    Jittered defaultConfig (bs.map o.pause) := by
  have hbounds : ∀ x ∈ bs.map o.pause,
      o.interval - o.jitter ≤ x ∧ x ≤ o.interval + o.jitter + 2 := by
    rw [List.forall_mem_map]
    exact fun b hb => pause_bounds ho (hbs b hb)
  have hshort := ho.shortest
  have hratio := ho.ratio
  refine ⟨fun x hx => ?_, fun x hx y hy => ?_, ?_⟩
  · linarith [(hbounds x hx).1]
  · linarith [(hbounds x hx).2, (hbounds y hy).1]
  · have hmean := le_mean (by simpa using hne) fun x hx => (hbounds x hx).1
    show (1 / 2 : ℝ) ≤ _
    linarith

/-! ## One deque -/

section Deque

variable {deque : List ℝ} {sqrt : ℝ → ℝ}

/-- What is seen first does not change what is raised later. -/
theorem watch_append (deque l l' : List ℝ) :
    watch defaultConfig sqrt deque (l ++ l') =
      ((watch defaultConfig sqrt (watch defaultConfig sqrt deque l).1 l').1,
        (watch defaultConfig sqrt deque l).2
          ++ (watch defaultConfig sqrt (watch defaultConfig sqrt deque l).1 l').2) := by
  have hacc : ∀ (l : List ℝ) (deque : List ℝ) (raised : List (Regularity ℝ)),
      run (watchStep defaultConfig sqrt) (deque, raised) l =
        ((watch defaultConfig sqrt deque l).1, raised ++ (watch defaultConfig sqrt deque l).2) := by
    intro l
    induction l with
    | nil =>
      intro deque raised
      simp [watch]
    | cons now l ih =>
      intro deque raised
      have hwatch : watch defaultConfig sqrt deque (now :: l) = _ :=
        ih (sample defaultConfig sqrt deque now).1
          ([] ++ (sample defaultConfig sqrt deque now).2.toList)
      rw [hwatch, List.nil_append, ← List.append_assoc]
      exact ih (sample defaultConfig sqrt deque now).1
        (raised ++ (sample defaultConfig sqrt deque now).2.toList)
  show run _ _ _ = _
  rw [run_append]
  exact hacc l' _ _

theorem watch_cons (deque : List ℝ) (now : ℝ) (l : List ℝ) :
    watch defaultConfig sqrt deque (now :: l) =
      ((watch defaultConfig sqrt (sample defaultConfig sqrt deque now).1 l).1,
        (sample defaultConfig sqrt deque now).2.toList
          ++ (watch defaultConfig sqrt (sample defaultConfig sqrt deque now).1 l).2) :=
  watch_append deque [now] l

/-- Retransmissions leave the deque as it is. -/
theorem watch_of_debounced {l : List ℝ} (h : ∀ now ∈ l, Debounced defaultConfig deque now) :
    watch defaultConfig sqrt deque l = (deque, []) := by
  induction l with
  | nil => rfl
  | cons now l ih =>
    rw [watch_cons, sample_of_debounced (h now List.mem_cons_self),
      ih fun now' h' => h now' (List.mem_cons_of_mem now h')]
    rfl

theorem getLast?_recorded (deque : List ℝ) (now : ℝ) :
    (recorded defaultConfig deque now).getLast? = some now := by
  have hkeep : ¬ decide (now < now - (defaultConfig : Config ℝ).window) = true := by
    norm_num [defaultConfig]
  unfold recorded
  induction deque with
  | nil =>
    rw [List.nil_append, List.dropWhile_cons, if_neg hkeep]
    rfl
  | cons t deque ih =>
    rw [List.cons_append]
    by_cases ht : decide (t < now - (defaultConfig : Config ℝ).window) = true
    · rw [List.dropWhile_cons, if_pos ht, ih]
    · rw [List.dropWhile_cons, if_neg ht, ← List.cons_append, List.getLast?_append,
        List.getLast?_singleton, Option.some_or]

/-- Nothing leaves the deque while all of it is inside the window. -/
theorem recorded_of_window {now : ℝ} (h : ∀ t ∈ deque, now - 60 ≤ t) :
    recorded defaultConfig deque now = deque ++ [now] := by
  refine List.dropWhile_eq_self_iff.mpr fun hpos => ?_
  have hmem : (deque ++ [now])[0] ∈ deque ++ [now] := List.getElem_mem hpos
  have hle : now - 60 ≤ (deque ++ [now])[0] := by
    rcases List.mem_append.mp hmem with hmem | hmem
    · exact h _ hmem
    · rw [List.mem_singleton.mp hmem]
      linarith
  rw [decide_eq_true_eq, not_lt]
  exact hle

/-- All of the deque leaves it when nothing is inside the window. -/
theorem recorded_of_old {now : ℝ} (h : ∀ t ∈ deque, t < now - 60) :
    recorded defaultConfig deque now = [now] := by
  have hkeep : ¬ decide (now < now - (defaultConfig : Config ℝ).window) = true := by
    norm_num [defaultConfig]
  have hdrop : ∀ t ∈ deque, decide (t < now - (defaultConfig : Config ℝ).window) = true :=
    fun t ht => decide_eq_true (h t ht)
  unfold recorded
  rw [List.dropWhile_append_of_pos hdrop, List.dropWhile_cons, if_neg hkeep]

theorem length_recorded_le (deque : List ℝ) (now : ℝ) :
    (recorded defaultConfig deque now).length ≤ deque.length + 1 := by
  have := (List.dropWhile_sublist
    (fun t => decide (t < now - (defaultConfig : Config ℝ).window)) (l := deque ++ [now])).length_le
  rw [List.length_append] at this
  exact this

/-- A flow that is recorded in a short deque. -/
theorem sample_of_short {now : ℝ} (hd : ¬ Debounced defaultConfig deque now)
    (hlen : (recorded defaultConfig deque now).length < 5) :
    sample defaultConfig sqrt deque now = (recorded defaultConfig deque now, none) := by
  rw [sample_of_not_debounced hd]
  exact if_pos hlen

/-- **Of the flows within two seconds a short deque takes one at most**, and raises nothing. -/
theorem watch_burst {l : List ℝ} (hburst : ∀ x ∈ l, ∀ y ∈ l, y - x < 2)
    (hlen : deque.length + 1 < 5) :
    (watch defaultConfig sqrt deque l).2 = [] ∧
      (watch defaultConfig sqrt deque l).1.length ≤ deque.length + 1 := by
  induction l with
  | nil => exact ⟨rfl, Nat.le_succ _⟩
  | cons now l ih =>
    have htail : ∀ x ∈ l, ∀ y ∈ l, y - x < 2 := fun x hx y hy =>
      hburst x (List.mem_cons_of_mem now hx) y (List.mem_cons_of_mem now hy)
    rw [watch_cons]
    by_cases hd : Debounced defaultConfig deque now
    · rw [sample_of_debounced hd]
      exact ih htail
    · have hrecorded := length_recorded_le deque now
      have hlater : ∀ now' ∈ l,
          Debounced defaultConfig (recorded defaultConfig deque now) now' := fun now' h' =>
        ⟨now, getLast?_recorded deque now,
          hburst now List.mem_cons_self now' (List.mem_cons_of_mem now h')⟩
      rw [sample_of_short hd (by omega), watch_of_debounced hlater]
      exact ⟨rfl, hrecorded⟩

/-! ## The script -/

/-- A call is recorded once. -/
theorem watch_call (hb : o.Plausible b) (hd : ¬ Debounced defaultConfig deque t)
    (hlen : (recorded defaultConfig deque t).length < 5) :
    watch defaultConfig sqrt deque (t :: b.retransmissions.map (t + ·))
      = (recorded defaultConfig deque t, []) := by
  have hdebounced : ∀ now ∈ b.retransmissions.map (t + ·),
      Debounced defaultConfig (recorded defaultConfig deque t) now := by
    rw [List.forall_mem_map]
    intro r hr
    refine ⟨t, getLast?_recorded deque t, ?_⟩
    show t + r - t < (2 : ℝ)
    linarith [(hb.retransmissions r hr).2]
  rw [watch_cons, sample_of_short hd hlen, watch_of_debounced hdebounced]
  rfl

/-- **While the deque is short the script adds the start of every call to it.** -/
theorem watch_flows (ho : o.Tuned) (hbs : ∀ b ∈ bs, o.Plausible b) : ∀ {t : ℝ} {deque : List ℝ},
    (∀ last ∈ deque.getLast?, 2 ≤ t - last) → (∀ x ∈ deque, o.after t bs - 60 ≤ x) →
    o.after t bs ≤ t + 60 → deque.length + bs.length < 5 →
    watch defaultConfig sqrt deque (o.flows t bs) = (deque ++ o.starts t bs, []) := by
  induction bs with
  | nil =>
    intro t deque _ _ _ _
    simp [Options.flows, Options.starts, watch]
  | cons b bs ih =>
    intro t deque hlast hwindow hspan hlen
    have hb := hbs b List.mem_cons_self
    have hbs' : ∀ b ∈ bs, o.Plausible b := fun b' hb' => hbs b' (List.mem_cons_of_mem b hb')
    have hpause := pause_bounds ho hb
    have hshort := ho.shortest
    have hafter : o.after t (b :: bs) = o.after (t + o.pause b) bs := rfl
    have hle := (after_bounds ho hbs' (t + o.pause b)).1
    have hrec : recorded defaultConfig deque t = deque ++ [t] := by
      refine recorded_of_window fun x hx => ?_
      have := hwindow x hx
      rw [hafter] at this
      linarith
    rw [List.length_cons] at hlen
    have hcall := @watch_call o b t deque sqrt hb (not_debounced_iff.mpr hlast) (by
      rw [hrec, List.length_append, List.length_singleton]
      omega)
    rw [Options.flows, watch_append, hcall, hrec, Options.starts, ih hbs']
    · rw [List.append_assoc]
      rfl
    · intro last hl
      rw [List.getLast?_append, List.getLast?_singleton, Option.some_or] at hl
      obtain rfl := Option.some.inj hl
      linarith
    · intro x hx
      rcases List.mem_append.mp hx with hx | hx
      · exact hwindow x hx
      · rw [List.mem_singleton.mp hx]
        linarith
    · linarith
    · rw [List.length_append, List.length_singleton]
      omega

/-- The first four calls, behind a deque that is old. -/
theorem watch_four (ho : o.Tuned) (s : Script o) (hold : ∀ x ∈ deque, x < s.start - 60) :
    watch defaultConfig sqrt deque (o.flows s.start s.four) = (o.starts s.start s.four, []) := by
  obtain ⟨t, four, fifth, rest, hfour, _, hplausible⟩ := s
  dsimp only at hold hfour ⊢
  cases four with
  | nil => cases hfour
  | cons b bs =>
    have hb := hplausible b (List.mem_append_left _ List.mem_cons_self)
    have hbs : ∀ b ∈ bs, o.Plausible b := fun b' hb' =>
      hplausible b' (List.mem_append_left _ (List.mem_cons_of_mem b hb'))
    have hlen : bs.length = 3 := Nat.succ.inj hfour
    have hpause := pause_bounds ho hb
    have hshort := ho.shortest
    have hspan := ho.span
    have hafter := (after_bounds ho hbs (t + o.pause b)).2
    rw [hlen] at hafter
    push_cast at hafter
    have hrec : recorded defaultConfig deque t = [t] := recorded_of_old hold
    have hnot : ¬ Debounced defaultConfig deque t := by
      rw [not_debounced_iff]
      intro last hlast
      have := hold last (List.mem_of_getLast? hlast)
      show (2 : ℝ) ≤ _
      linarith
    have hcall := @watch_call o b t deque sqrt hb hnot (by
      rw [hrec, List.length_singleton]
      decide)
    rw [Options.flows, watch_append, hcall, hrec, Options.starts, watch_flows ho hbs]
    · rfl
    · intro last hl
      obtain rfl : t = last := Option.some.inj hl
      linarith
    · intro x hx
      rw [List.mem_singleton.mp hx]
      linarith
    · linarith
    · rw [List.length_singleton, hlen]
      decide

/-- The fifth call fills the deque with jittered times. -/
theorem sample_fifth (ho : o.Tuned) (s : Script o) :
    ∃ r, sample defaultConfig Real.sqrt (o.starts s.start s.four) s.fifthStart = ([], some r) ∧
      r.count = 5 := by
  have hplausible : ∀ b ∈ s.four, o.Plausible b := fun b hb =>
    s.bounded b (List.mem_append_left _ hb)
  have hne : s.four ≠ [] := List.ne_nil_of_length_pos (by rw [s.four_length]; decide)
  have htimes : o.starts s.start s.four ++ [s.fifthStart]
      = timestamps s.start (s.four.map o.pause) := starts_append_after o s.four s.start
  have hbounds := starts_bounds ho hplausible s.start
  have hafter := (after_bounds ho hplausible s.start).2
  have hspan := ho.span
  rw [s.four_length] at hafter
  push_cast at hafter
  have hnot : ¬ Debounced defaultConfig (o.starts s.start s.four) s.fifthStart := by
    rw [not_debounced_iff]
    intro last hlast
    have := (hbounds last (List.mem_of_getLast? hlast)).2
    show (2 : ℝ) ≤ o.after s.start s.four - last
    linarith
  have hrec : recorded defaultConfig (o.starts s.start s.four) s.fifthStart
      = timestamps s.start (s.four.map o.pause) := by
    rw [← htimes]
    refine recorded_of_window fun x hx => ?_
    have := (hbounds x hx).1
    show o.after s.start s.four - 60 ≤ x
    linarith
  have hlen : (timestamps s.start (s.four.map o.pause)).length = 5 := by
    rw [← htimes, List.length_append, length_starts, s.four_length]
    rfl
  have hintervals : intervals (timestamps s.start (s.four.map o.pause)) = s.four.map o.pause :=
    intervals_timestamps _ _
  have hjittered : Jittered defaultConfig
      (intervals (timestamps s.start (s.four.map o.pause))) := by
    rw [hintervals]
    exact jittered_pauses ho hne hplausible
  have hpauses : intervals (timestamps s.start (s.four.map o.pause)) ≠ [] := by
    rw [hintervals]
    simpa using hne
  refine ⟨⟨5, mean (intervals (timestamps s.start (s.four.map o.pause))),
    coefficient (intervals (timestamps s.start (s.four.map o.pause)))⟩, ?_, rfl⟩
  rw [sample_of_not_debounced hnot, hrec]
  unfold judge
  rw [hjittered.intervalRegularity hpauses, if_neg (by rw [hlen]; decide)]
  dsimp only
  rw [if_neg, hlen]
  exact not_lt.mpr (hjittered.coefficient_le hpauses)

/-- Four calls are too few for an alert, with what is left of an earlier one. -/
theorem watch_flows_silent (hbs : ∀ b ∈ bs, o.Plausible b) : ∀ {t : ℝ} {deque : List ℝ},
    deque.length + bs.length < 5 → (watch defaultConfig sqrt deque (o.flows t bs)).2 = [] := by
  induction bs with
  | nil => exact fun _ => rfl
  | cons b bs ih =>
    intro t deque hlen
    rw [List.length_cons] at hlen
    have hb := (hbs b List.mem_cons_self).retransmissions
    have hburst : ∀ x ∈ t :: b.retransmissions.map (t + ·),
        ∀ y ∈ t :: b.retransmissions.map (t + ·), y - x < 2 := by
      have hrange : ∀ x ∈ t :: b.retransmissions.map (t + ·), t ≤ x ∧ x ≤ t + 3 / 2 := by
        rw [List.forall_mem_cons, List.forall_mem_map]
        refine ⟨⟨le_refl t, by linarith⟩, fun r hr => ?_⟩
        obtain ⟨hlow, hhigh⟩ := hb r hr
        exact ⟨by linarith, by linarith⟩
      intro x hx y hy
      linarith [(hrange x hx).1, (hrange y hy).2]
    obtain ⟨hsilent, hshort⟩ := @watch_burst deque sqrt _ hburst (by omega)
    rw [Options.flows, watch_append, hsilent]
    exact ih (fun b' hb' => hbs b' (List.mem_cons_of_mem b hb')) (by omega)

/-- Behind the alert the rest of the script raises no other one. -/
theorem watch_later (s : Script o) : (watch defaultConfig sqrt [] s.later).2 = [] := by
  have hfifth : o.Plausible s.fifth := s.bounded s.fifth (by simp)
  have hrest : ∀ b ∈ s.rest, o.Plausible b := fun b hb =>
    s.bounded b (List.mem_append_right _ (List.mem_cons_of_mem _ hb))
  have hburst : ∀ x ∈ s.fifth.retransmissions.map (s.fifthStart + ·),
      ∀ y ∈ s.fifth.retransmissions.map (s.fifthStart + ·), y - x < 2 := by
    rw [List.forall_mem_map]
    intro r hr
    rw [List.forall_mem_map]
    intro r' hr'
    linarith [(hfifth.retransmissions r hr).1, (hfifth.retransmissions r' hr').2]
  obtain ⟨hsilent, hshort⟩ := @watch_burst [] sqrt _ hburst (by decide)
  have hlen := s.rest_length
  rw [List.length_nil] at hshort
  rw [Script.later, watch_append, hsilent]
  exact watch_flows_silent hrest (by omega)

end Deque

/-! ## The detector -/

/-- A port of an Enterprise address that an OT host calls. -/
structure Egress where
  src : IPv4
  dst : IPv4
  port : UInt16
  zone : Zone
  ot : zone ∈ otZones
  src_zone : zoneOf src = some zone
  dst_zone : zoneOf dst = some .it
  src_not_gateway : src ∉ gatewayIps
  dst_not_gateway : dst ∉ gatewayIps

/-- The arguments `handle` gives to `check_beacon`. -/
def eventKey (e : DropEvent) : Key := ⟨e.srcIp.str, e.dstIp.str, e.dstPort.toNat, e.proto.text⟩

def Egress.key (x : Egress) : Key := ⟨x.src.str, x.dst.str, x.port.toNat, "TCP"⟩

/-- Nothing to the Enterprise is permitted. -/
theorem isPermitted_it (z : Zone) (proto : ProtoName) (port : UInt16) :
    isPermitted z .it proto port = false := by
  unfold isPermitted
  rw [List.any_eq_false]
  intro c hc heq
  have htable : ∀ c ∈ permittedConduits, c.2.1 ≠ .it := by decide
  rw [beq_iff_eq] at heq
  exact htable c hc (by rw [heq])

/-- A call is denied, and checked for beaconing. -/
theorem Egress.denied (x : Egress) : ∃ e, handle (synTo x.src x.dst x.port) = some e ∧
    e.checksBeacon = true ∧ eventKey e = x.key := by
  have hne : x.zone ≠ .it := by
    have hot : ∀ z ∈ otZones, z ≠ .it := by decide
    exact hot x.zone x.ot
  have hflow := opensFlow_synTo x.src_zone x.dst_zone hne x.dst_not_gateway x.port
  refine ⟨⟨x.zone, .it, x.src, x.dst, x.port, .tcp⟩, ?_, ?_, rfl⟩
  · rw [handle_of_opensFlow hflow x.src_not_gateway,
      flowKey_tcp (p := synTo x.src x.dst x.port) rfl (hflow.syn _ rfl)]
    dsimp only
    rw [isPermitted_it]
    rfl
  · simp [DropEvent.checksBeacon, x.ot]

/--
**Whatever the jitter, the script is caught at its fifth call, and once.**

A tuned script calls an Enterprise address from an OT host, each connection taking what it takes
and retransmitting when it does; other hosts' denied flows come in between, and nothing was recorded
of this one in the last minute. Every call is denied and checked; no flow before the fifth call
raises an alert, the fifth call does, for five calls, and no flow behind it does.
-/
theorem script_detected (o : Options) (ho : o.Tuned) (s : Script o) (x : Egress)
    (st : BeaconTimes ℝ) (hold : ∀ t ∈ st x.key, t < s.start - 60) (round : ℝ → Nat → ℝ)
    (before later : List (Call ℝ))
    (hbefore : timesOf x.key before = o.flows s.start s.four)
    (hlater : timesOf x.key later = s.later) :
    (∃ e, handle (synTo x.src x.dst x.port) = some e ∧ e.checksBeacon = true ∧
      eventKey e = x.key) ∧
    let four := detect defaultConfig Real.sqrt round st before
    let fifth := checkBeacon defaultConfig Real.sqrt round x.key s.fifthStart four.1
    ¬ Raised round x.key four.2 ∧ (∃ r, fifth.2 = some (alert round x.key r) ∧ r.count = 5) ∧
      ¬ Raised round x.key (detect defaultConfig Real.sqrt round fifth.1 later).2 := by
  refine ⟨x.denied, ?_⟩
  intro four fifth
  obtain ⟨hdeque, hraised⟩ := @detect_key ℝ _ _ defaultConfig Real.sqrt round st x.key before
  rw [hbefore, watch_four ho s hold] at hdeque hraised
  obtain ⟨r, hsample, hcount⟩ := sample_fifth ho s
  have hfifth : fifth = (Function.update four.1 x.key [], some (alert round x.key r)) := by
    show (Function.update four.1 x.key _, _) = _
    rw [hdeque, hsample]
    rfl
  refine ⟨fun h => hraised.mp h rfl, ⟨r, congrArg Prod.snd hfifth, hcount⟩, ?_⟩
  have hcleared : fifth.1 x.key = [] := by
    rw [hfifth]
    exact Function.update_self ..
  rw [(detect_key later).2, hlater, hcleared, watch_later]
  exact fun h => h rfl

/-- A call that times out after one retransmission. -/
noncomputable def timedOut : Callback := ⟨[1], 1.5, 0⟩

theorem plausible_timedOut : Options.default.Plausible timedOut := by
  refine ⟨?_, ?_, ?_⟩ <;> norm_num [timedOut, Options.default]

/-- The script as it is run, with six calls. -/
noncomputable def sixCalls : Script Options.default where
  start := 0
  four := List.replicate 4 timedOut
  fifth := timedOut
  rest := [timedOut]
  four_length := rfl
  rest_length := by decide
  bounded := by
    intro b hb
    have hall : ∀ b ∈ List.replicate 6 timedOut, b = timedOut :=
      fun b hb => List.eq_of_mem_replicate hb
    rw [hall b hb]
    exact plausible_timedOut

/-- From the insider host to the attacker's. -/
def insiderEgress : Egress where
  src := insiderHost
  dst := ⟨172, 24, 0, 10⟩
  port := 443
  zone := .ops
  ot := by decide
  src_zone := by decide
  dst_zone := by decide
  src_not_gateway := by decide
  dst_not_gateway := by decide

theorem script_detected_six_calls :
    ∃ r, (checkBeacon defaultConfig Real.sqrt exactRound insiderEgress.key
      sixCalls.fifthStart (detect defaultConfig Real.sqrt exactRound noTimes
        ((Options.default.flows 0 sixCalls.four).map fun t => ⟨insiderEgress.key, t⟩)).1).2
      = some (alert exactRound insiderEgress.key r) ∧ r.count = 5 := by
  have htimes : ∀ l : List ℝ,
      timesOf insiderEgress.key (l.map fun t => ⟨insiderEgress.key, t⟩) = l := by
    intro l
    simp [timesOf, List.filter_map, Function.comp_def]
  exact (script_detected Options.default tuned_default sixCalls insiderEgress noTimes
    (fun _ ht => absurd ht List.not_mem_nil) exactRound _ _ (htimes _) (htimes _)).2.2.1

end OtLab.Beacon
