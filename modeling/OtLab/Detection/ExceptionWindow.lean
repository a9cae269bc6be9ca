import OtLab.Detection.BruteForce

/-!
# The exception window

`ot_brute_force.py` over a whole capture. The list of a source holds what the window still needs
of its exceptions since its last alert (`window_eq`), and everything else follows from that.

* `alertAt_eq_some_iff` — when an alert is written, and with which count
* `alert_of_burst` — no burst of exceptions passes without an alert
* `exception_window` — the window neither misses a burst nor over-reports
-/

namespace OtLab.BruteForce

open Lib

section Window

variable (windowSeconds : ℚ) (errorThreshold : Nat) (xs : List Sighting)

/-! ## Alerts by position -/

/-- The lists before the packet at position `k`. -/
def listsBefore (k : Nat) : ErrorTracker := (capture windowSeconds errorThreshold (xs.take k)).1

/-- The alert that `process_packet` writes for the packet at position `k`. -/
def alertAt (k : Nat) : Option Dict :=
  xs[k]?.bind fun x =>
    (processPacket windowSeconds errorThreshold x.packet x.now
      (listsBefore windowSeconds errorThreshold xs k)).2

/-- An alert for `s` is written at position `k`. -/
def AlertFor (s : IPv4) (k : Nat) : Prop :=
  ∃ count, alertAt windowSeconds errorThreshold xs k = some (alert s count)

/-- Position `j` is right after the last alert for `s` before position `k`. -/
structure SinceAlert (s : IPv4) (j k : Nat) : Prop where
  le : j ≤ k
  start : j = 0 ∨ ∃ i, j = i + 1 ∧ AlertFor windowSeconds errorThreshold xs s i
  quiet : ∀ i, j ≤ i → i < k → ¬ AlertFor windowSeconds errorThreshold xs s i

/-- The packets at positions `j` to `k`. -/
def between (j k : Nat) : List Sighting := (xs.take (k + 1)).drop j

/-- The exceptions of `s` among packets, less than the window before `now`. -/
def recent (s : IPv4) (now : ℚ) (packets : List Sighting) : List Sighting :=
  packets.filter fun x => isException s x.packet ∧ now - x.now < windowSeconds

variable {windowSeconds errorThreshold xs} {s : IPv4} {x : Sighting} {j k : Nat}

theorem listsBefore_succ (h : xs[k]? = some x) :
    listsBefore windowSeconds errorThreshold xs (k + 1)
      = (processPacket windowSeconds errorThreshold x.packet x.now
          (listsBefore windowSeconds errorThreshold xs k)).1 := by
  unfold listsBefore capture
  rw [run_take_succ h]
  rfl

theorem alertAt_eq (h : xs[k]? = some x) :
    alertAt windowSeconds errorThreshold xs k
      = (processPacket windowSeconds errorThreshold x.packet x.now
          (listsBefore windowSeconds errorThreshold xs k)).2 := by
  rw [alertAt, h, Option.bind_some]

/-! ## The list since the last alert -/

/-- The alert at a position names the source of the packet there, which is an exception. -/
theorem AlertFor.isException {x : Sighting} (hx : xs[k]? = some x)
    (h : AlertFor windowSeconds errorThreshold xs s k) : isException s x.packet = true := by
  obtain ⟨count, hcount⟩ := h
  rw [alertAt_eq hx] at hcount
  by_contra hnot
  exact (processPacket_of_not_exception (Bool.not_eq_true _ ▸ hnot)).2 count hcount

theorem not_alertFor_of_none (h : xs[k]? = none) :
    ¬ AlertFor windowSeconds errorThreshold xs s k := by
  rintro ⟨count, hcount⟩
  rw [alertAt, h] at hcount
  cases hcount

/-- Without an alert at `k` the last one is where it was. -/
theorem SinceAlert.succ (h : SinceAlert windowSeconds errorThreshold xs s j k)
    (hk : ¬ AlertFor windowSeconds errorThreshold xs s k) :
    SinceAlert windowSeconds errorThreshold xs s j (k + 1) := by
  refine ⟨h.le.trans (Nat.le_succ k), h.start, fun i hji hik => ?_⟩
  rcases Nat.lt_succ_iff_lt_or_eq.mp hik with hlt | rfl
  · exact h.quiet i hji hlt
  · exact hk

theorem sinceAlert_of_alert (h : AlertFor windowSeconds errorThreshold xs s k) :
    SinceAlert windowSeconds errorThreshold xs s (k + 1) (k + 1) :=
  ⟨Nat.le_refl _, Or.inr ⟨k, rfl, h⟩, fun _ hle hlt => absurd hlt (Nat.not_lt.mpr hle)⟩

theorem take_succ_drop (hx : xs[k]? = some x) (hj : j ≤ k) :
    (xs.take (k + 1)).drop j = (xs.take k).drop j ++ [x] := by
  have hlen : j ≤ (xs.take k).length := by
    have := (List.getElem?_eq_some_iff.mp hx).1
    rw [List.length_take]
    omega
  rw [List.take_add_one, hx, Option.toList_some, List.drop_append_of_le_length hlen]

theorem exceptionTimes_append (ys zs : List Sighting) :
    exceptionTimes s (ys ++ zs) = exceptionTimes s ys ++ exceptionTimes s zs := by
  simp [exceptionTimes]

theorem exceptionTimes_single :
    exceptionTimes s [x] = if isException s x.packet = true then [x.now] else [] := by
  unfold exceptionTimes
  by_cases h : isException s x.packet = true <;> simp [h]

/-- Before position `k` the list of `s` holds what later windows need of its exceptions from `j`
on. -/
def HoldsSince (windowSeconds : ℚ) (errorThreshold : Nat) (xs : List Sighting) (s : IPv4)
    (j k : Nat) : Prop :=
  ∀ now, (∀ x ∈ xs.take k, x.now ≤ now) →
    inWindow windowSeconds now (listsBefore windowSeconds errorThreshold xs k s)
      = inWindow windowSeconds now (exceptionTimes s ((xs.take k).drop j))

theorem le_of_le_succ {now : ℚ} (hx : xs[k]? = some x) (h : ∀ y ∈ xs.take (k + 1), y.now ≤ now) :
    (∀ y ∈ xs.take k, y.now ≤ now) ∧ x.now ≤ now := by
  rw [List.take_add_one, hx, Option.toList_some] at h
  exact ⟨fun y hy => h y (List.mem_append_left _ hy), h x (by simp)⟩

/-- A packet that is no exception of `s` changes neither side. -/
theorem HoldsSince.of_not_exception (h : HoldsSince windowSeconds errorThreshold xs s j k)
    (hj : j ≤ k) (hx : xs[k]? = some x) (hexc : isException s x.packet = false) :
    HoldsSince windowSeconds errorThreshold xs s j (k + 1) := by
  intro now hnow
  rw [listsBefore_succ hx, (processPacket_of_not_exception hexc).1, h now (le_of_le_succ hx hnow).1,
    take_succ_drop hx hj, exceptionTimes_append, exceptionTimes_single, if_neg (by simp [hexc]),
    List.append_nil]

/-- An exception that goes onto the list is pruned at its own time only. -/
theorem HoldsSince.of_kept (h : HoldsSince windowSeconds errorThreshold xs s j k) (hj : j ≤ k)
    (hx : xs[k]? = some x) (hexc : isException s x.packet = true)
    (hlist : (processPacket windowSeconds errorThreshold x.packet x.now
      (listsBefore windowSeconds errorThreshold xs k)).1 s
        = inWindow windowSeconds x.now
          (listsBefore windowSeconds errorThreshold xs k s ++ [x.now])) :
    HoldsSince windowSeconds errorThreshold xs s j (k + 1) := by
  intro now hnow
  obtain ⟨hbefore, hle⟩ := le_of_le_succ hx hnow
  rw [listsBefore_succ hx, hlist, inWindow_inWindow hle, inWindow_append, h now hbefore,
    take_succ_drop hx hj, exceptionTimes_append, exceptionTimes_single, if_pos hexc,
    inWindow_append]

/-- An alert empties the list. -/
theorem holdsSince_of_alert (hx : xs[k]? = some x)
    (hlist : (processPacket windowSeconds errorThreshold x.packet x.now
      (listsBefore windowSeconds errorThreshold xs k)).1 s = []) :
    HoldsSince windowSeconds errorThreshold xs s (k + 1) (k + 1) := by
  intro now _
  rw [listsBefore_succ hx, hlist, List.drop_eq_nil_of_le (List.length_take_le _ _)]
  rfl

/-- The list of a source holds what later windows need of its exceptions since its last alert. -/
theorem window_eq (s : IPv4) (k : Nat) :
    ∃ j, SinceAlert windowSeconds errorThreshold xs s j k ∧
      HoldsSince windowSeconds errorThreshold xs s j k := by
  induction k with
  | zero => exact ⟨0, ⟨Nat.le_refl 0, Or.inl rfl, nofun⟩, fun _ _ => rfl⟩
  | succ k ih =>
    obtain ⟨j, hsince, hholds⟩ := ih
    cases hx : xs[k]? with
    | none =>
      refine ⟨j, hsince.succ (not_alertFor_of_none hx), ?_⟩
      unfold HoldsSince listsBefore
      rw [take_succ_of_none hx]
      exact hholds
    | some x =>
      cases hexc : isException s x.packet with
      | false =>
        refine ⟨j, hsince.succ fun halert => ?_, hholds.of_not_exception hsince.le hx hexc⟩
        rw [halert.isException hx] at hexc
        cases hexc
      | true =>
        rcases @processPacket_of_exception windowSeconds errorThreshold s x
            (listsBefore windowSeconds errorThreshold xs k) hexc with
          ⟨-, hlist, halert⟩ | ⟨-, hlist, halert⟩
        · exact ⟨k + 1, sinceAlert_of_alert ⟨_, (alertAt_eq hx).trans halert⟩,
            holdsSince_of_alert hx hlist⟩
        · refine ⟨j, hsince.succ ?_, hholds.of_kept hsince.le hx hexc hlist⟩
          rintro ⟨count, hcount⟩
          rw [alertAt_eq hx, halert] at hcount
          cases hcount

/-- There is one last alert. -/
theorem SinceAlert.unique {j' : Nat} (h : SinceAlert windowSeconds errorThreshold xs s j k)
    (h' : SinceAlert windowSeconds errorThreshold xs s j' k) : j = j' := by
  have hle : ∀ {a b}, SinceAlert windowSeconds errorThreshold xs s a k →
      SinceAlert windowSeconds errorThreshold xs s b k → b ≤ a := by
    intro a b ha hb
    rcases hb.start with rfl | ⟨i, rfl, halert⟩
    · exact Nat.zero_le a
    · by_contra hlt
      exact ha.quiet i (by omega) hb.le halert
  exact Nat.le_antisymm (hle h' h) (hle h h')

/-! ## When an alert is written -/

theorem le_of_mem_between (hclock : xs.Pairwise fun x y => x.now ≤ y.now) (hx : xs[j]? = some x)
    {y : Sighting} (hy : y ∈ between xs j k) : x.now ≤ y.now := by
  obtain ⟨hj, rfl⟩ := List.getElem?_eq_some_iff.mp hx
  have hsub : y ∈ xs.drop j := (List.take_sublist _ _).drop j |>.subset hy
  rw [List.drop_eq_getElem_cons hj] at hsub
  rcases List.mem_cons.mp hsub with rfl | hmem
  · exact le_refl _
  · obtain ⟨i, hi, rfl⟩ := List.mem_drop_iff_getElem.mp hmem
    exact List.pairwise_iff_getElem.mp hclock _ _ _ _ (by omega)

theorem now_le (hclock : xs.Pairwise fun x y => x.now ≤ y.now) (hx : xs[k]? = some x) :
    ∀ y ∈ xs.take k, y.now ≤ x.now := by
  intro y hy
  obtain ⟨i, hi, rfl⟩ := List.mem_take_iff_getElem.mp hy
  obtain ⟨hk, rfl⟩ := List.getElem?_eq_some_iff.mp hx
  exact List.pairwise_iff_getElem.mp hclock _ _ _ hk (by omega)

theorem length_inWindow_exceptionTimes (now : ℚ) (ys : List Sighting) :
    (inWindow windowSeconds now (exceptionTimes s ys)).length
      = (recent windowSeconds s now ys).length := by
  unfold inWindow exceptionTimes recent
  rw [List.filter_map, List.length_map, List.filter_filter]
  congr 1
  refine List.filter_congr fun x _ => ?_
  simp [sub_lt_comm, and_comm]

/-- The count of an alert is the number of recent exceptions since the last one. -/
theorem length_window (hclock : xs.Pairwise fun x y => x.now ≤ y.now) (hx : xs[k]? = some x)
    (hexc : isException s x.packet = true)
    (hsince : SinceAlert windowSeconds errorThreshold xs s j k) :
    (inWindow windowSeconds x.now
        (listsBefore windowSeconds errorThreshold xs k s ++ [x.now])).length
      = (recent windowSeconds s x.now (between xs j k)).length := by
  obtain ⟨j', hsince', hwindow⟩ := @window_eq windowSeconds errorThreshold xs s k
  obtain rfl := hsince.unique hsince'
  rw [inWindow_append, hwindow x.now (now_le hclock hx), ← inWindow_append,
    ← length_inWindow_exceptionTimes, between, take_succ_drop hx hsince.le,
    exceptionTimes_append, exceptionTimes_single, if_pos hexc]

/-- **An alert is written when enough recent exceptions came since the last one.** -/
theorem alertAt_eq_some_iff (hclock : xs.Pairwise fun x y => x.now ≤ y.now)
    (hx : xs[k]? = some x) (hsince : SinceAlert windowSeconds errorThreshold xs s j k)
    (count : Nat) :
    alertAt windowSeconds errorThreshold xs k = some (alert s count) ↔
      isException s x.packet = true ∧ errorThreshold ≤ count ∧
        count = (recent windowSeconds s x.now (between xs j k)).length := by
  rw [alertAt_eq hx]
  cases hexc : isException s x.packet with
  | false =>
    exact iff_of_false ((processPacket_of_not_exception hexc).2 count) (by simp)
  | true =>
    rw [← length_window hclock hx hexc hsince]
    rcases @processPacket_of_exception windowSeconds errorThreshold s x
        (listsBefore windowSeconds errorThreshold xs k) hexc with
      ⟨hreach, -, halert⟩ | ⟨hreach, -, halert⟩
    · rw [halert]
      constructor
      · intro heq
        obtain rfl := alert_count_inj (Option.some.inj heq)
        exact ⟨rfl, hreach, rfl⟩
      · rintro ⟨-, -, rfl⟩
        rfl
    · rw [halert]
      refine iff_of_false nofun ?_
      rintro ⟨-, hle, rfl⟩
      exact hreach hle

/-- **No burst of exceptions passes without an alert.** -/
theorem alert_of_burst {i : Nat} {y : Sighting} (hclock : xs.Pairwise fun x y => x.now ≤ y.now)
    (hik : i ≤ k) (hx : xs[i]? = some x) (hy : xs[k]? = some y)
    (hexc : isException s y.packet = true)
    (hcount : errorThreshold
      ≤ ((between xs i k).filter fun z => isException s z.packet).length)
    (hclose : y.now - x.now < windowSeconds) :
    ∃ l, i ≤ l ∧ l ≤ k ∧ AlertFor windowSeconds errorThreshold xs s l := by
  by_contra hnone
  have hquiet : ∀ l, i ≤ l → l ≤ k → ¬ AlertFor windowSeconds errorThreshold xs s l :=
    fun l hil hlk halert => hnone ⟨l, hil, hlk, halert⟩
  obtain ⟨j, hsince, -⟩ := @window_eq windowSeconds errorThreshold xs s k
  -- the last alert came before the burst, so the whole burst is still on the list
  have hji : j ≤ i := by
    rcases hsince.start with rfl | ⟨l, rfl, halert⟩
    · exact Nat.zero_le i
    · by_contra hlt
      exact hquiet l (by omega) (Nat.le_of_succ_le hsince.le) halert
  have hrecent : (between xs i k).filter (fun z => isException s z.packet)
      = recent windowSeconds s y.now (between xs i k) := by
    refine List.filter_congr fun z hz => ?_
    have hxz : x.now ≤ z.now := le_of_mem_between hclock hx hz
    have hin : y.now - z.now < windowSeconds := lt_of_le_of_lt (sub_le_sub_left hxz _) hclose
    simp [hin]
  have hsub : (recent windowSeconds s y.now (between xs i k)).Sublist
      (recent windowSeconds s y.now (between xs j k)) :=
    (List.drop_sublist_drop_left _ hji).filter _
  rw [hrecent] at hcount
  exact hquiet k hik (Nat.le_refl k) ⟨_, (alertAt_eq_some_iff hclock hy hsince _).mpr
    ⟨hexc, hcount.trans hsub.length_le, rfl⟩⟩

/-! ## Other packets -/

/-- The list of a source is the one its exceptions alone would give. -/
theorem run_eq_run_filter (xs : List Sighting) :
    ∀ {st st' : ErrorTracker × List Dict}, st.1 s = st'.1 s →
      (run (handle windowSeconds errorThreshold) st xs).1 s
        = (run (handle windowSeconds errorThreshold) st'
            (xs.filter fun x => isException s x.packet)).1 s := by
  induction xs with
  | nil => exact id
  | cons x xs ih =>
    intro st st' h
    rw [run_cons, List.filter_cons]
    cases hexc : isException s x.packet with
    | false =>
      rw [if_neg (by simp)]
      exact ih ((processPacket_of_not_exception hexc).1.trans h)
    | true =>
      rw [if_pos rfl, run_cons]
      exact ih (processPacket_congr hexc h).1

/-- Whether and with which count `s` gets an alert depends on its exceptions alone. -/
theorem alertAt_congr {ys : List Sighting} {l : Nat} (hx : xs[k]? = ys[l]?)
    (h : (xs.take k).filter (fun x => isException s x.packet)
      = (ys.take l).filter fun x => isException s x.packet) (count : Nat) :
    alertAt windowSeconds errorThreshold xs k = some (alert s count) ↔
      alertAt windowSeconds errorThreshold ys l = some (alert s count) := by
  have hlist : listsBefore windowSeconds errorThreshold xs k s
      = listsBefore windowSeconds errorThreshold ys l s := by
    unfold listsBefore capture
    rw [run_eq_run_filter (xs.take k) rfl, h, ← run_eq_run_filter (ys.take l) rfl]
  unfold alertAt
  rw [← hx]
  cases xs[k]? with
  | none => exact Iff.rfl
  | some x =>
    rw [Option.bind_some, Option.bind_some]
    cases hexc : isException s x.packet with
    | false =>
      exact iff_of_false ((processPacket_of_not_exception hexc).2 count)
        ((processPacket_of_not_exception hexc).2 count)
    | true => rw [(processPacket_congr hexc hlist).2]

/--
**The exception window neither misses a burst nor over-reports.**

At non-decreasing clock readings, for every source `s`: among `ERROR_THRESHOLD` consecutive
exceptions of `s` less than `WINDOW_SECONDS` apart one is an alert; the count of an alert is the
number of exceptions of `s` since the last alert for `s` and less than `WINDOW_SECONDS` before this
one, itself included, and is at least `ERROR_THRESHOLD`; and no other packet changes which alerts
`s` gets.
-/
theorem exception_window (xs : List Sighting) (s : IPv4) (hw : 0 < windowSeconds)
    (hclock : xs.Pairwise fun x y => x.now ≤ y.now) :
    (∀ i k x y, i ≤ k → xs[i]? = some x → xs[k]? = some y → isException s x.packet = true →
      isException s y.packet = true →
      ((between xs i k).filter fun z => isException s z.packet).length = errorThreshold →
      y.now - x.now < windowSeconds →
        ∃ l, i ≤ l ∧ l ≤ k ∧ AlertFor windowSeconds errorThreshold xs s l) ∧
    (∀ k x count, xs[k]? = some x →
      alertAt windowSeconds errorThreshold xs k = some (alert s count) →
        ∃ j, SinceAlert windowSeconds errorThreshold xs s j k ∧
          x ∈ recent windowSeconds s x.now (between xs j k) ∧ errorThreshold ≤ count ∧
          count = (recent windowSeconds s x.now (between xs j k)).length) ∧
    (∀ (ys : List Sighting) k l, xs[k]? = ys[l]? →
      (xs.take k).filter (fun x => isException s x.packet)
        = (ys.take l).filter (fun x => isException s x.packet) →
      ∀ count, alertAt windowSeconds errorThreshold xs k = some (alert s count) ↔
        alertAt windowSeconds errorThreshold ys l = some (alert s count)) := by
  refine ⟨?_, ?_, fun ys k l hx h count => alertAt_congr hx h count⟩
  · intro i k x y hik hx hy _ hexc hcount hclose
    exact alert_of_burst hclock hik hx hy hexc hcount.ge hclose
  · intro k x count hx halert
    obtain ⟨j, hsince, -⟩ := @window_eq windowSeconds errorThreshold xs s k
    obtain ⟨hexc, hle, hcount⟩ := (alertAt_eq_some_iff hclock hx hsince count).mp halert
    refine ⟨j, hsince, List.mem_filter.mpr ⟨?_, ?_⟩, hle, hcount⟩
    · rw [between, take_succ_drop hx hsince.le]
      exact List.mem_append_right _ (List.mem_singleton_self x)
    · simp [hexc, hw]

end Window

/-- A host that answers with exceptions. -/
def host : IPv4 := ⟨172, 21, 0, 10⟩

/-- Its exceptions, at these times. -/
def exceptionsAt (times : List ℚ) : List Sighting :=
  times.map fun now =>
    ⟨.segment host ⟨172, 22, 0, 10⟩ ⟨502, 50000, 24⟩ [0, 1, 0, 0, 0, 3, 1, 131, 2], now⟩

/-- Five exceptions within the window after an alert are an alert again. -/
theorem exception_window_second :
    ∃ l, 5 ≤ l ∧ l ≤ 9 ∧ AlertFor 60 5 (exceptionsAt [0, 1, 2, 3, 4, 5, 6, 7, 8, 64]) host l :=
  (exception_window _ host (by decide +kernel) (by decide +kernel)).1 5 9 _ _ (by decide)
    rfl rfl (by decide) (by decide) (by decide +kernel) (by decide +kernel)

end OtLab.BruteForce
