import Mathlib.Logic.Function.Basic
import OtLab.Lib.Run

/-!
# The historian collector

`historian.py` and the main loop of `poller.py`. Every cycle chooses the primary controllers or
the stand-in, reads each target through a cache of clients keyed by asset, and writes one point
per asset that could be read.

A client stays open until it fails, and the two target lists share their asset names, so a cached
client may still be connected to the endpoint of an earlier choice.

* `points_from_chosen_targets` — in runs without such stale clients every point comes from the
  endpoint chosen for its asset
* `noStaleClient_of_always_right` — a stale client gives a wrong point as soon as it answers
-/

namespace OtLab.Poller

open Lib

/-! ## Helpers of `historian.py` -/

abbrev Endpoint := String × Nat

structure Target where
  asset : String
  host : String
  port : Nat
deriving DecidableEq, Repr

def Target.endpoint (t : Target) : Endpoint := (t.host, t.port)

/-- `FIELDS.get(asset, {})`: register offsets and field names. -/
def fields (asset : String) : List (Nat × String) :=
  if asset = "plc_intake" then
    [(0, "valve"), (1, "pump"), (5, "level"), (6, "alarm")]
  else if asset = "plc_treatment" then
    [(0, "flow"), (1, "dosing"), (2, "rate"), (5, "chlorine"), (6, "alarm")]
  else if asset = "plc_distribution" then
    [(0, "pump"), (1, "pressure"), (2, "speed"), (5, "runtime"), (6, "alarm")]
  else []

/-- `decode_registers`. -/
def decodeRegisters (asset : String) (registers : List Nat) : List (String × Nat) :=
  (fields asset).filterMap fun (offset, name) => (registers[offset]?).map fun v => (name, v)

/-- `line_protocol`; a tag without a value is omitted. -/
def lineProtocol (measurement : String) (tags : List (String × Option String))
    (values : List (String × Nat)) : String :=
  let tagPart := String.join (tags.filterMap fun (key, value) =>
    value.map fun v => "," ++ key ++ "=" ++ v)
  let fieldPart := ",".intercalate (values.map fun (key, v) => key ++ "=" ++ toString v ++ "i")
  measurement ++ tagPart ++ " " ++ fieldPart

/-- `choose_targets`. -/
def chooseTargets (reachable : Endpoint → Bool) (primary fallback : List Target) : List Target :=
  if !primary.isEmpty && primary.all fun t => reachable t.endpoint then primary else fallback

/-! ## `poll_once` -/

/-- A Modbus client: where it connects to, and whether its connection is open. -/
structure Client where
  host : String
  port : Nat
  connected : Bool
deriving DecidableEq, Repr

def Client.endpoint (c : Client) : Endpoint := (c.host, c.port)

abbrev Clients := String → Option Client

/-- What a `read_holding_registers` call ends in. -/
inductive ReadOutcome where
  | raised
  | errorResponse
  | registers (l : List Nat)
deriving DecidableEq, Repr

/-- What the environment does with one target of a cycle. -/
structure Attempt where
  connects : Bool
  read : ReadOutcome
deriving DecidableEq, Repr

/-- A `process_state` point, with the endpoint its registers were read from. -/
structure Point where
  asset : String
  source : Endpoint
  values : List (String × Nat)
deriving DecidableEq, Repr

structure PollState where
  clients : Clients
  points : List Point
  ok : Bool

/-- The client `poll_once` uses for a target: the cached one while it is connected. -/
def clientFor (t : Target) (a : Attempt) (clients : Clients) : Client :=
  match clients t.asset with
  | some c => if c.connected then c else ⟨t.host, t.port, a.connects⟩
  | none => ⟨t.host, t.port, a.connects⟩

/-- The body of the loop of `poll_once`. A client that answered is connected. -/
def pollTarget (t : Target) (a : Attempt) (st : PollState) : PollState :=
  let client := clientFor t a st.clients
  match a.read with
  | .raised | .errorResponse =>
    { st with clients := Function.update st.clients t.asset none, ok := false }
  | .registers l =>
    { st with
      clients := Function.update st.clients t.asset (some { client with connected := true })
      points := st.points ++ [⟨t.asset, client.endpoint, decodeRegisters t.asset l⟩] }

/-- The loop of `poll_once`, from the `i`-th target of the cycle on. -/
def pollTargets (attempt : Nat → Attempt) : Nat → List Target → PollState → PollState
  | _, [], st => st
  | i, t :: ts, st => pollTargets attempt (i + 1) ts (pollTarget t (attempt i) st)

/-- The outcome of an HTTP request to InfluxDB, without redirects and malformed replies. -/
inductive HttpOutcome where
  | success
  | httpError (code : Nat)
  | unreachable
deriving DecidableEq, Repr

/-- `http_post`: a 400 counts as done. -/
def httpPost : HttpOutcome → Bool
  | .success => true
  | .httpError code => code == 400
  | .unreachable => false

/-- `write_points`. -/
def writePoints (lines : List String) (http : HttpOutcome) : Bool :=
  if lines.isEmpty then true else httpPost http

/-- What one `poll_once` leaves behind. -/
structure PollResult where
  clients : Clients
  points : List Point
  lines : List String
  ok : Bool
  healthWritten : Bool

def Point.line (zone : String) (p : Point) : String :=
  lineProtocol "process_state" [("asset", some p.asset), ("zone", some zone)] p.values

/-- `poll_once`. -/
def pollOnce (zone : String) (attempt : Nat → Attempt) (http : HttpOutcome) (clients : Clients)
    (targets : List Target) : PollResult :=
  let st := pollTargets attempt 0 targets { clients := clients, points := [], ok := true }
  let health := lineProtocol "poller_health" [("zone", some zone)]
    [("points", st.points.length), ("ok", if st.ok then 1 else 0)]
  let lines := st.points.map (Point.line zone) ++ [health]
  let ok := writePoints lines http && st.ok
  { clients := st.clients, points := st.points, lines := lines, ok := ok, healthWritten := ok }

/-! ## The main loop -/

/-- What the environment does in one cycle. -/
structure Cycle where
  reachable : Endpoint → Bool
  attempt : Nat → Attempt
  http : HttpOutcome

/-- The targets a cycle chose and the points it wrote. -/
structure CycleRecord where
  targets : List Target
  points : List Point
deriving DecidableEq, Repr

structure MainState where
  clients : Clients
  history : List CycleRecord

def start : MainState := { clients := fun _ => none, history := [] }

section Main

variable (zone : String) (primary fallback : List Target)

/-- One turn of the main loop. -/
def mainStep (st : MainState) (c : Cycle) : MainState :=
  let targets := chooseTargets c.reachable primary fallback
  let result := pollOnce zone c.attempt c.http st.clients targets
  { clients := result.clients, history := st.history ++ [⟨targets, result.points⟩] }

/-- The client of an asset is connected to an endpoint chosen for that asset. -/
def ChosenFor (targets : List Target) (asset : String) (e : Endpoint) : Prop :=
  ∃ t ∈ targets, t.asset = asset ∧ t.endpoint = e

/-- Every point of the cycle was read from an endpoint chosen for its asset. -/
def CycleRecord.Sound (r : CycleRecord) : Prop :=
  ∀ p ∈ r.points, ChosenFor r.targets p.asset p.source

/-- No asset of the list still has an open client to an endpoint not chosen for it. -/
def NoStaleClient (clients : Clients) (targets : List Target) : Prop :=
  ∀ t ∈ targets, ∀ c, clients t.asset = some c → c.connected = true →
    ChosenFor targets t.asset c.endpoint

/-! ## One cycle -/

variable {zone primary fallback} {targets : List Target} {clients : Clients}

/-- What holds inside `poll_once` when no client was stale at its start. -/
structure CycleInv (targets : List Target) (st : PollState) : Prop where
  clients : NoStaleClient st.clients targets
  points : ∀ p ∈ st.points, ChosenFor targets p.asset p.source

theorem clientFor_chosen {st : PollState} (h : NoStaleClient st.clients targets) {t : Target}
    (ht : t ∈ targets) (a : Attempt) :
    ChosenFor targets t.asset (clientFor t a st.clients).endpoint := by
  have hself : ChosenFor targets t.asset t.endpoint := ⟨t, ht, rfl, rfl⟩
  unfold clientFor
  cases hc : st.clients t.asset with
  | none => exact hself
  | some c =>
    cases hcon : c.connected with
    | false =>
      simp only [hcon, Bool.false_eq_true, if_false]
      exact hself
    | true =>
      simp only [hcon, if_true]
      exact h t ht c hc hcon

theorem pollTarget_inv {st : PollState} (h : CycleInv targets st) {t : Target}
    (ht : t ∈ targets) (a : Attempt) : CycleInv targets (pollTarget t a st) := by
  have hchosen := clientFor_chosen h.clients ht a
  have hdrop : NoStaleClient (Function.update st.clients t.asset none) targets := by
    intro t' ht' c hc hcon
    by_cases heq : t'.asset = t.asset
    · rw [heq, Function.update_self] at hc
      simp at hc
    · rw [Function.update_of_ne heq] at hc
      exact h.clients t' ht' c hc hcon
  unfold pollTarget
  cases a.read with
  | raised | errorResponse => exact ⟨hdrop, h.points⟩
  | registers l =>
    refine ⟨?_, ?_⟩
    · -- the client used becomes the cached one; the clients of other assets stay
      intro t' ht' c hc hcon
      by_cases heq : t'.asset = t.asset
      · simp only [heq, Function.update_self, Option.some.injEq] at hc
        subst hc
        rw [heq]
        exact hchosen
      · simp only [Function.update_of_ne heq] at hc
        exact h.clients t' ht' c hc hcon
    · intro p hp
      rcases List.mem_append.mp hp with hp | hp
      · exact h.points p hp
      · rw [List.mem_singleton] at hp
        subst hp
        exact hchosen

theorem pollTargets_inv (attempt : Nat → Attempt) : ∀ (ts : List Target) (i : Nat)
    (st : PollState), ts ⊆ targets → CycleInv targets st →
    CycleInv targets (pollTargets attempt i ts st)
  | [], _, _, _, h => h
  | _ :: ts, i, _, hsub, h =>
    pollTargets_inv attempt ts (i + 1) _ (fun _ hx => hsub (List.mem_cons_of_mem _ hx))
      (pollTarget_inv h (hsub List.mem_cons_self) (attempt i))

/-- A cycle without stale clients writes only points read from the endpoints it chose. -/
theorem pollOnce_sound (zone : String) (attempt : Nat → Attempt) (http : HttpOutcome)
    (h : NoStaleClient clients targets) :
    CycleRecord.Sound ⟨targets, (pollOnce zone attempt http clients targets).points⟩ :=
  (pollTargets_inv attempt targets 0 _ (fun _ hx => hx) ⟨h, by simp⟩).points

/-- Polling the same targets again finds no stale client. -/
theorem noStaleClient_pollOnce (zone : String) (attempt : Nat → Attempt) (http : HttpOutcome)
    (h : NoStaleClient clients targets) :
    NoStaleClient (pollOnce zone attempt http clients targets).clients targets :=
  (pollTargets_inv attempt targets 0 _ (fun _ hx => hx) ⟨h, by simp⟩).clients

theorem noStaleClient_start (targets : List Target) : NoStaleClient start.clients targets := by
  intro t _ c hc
  simp [start] at hc

/-! ## Runs -/

/--
**The historian records what it says it records.**

In every run in which no cycle finds an open client to an endpoint it has not chosen for that
asset, every point written in a cycle was read from the endpoint `choose_targets` returned for
its asset in that cycle.
-/
theorem points_from_chosen_targets (zone : String) (primary fallback : List Target)
    (cycles : List Cycle)
    (h : StepsMeet (mainStep zone primary fallback)
      (fun st c => NoStaleClient st.clients (chooseTargets c.reachable primary fallback))
      start cycles) :
    ∀ r ∈ (run (mainStep zone primary fallback) start cycles).history, r.Sound := by
  refine run_invariant (fun st : MainState => ∀ r ∈ st.history, r.Sound) ?_ ?_ h
  · intro st c hst hc r hr
    rcases List.mem_append.mp hr with hr | hr
    · exact hst r hr
    · rw [List.mem_singleton] at hr
      subst hr
      exact pollOnce_sound zone c.attempt c.http hc
  · intro r hr
    simp [start] at hr

end Main

instance (targets : List Target) (asset : String) (e : Endpoint) :
    Decidable (ChosenFor targets asset e) := by
  unfold ChosenFor
  infer_instance

instance (r : CycleRecord) : Decidable r.Sound := by
  unfold CycleRecord.Sound
  infer_instance

/-- The default of `OT_POLL_PRIMARY`. -/
def defaultPrimary : List Target :=
  [⟨"plc_intake", "172.21.0.10", 502⟩, ⟨"plc_treatment", "172.21.0.11", 502⟩,
    ⟨"plc_distribution", "172.21.0.12", 502⟩]

/-- The default of `OT_POLL_FALLBACK`. -/
def defaultFallback : List Target :=
  [⟨"plc_intake", "172.21.0.60", 502⟩, ⟨"plc_treatment", "172.21.0.61", 502⟩,
    ⟨"plc_distribution", "172.21.0.62", 502⟩]

/-- A cycle in which every read answers; `up` tells whether the controllers do. -/
def answeringCycle (up : Bool) : Cycle :=
  { reachable := fun _ => up
    attempt := fun _ => ⟨true, .registers [1, 60, 0, 0, 0, 78, 0]⟩
    http := .success }

/-- Two cycles on the stand-in are recorded as such. -/
theorem points_from_chosen_targets_standIn :
    (run (mainStep "control" defaultPrimary defaultFallback) start
      [answeringCycle false, answeringCycle false]).history.length = 2 ∧
    ∀ r ∈ (run (mainStep "control" defaultPrimary defaultFallback) start
      [answeringCycle false, answeringCycle false]).history, r.Sound := by
  refine ⟨rfl, ?_⟩
  refine points_from_chosen_targets "control" defaultPrimary defaultFallback
    [answeringCycle false, answeringCycle false] ⟨noStaleClient_start _, ?_, trivial⟩
  exact noStaleClient_pollOnce "control" _ .success (noStaleClient_start defaultFallback)

/--
The poller does not upgrade itself: after one cycle on the stand-in the controllers answer, but
the clients of the stand-in are still open and are read again.
-/
theorem points_from_stale_client :
    ¬ ∀ (zone : String) (primary fallback : List Target) (cycles : List Cycle),
      ∀ r ∈ (run (mainStep zone primary fallback) start cycles).history, r.Sound := by
  intro h
  have hbad := h "control" defaultPrimary defaultFallback
    [answeringCycle false, answeringCycle true]
  revert hbad
  decide

/-! ## A stale client is never harmless -/

theorem points_pollTarget_subset (t : Target) (a : Attempt) (st : PollState) :
    st.points ⊆ (pollTarget t a st).points := by
  intro p hp
  unfold pollTarget
  cases a.read with
  | raised | errorResponse => exact hp
  | registers l => exact List.mem_append_left _ hp

theorem points_pollTargets_subset (attempt : Nat → Attempt) : ∀ (ts : List Target) (i : Nat)
    (st : PollState), st.points ⊆ (pollTargets attempt i ts st).points
  | [], _, _ => fun _ hp => hp
  | t :: ts, i, st => fun _ hp =>
    points_pollTargets_subset attempt ts (i + 1) _ (points_pollTarget_subset t (attempt i) st hp)

theorem clients_pollTarget_of_ne {t : Target} {asset : String} (h : t.asset ≠ asset) (a : Attempt)
    (st : PollState) : (pollTarget t a st).clients asset = st.clients asset := by
  unfold pollTarget
  cases a.read <;> exact Function.update_of_ne (Ne.symm h) _ _

/-- An open client that answers is read for the first target of its asset. -/
theorem point_of_open_client (values : List Nat) {asset : String} {c : Client}
    (hcon : c.connected = true) : ∀ (ts : List Target) (i : Nat) (st : PollState),
    (∃ t ∈ ts, t.asset = asset) → st.clients asset = some c →
    ∃ p ∈ (pollTargets (fun _ => ⟨true, .registers values⟩) i ts st).points,
      p.asset = asset ∧ p.source = c.endpoint
  | [], _, _, h, _ => by simp at h
  | t :: ts, i, st, h, hc => by
    by_cases heq : t.asset = asset
    · -- later targets only add points
      refine ⟨⟨t.asset, c.endpoint, decodeRegisters t.asset values⟩, ?_, heq, rfl⟩
      refine points_pollTargets_subset _ ts (i + 1) _ ?_
      have hclient : clientFor t ⟨true, .registers values⟩ st.clients = c := by
        simp [clientFor, heq, hc, hcon]
      simp [pollTarget, hclient]
    · obtain ⟨t', ht', hasset⟩ := h
      have hrest : ∃ t ∈ ts, t.asset = asset := by
        rcases List.mem_cons.mp ht' with rfl | ht'
        · exact absurd hasset heq
        · exact ⟨t', ht', hasset⟩
      exact point_of_open_client values hcon ts (i + 1) _ hrest
        ((clients_pollTarget_of_ne heq _ st).trans hc)

/-- **A stale client is never harmless**: a cycle that writes only points from the endpoints it
chose, whatever the environment does, starts without one. -/
theorem noStaleClient_of_always_right {zone : String} {http : HttpOutcome}
    {targets : List Target} {clients : Clients} (h : ∀ attempt : Nat → Attempt,
      CycleRecord.Sound ⟨targets, (pollOnce zone attempt http clients targets).points⟩) :
    NoStaleClient clients targets := by
  intro t ht c hc hcon
  obtain ⟨p, hp, hasset, hsource⟩ := point_of_open_client [] hcon targets 0
    { clients := clients, points := [], ok := true } ⟨t, ht, rfl⟩ hc
  have hchosen := h (fun _ => ⟨true, .registers []⟩) p hp
  rw [hasset, hsource] at hchosen
  exact hchosen

end OtLab.Poller
