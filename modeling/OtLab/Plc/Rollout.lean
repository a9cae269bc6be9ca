import Mathlib.Data.Rat.Defs
import OtLab.Lib.Polling
import OtLab.Py.Value

/-!
# The rollout of the PLC programs

`deploy.py` drives every controller with a committed bundle through the steps of its runtime API:
create-user, login, upload-file, compile, start-plc, RUNNING. What a controller answers to each
request is given, and each answer to a polling loop together with the reading of the clock before
it. A step that raises ends the whole rollout. The texts of the controllers hold no lone surrogates,
on which `print` would raise as well.

* `deploy_returns_iff` — exactly when the steps of one controller do not raise
* `deploy_eq_true_iff` — when all of them succeed
* `finishes_iff` — the rollout does what it should exactly when no controller raises
-/

namespace OtLab.Rollout

open Lib

/-! ## What is answered -/

/-- The exceptions a deployment can raise. Those of `requests` are told from the others. -/
inductive Error where
  | requestException
  | runtimeError (message : String)
  | attributeError
  | typeError
  | keyError
  | osError
  | other
deriving DecidableEq, Repr

/-- An answer; `json` is `none` when `response.json()` raises a `JSONDecodeError`. -/
structure Response where
  statusCode : Nat
  text : String
  json : Option Json

abbrev Reply := Except Error Response

/-- What is answered to a loop that began at `began`, each with the clock before the request. -/
structure Polls where
  began : ℚ
  polls : List (ℚ × Reply)

/-- The replies that are asked for before the deadline. -/
def Polls.replies (p : Polls) (timeout : ℚ) : List Reply :=
  (p.polls.takeWhile fun poll => poll.1 < p.began + timeout).map Prod.snd

/-- The bundle of a target; one that exists need not be readable. -/
structure Bundle where
  committed : Bool
  readable : Bool

/-- What becomes of every request to a controller. -/
structure Controller where
  bundle : Bundle
  version : Polls
  createUser : Reply
  login : Reply
  uploadFile : Reply
  compilationStatus : Polls
  startPlc : Reply
  status : Polls

structure Timeouts where
  ready : ℚ
  compile : ℚ
  start : ℚ

/-! ## One deployment -/

/-- `response.json()`, when it has a `get`. -/
def objectOf (response : Response) : Except Error (List (String × Json)) :=
  match response.json with
  | none => .error .requestException
  | some (.obj d) => .ok d
  | some _ => .error .attributeError

/-- `response.raise_for_status()`. -/
def raiseForStatus (response : Response) : Except Error Unit :=
  if 400 ≤ response.statusCode ∧ response.statusCode < 600 then .error .requestException else .ok ()

/-- The body of the loop of `wait_ready`: only the exceptions of `requests` are caught. -/
def readiness : Reply → Except Error (Option Unit)
  | .ok response => .ok (if response.statusCode = 200 then some () else none)
  | .error .requestException => .ok none
  | .error e => .error e

/-- `wait_ready`. -/
def waitReady (t : Timeouts) (c : Controller) : Except Error Bool := do
  let ready ← pollUntil readiness (c.version.replies t.ready)
  return ready.isSome

/-- `authenticate`. -/
def authenticate (c : Controller) : Except Error Json := do
  let _ ← c.createUser
  let response ← c.login
  raiseForStatus response
  let token := Json.get (← objectOf response) "access_token"
  if token.truthy then return token
  else throw (.runtimeError ("login returned no access_token: " ++ response.text))

/-- The upload of `deploy`: whether it was accepted. -/
def upload (c : Controller) : Except Error Bool := do
  if !c.bundle.readable then throw .osError
  let response ← c.uploadFile
  raiseForStatus response
  let payload ← objectOf response
  return !(Json.get payload "UploadFileFail").truthy

/-- What `value[-40:]` raises: an object takes the slice for a key. -/
def sliceError : Json → Option Error
  | .arr _ | .str _ => none
  | .obj _ => some .keyError
  | _ => some .typeError

/-- The body of the compilation loop: `SUCCESS` or not, once the state is final. -/
def compilation (reply : Reply) : Except Error (Option Bool) := do
  let status ← objectOf (← reply)
  let state := match Json.get status "status" with
    | .str s => s
    | _ => ""
  if state = "SUCCESS" ∨ state = "FAILED" then
    match sliceError ((status.lookup "logs").getD (.arr [])) with
    | some e => throw e
    | none => return some (state == "SUCCESS")
  else return none

mutual
/-- `word in str(value)`, for a word of letters that is in no literal and no escape. -/
def mentions (word : String) : Json → Bool
  | .str s => decide (word.toList <:+: s.toList)
  | .arr l => mentionsElement word l
  | .obj d => mentionsMember word d
  | _ => false

def mentionsElement (word : String) : List Json → Bool
  | [] => false
  | j :: l => mentions word j || mentionsElement word l

def mentionsMember (word : String) : List (String × Json) → Bool
  | [] => false
  | (key, j) :: d =>
    decide (word.toList <:+: key.toList) || mentions word j || mentionsMember word d
end

/-- The body of the last loop: the runtime reports that it is running. -/
def running (reply : Reply) : Except Error (Option Unit) := do
  let state ← objectOf (← reply)
  return if mentions "RUNNING" ((state.lookup "status").getD (.str "")) then some () else none

/-- `deploy`. -/
def deploy (t : Timeouts) (c : Controller) : Except Error Bool := do
  if !(← waitReady t c) then return false
  let _ ← authenticate c
  if !(← upload c) then return false
  let compiled ← pollUntil compilation (c.compilationStatus.replies t.compile)
  if compiled ≠ some true then return false
  let _ ← c.startPlc
  let started ← pollUntil running (c.status.replies t.start)
  return started.isSome

/-! ## The rollout -/

structure Target where
  name : String
  host : String
deriving DecidableEq, Repr

/-- The entries of `TARGETS` that are not empty, as names and hosts. -/
def entries (targets : String) : List Target :=
  let words := (targets.toList.splitOn ',').map String.ofList
  (words.filter fun word => strip word ≠ "").map fun word =>
    let (name, rest) := word.toList.span (· ≠ '=')
    ⟨strip (String.ofList name), strip (String.ofList (rest.drop 1))⟩

/-- The counters of `main`, and the targets `deploy` was called for. -/
structure Progress where
  deployed : Nat
  skipped : Nat
  failed : Nat
  attempted : List Target

/-- The loop of `main`: what it raises, and how far it came. -/
def visit (t : Timeouts) : List (Target × Controller) → Progress → Option Error × Progress
  | [], p => (none, p)
  | (target, c) :: visits, p =>
    if !c.bundle.committed then visit t visits { p with skipped := p.skipped + 1 }
    else
      let p := { p with attempted := p.attempted ++ [target] }
      match deploy t c with
      | .error e => (some e, p)
      | .ok true => visit t visits { p with deployed := p.deployed + 1 }
      | .ok false => visit t visits { p with failed := p.failed + 1 }

/-- How `main` ends: its return value or what it raises, its counters and the sentinel file. -/
structure Outcome where
  returned : Except Error Nat
  progress : Progress
  sentinel : Bool

/-- The targets in order, each with its controller. -/
def visits (targets : String) (controller : Nat → Controller) : List (Target × Controller) :=
  (entries targets).mapIdx fun i target => (target, controller i)

/-- `main`, when entry `i` leads to `controller i`. -/
def main (t : Timeouts) (targets : String) (controller : Nat → Controller) : Outcome :=
  match visit t (visits targets controller) ⟨0, 0, 0, []⟩ with
  | (some e, p) => ⟨.error e, p, false⟩
  | (none, p) => if p.failed ≠ 0 then ⟨.ok 1, p, false⟩ else ⟨.ok 0, p, true⟩

/-! ## What a rollout should do -/

/-- The targets with a committed bundle, in order. -/
def committed (targets : String) (controller : Nat → Controller) : List (Target × Controller) :=
  (visits targets controller).filter fun v => v.2.bundle.committed

/-- The login is answered with a token. -/
def Controller.Grants (c : Controller) : Prop :=
  (∃ response, c.createUser = .ok response) ∧
    ∃ response d, c.login = .ok response ∧ raiseForStatus response = .ok () ∧
      response.json = some (.obj d) ∧ (Json.get d "access_token").truthy = true

/-- The bundle is uploaded and not rejected. -/
def Controller.Accepts (c : Controller) : Prop :=
  c.bundle.readable = true ∧
    ∃ response payload, c.uploadFile = .ok response ∧ raiseForStatus response = .ok () ∧
      response.json = some (.obj payload) ∧ (Json.get payload "UploadFileFail").truthy = false

/-- Every step of the deployment succeeds, in time, and the controller is running at the end. -/
def ReachesRunning (t : Timeouts) (c : Controller) : Prop :=
  Decides readiness (c.version.replies t.ready) () ∧ c.Grants ∧ c.Accepts ∧
    Decides compilation (c.compilationStatus.replies t.compile) true ∧
    (∃ response, c.startPlc = .ok response) ∧ Decides running (c.status.replies t.start) ()

/--
Every committed target is attempted and every entry counted, the return value tells whether all
of the attempts reached RUNNING, and the sentinel is only written when it is 0.
-/
def Finishes (t : Timeouts) (targets : String) (controller : Nat → Controller) : Prop :=
  (∃ code, (main t targets controller).returned = .ok code) ∧
  (main t targets controller).progress.attempted = (committed targets controller).map Prod.fst ∧
  (main t targets controller).progress.deployed + (main t targets controller).progress.skipped
    + (main t targets controller).progress.failed = (entries targets).length ∧
  ((main t targets controller).returned = .ok 1 ↔
    ∃ v ∈ committed targets controller, ¬ ReachesRunning t v.2) ∧
  ((main t targets controller).sentinel = true → (main t targets controller).returned = .ok 0)

/--
No step raises. A controller that is not ready before the deadline, rejects the upload, does not
compile or does not come to RUNNING is left alone by the later steps.
-/
def Survives (t : Timeouts) (c : Controller) : Prop :=
  Calm readiness (c.version.replies t.ready) ∧
  (Decides readiness (c.version.replies t.ready) () →
    c.Grants ∧ c.bundle.readable = true ∧
    ∃ response payload, c.uploadFile = .ok response ∧ raiseForStatus response = .ok () ∧
      response.json = some (.obj payload) ∧
      ((Json.get payload "UploadFileFail").truthy = false →
        Calm compilation (c.compilationStatus.replies t.compile) ∧
        (Decides compilation (c.compilationStatus.replies t.compile) true →
          (∃ response, c.startPlc = .ok response) ∧ Calm running (c.status.replies t.start))))

section Proofs

variable {t : Timeouts} {c : Controller}

theorem objectOf_returns_iff {response : Response} {d : List (String × Json)} :
    objectOf response = .ok d ↔ response.json = some (.obj d) := by
  unfold objectOf
  rcases response.json with - | j
  · simp
  · cases j <;> simp

/-- An answer whose object is read behind `raise_for_status`. -/
theorem checked_returns_iff {β : Type} {reply : Reply}
    {g : Response → List (String × Json) → Except Error β} {b : β} :
    (do
      let response ← reply
      raiseForStatus response
      let d ← objectOf response
      g response d) = .ok b ↔
      ∃ response d, reply = .ok response ∧ raiseForStatus response = .ok () ∧
        response.json = some (.obj d) ∧ g response d = .ok b := by
  simp only [bind_eq_ok_iff, objectOf_returns_iff, Unique.exists_iff]
  constructor
  · rintro ⟨response, hreply, hstatus, d, hjson, h⟩
    exact ⟨response, d, hreply, hstatus, hjson, h⟩
  · rintro ⟨response, d, hreply, hstatus, hjson, h⟩
    exact ⟨response, hreply, hstatus, d, hjson, h⟩

theorem authenticate_returns_iff : (∃ token, authenticate c = .ok token) ↔ c.Grants := by
  unfold authenticate Controller.Grants
  rw [bind_returns_iff]
  simp only [checked_returns_iff]
  constructor
  · rintro ⟨created, hcreated, token, response, d, hreply, hstatus, hjson, h⟩
    refine ⟨⟨created, hcreated⟩, response, d, hreply, hstatus, hjson, ?_⟩
    by_contra htoken
    rw [if_neg htoken] at h
    cases h
  · rintro ⟨⟨created, hcreated⟩, response, d, hreply, hstatus, hjson, htoken⟩
    exact ⟨created, hcreated, _, response, d, hreply, hstatus, hjson, if_pos htoken⟩

theorem upload_eq_ok_iff {accepted : Bool} :
    upload c = .ok accepted ↔ c.bundle.readable = true ∧
      ∃ response payload, c.uploadFile = .ok response ∧ raiseForStatus response = .ok () ∧
        response.json = some (.obj payload) ∧
        (!(Json.get payload "UploadFileFail").truthy) = accepted := by
  unfold upload
  cases c.bundle.readable with
  | false => exact iff_of_false nofun fun h => Bool.false_ne_true h.1
  | true =>
    rw [and_iff_right rfl]
    simp only [Bool.not_true, Bool.false_eq_true, if_false]
    exact checked_returns_iff.trans (by simp only [pure, Except.pure, Except.ok.injEq])

/-- A step that may end the deployment. -/
theorem gate_returns_iff {step rest : Except Error Bool} :
    (∃ r, (do
      if !(← step) then return false
      rest) = .ok r) ↔
      ∃ passed, step = .ok passed ∧ (passed = true → ∃ r, rest = .ok r) := by
  rw [bind_returns_iff]
  refine exists_congr fun passed => and_congr_right fun _ => ?_
  cases passed with
  | false => exact iff_of_true ⟨false, rfl⟩ nofun
  | true => exact ⟨fun h _ => h, fun h => h rfl⟩

theorem waitReady_then_iff {P : Prop} :
    (∃ ready, waitReady t c = .ok ready ∧ (ready = true → P)) ↔
      Calm readiness (c.version.replies t.ready) ∧
        (Decides readiness (c.version.replies t.ready) () → P) := by
  rw [← pollUntil_then_iff]
  unfold waitReady
  simp only [bind_eq_ok_iff]
  constructor
  · rintro ⟨ready, ⟨r, hr, hready⟩, h⟩
    refine ⟨r, hr, ?_⟩
    rintro rfl
    exact h (Except.ok.inj hready).symm
  · rintro ⟨r, hr, h⟩
    exact ⟨r.isSome, ⟨r, hr, rfl⟩, fun hsome => h (Option.eq_some_of_isSome hsome)⟩

theorem compile_then_iff {rest : Except Error Bool} :
    (∃ r, (do
      let compiled ← pollUntil compilation (c.compilationStatus.replies t.compile)
      if compiled ≠ some true then return false
      rest) = .ok r) ↔
      Calm compilation (c.compilationStatus.replies t.compile) ∧
        (Decides compilation (c.compilationStatus.replies t.compile) true →
          ∃ r, rest = .ok r) := by
  rw [← pollUntil_then_iff, bind_returns_iff]
  refine exists_congr fun compiled => and_congr_right fun _ => ?_
  by_cases h : compiled = some true
  · rw [if_neg (not_not_intro h)]
    exact ⟨fun hrest _ => hrest, fun hrest => hrest h⟩
  · rw [if_pos h]
    exact iff_of_true ⟨false, rfl⟩ fun heq => absurd heq h

theorem start_returns_iff :
    (∃ r, (do
      let _ ← c.startPlc
      let started ← pollUntil running (c.status.replies t.start)
      return started.isSome) = .ok r) ↔
      (∃ response, c.startPlc = .ok response) ∧ Calm running (c.status.replies t.start) := by
  rw [← pollUntil_returns_iff]
  simp only [bind_returns_iff]
  constructor
  · rintro ⟨response, hresponse, r, hr, -⟩
    exact ⟨⟨response, hresponse⟩, r, hr⟩
  · rintro ⟨⟨response, hresponse⟩, r, hr⟩
    exact ⟨response, hresponse, r, hr, _, rfl⟩

/-- **Exactly these controllers are deployed to without an exception.** -/
theorem deploy_returns_iff : (∃ r, deploy t c = .ok r) ↔ Survives t c := by
  unfold deploy Survives
  rw [gate_returns_iff, waitReady_then_iff]
  refine and_congr_right fun _ => imp_congr_right fun _ => ?_
  rw [bind_returns_iff, ← authenticate_returns_iff, exists_and_right]
  refine and_congr_right fun _ => ?_
  rw [gate_returns_iff, compile_then_iff, start_returns_iff]
  simp only [upload_eq_ok_iff]
  constructor
  · rintro ⟨accepted, ⟨hreadable, response, payload, hreply, hstatus, hjson, rfl⟩, h⟩
    refine ⟨hreadable, response, payload, hreply, hstatus, hjson, fun hfail => h ?_⟩
    rw [hfail]
    rfl
  · rintro ⟨hreadable, response, payload, hreply, hstatus, hjson, h⟩
    refine ⟨_, ⟨hreadable, response, payload, hreply, hstatus, hjson, rfl⟩, fun haccepted => h ?_⟩
    rw [Bool.not_eq_true'] at haccepted
    exact haccepted

theorem gate_eq_true_iff {step rest : Except Error Bool} :
    (do
      if !(← step) then return false
      rest) = .ok true ↔ step = .ok true ∧ rest = .ok true := by
  rw [bind_eq_ok_iff]
  constructor
  · rintro ⟨passed, hstep, h⟩
    cases passed with
    | false => exact absurd h (by simp [pure, Except.pure])
    | true => exact ⟨hstep, h⟩
  · rintro ⟨hstep, hrest⟩
    exact ⟨true, hstep, hrest⟩

theorem waitReady_eq_true_iff :
    waitReady t c = .ok true ↔ Decides readiness (c.version.replies t.ready) () :=
  pollUntil_isSome_iff

theorem upload_eq_true_iff : upload c = .ok true ↔ c.Accepts := by
  rw [upload_eq_ok_iff]
  simp only [Bool.not_eq_true']
  rfl

theorem compile_eq_true_iff {rest : Except Error Bool} :
    (do
      let compiled ← pollUntil compilation (c.compilationStatus.replies t.compile)
      if compiled ≠ some true then return false
      rest) = .ok true ↔
      Decides compilation (c.compilationStatus.replies t.compile) true ∧ rest = .ok true := by
  rw [← pollUntil_eq_some_iff, bind_eq_ok_iff]
  constructor
  · rintro ⟨compiled, hcompiled, h⟩
    by_cases hne : compiled = some true
    · rw [if_neg (not_not_intro hne)] at h
      exact ⟨hcompiled.trans (congrArg _ hne), h⟩
    · rw [if_pos hne] at h
      cases h
  · rintro ⟨hcompiled, hrest⟩
    exact ⟨some true, hcompiled, hrest⟩

theorem start_eq_true_iff :
    (do
      let _ ← c.startPlc
      let started ← pollUntil running (c.status.replies t.start)
      return started.isSome) = .ok true ↔
      (∃ response, c.startPlc = .ok response) ∧
        Decides running (c.status.replies t.start) () := by
  rw [bind_eq_ok_iff, ← exists_and_right]
  exact exists_congr fun _ => and_congr_right fun _ => pollUntil_isSome_iff

/-- **`deploy` returns True when every step succeeds.** -/
theorem deploy_eq_true_iff : deploy t c = .ok true ↔ ReachesRunning t c := by
  unfold deploy ReachesRunning
  rw [gate_eq_true_iff, waitReady_eq_true_iff, bind_eq_ok_iff, ← authenticate_returns_iff,
    exists_and_right, gate_eq_true_iff, upload_eq_true_iff, compile_eq_true_iff,
    start_eq_true_iff]

/-! ## All of the controllers -/

variable {target : Target} {vs : List (Target × Controller)} {p : Progress}

/-- The counters behind an attempt that returned. -/
def Progress.attempt (p : Progress) (target : Target) (reached : Bool) : Progress :=
  ⟨p.deployed + reached.toNat, p.skipped, p.failed + (!reached).toNat, p.attempted ++ [target]⟩

theorem Progress.count_attempt (p : Progress) (target : Target) (reached : Bool) :
    (p.attempt target reached).deployed + (p.attempt target reached).skipped
      + (p.attempt target reached).failed = p.deployed + p.skipped + p.failed + 1 := by
  cases reached with
  | true =>
    show p.deployed + 1 + p.skipped + p.failed = _
    omega
  | false => rfl

theorem Progress.failed_attempt (p : Progress) (target : Target) (reached : Bool) :
    (p.attempt target reached).failed = 0 ↔ p.failed = 0 ∧ reached = true := by
  cases reached with
  | true => exact (and_iff_left rfl).symm
  | false => exact iff_of_false (Nat.succ_ne_zero _) fun h => Bool.false_ne_true h.2

theorem visit_missing (h : c.bundle.committed = false) :
    visit t ((target, c) :: vs) p = visit t vs { p with skipped := p.skipped + 1 } := by
  conv_lhs => unfold visit
  rw [h]
  rfl

theorem visit_committed (h : c.bundle.committed = true) :
    visit t ((target, c) :: vs) p =
      match deploy t c with
      | .error e => (some e, { p with attempted := p.attempted ++ [target] })
      | .ok reached => visit t vs (p.attempt target reached) := by
  conv_lhs => unfold visit
  rw [h]
  rcases deploy t c with e | reached
  · rfl
  · cases reached <;> rfl

/-- The loop goes through when nothing is raised on the way. -/
theorem visit_returns_iff :
    (visit t vs p).1 = none ↔
      ∀ v ∈ vs, v.2.bundle.committed = true → ∃ r, deploy t v.2 = .ok r := by
  induction vs generalizing p with
  | nil => exact iff_of_true rfl (List.forall_mem_nil _)
  | cons v vs ih =>
    obtain ⟨target, c⟩ := v
    rw [List.forall_mem_cons]
    dsimp only
    cases hcommitted : c.bundle.committed with
    | false =>
      rw [visit_missing hcommitted, ih]
      exact (and_iff_right fun h => absurd h Bool.false_ne_true).symm
    | true =>
      rw [visit_committed hcommitted]
      simp only [forall_const]
      cases deploy t c with
      | error e => exact iff_of_false (Option.some_ne_none e) fun ⟨⟨_, h⟩, _⟩ => nomatch h
      | ok reached =>
        rw [and_iff_right ⟨reached, rfl⟩]
        exact ih

/-- What is counted and attempted when the loop goes through. -/
theorem visit_spec (h : (visit t vs p).1 = none) :
    (visit t vs p).2.attempted
        = p.attempted ++ (vs.filter fun v => v.2.bundle.committed).map Prod.fst ∧
      (visit t vs p).2.deployed + (visit t vs p).2.skipped + (visit t vs p).2.failed
        = p.deployed + p.skipped + p.failed + vs.length ∧
      ((visit t vs p).2.failed = 0 ↔ p.failed = 0 ∧
        ∀ v ∈ vs.filter fun v => v.2.bundle.committed, deploy t v.2 = .ok true) := by
  induction vs generalizing p with
  | nil => exact ⟨(List.append_nil _).symm, rfl, (and_iff_left (List.forall_mem_nil _)).symm⟩
  | cons v vs ih =>
    obtain ⟨target, c⟩ := v
    cases hcommitted : c.bundle.committed with
    | false =>
      rw [visit_missing hcommitted] at h ⊢
      obtain ⟨hattempted, hcount, hfailed⟩ := ih h
      have hfilter : ((target, c) :: vs).filter (fun v => v.2.bundle.committed)
          = vs.filter fun v => v.2.bundle.committed :=
        List.filter_cons_of_neg fun heq => Bool.false_ne_true (hcommitted.symm.trans heq)
      rw [hfilter]
      refine ⟨hattempted, ?_, hfailed⟩
      rw [hcount, List.length_cons]
      show p.deployed + (p.skipped + 1) + p.failed + vs.length = _
      omega
    | true =>
      have hfilter : ((target, c) :: vs).filter (fun v => v.2.bundle.committed)
          = (target, c) :: vs.filter fun v => v.2.bundle.committed :=
        List.filter_cons_of_pos hcommitted
      rw [visit_committed hcommitted] at h ⊢
      rw [hfilter, List.forall_mem_cons, List.map_cons, List.length_cons]
      revert h
      rcases deploy t c with e | reached
      · intro h
        cases h
      intro h
      obtain ⟨hattempted, hcount, hfailed⟩ := ih h
      refine ⟨?_, ?_, ?_⟩
      · rw [hattempted]
        exact List.append_assoc _ _ _
      · rw [hcount, Progress.count_attempt]
        omega
      · rw [hfailed, Progress.failed_attempt, and_assoc, Except.ok.injEq]

end Proofs

variable {t : Timeouts} {targets : String} {controller : Nat → Controller}

theorem mem_committed {v : Target × Controller} :
    v ∈ committed targets controller ↔
      v ∈ visits targets controller ∧ v.2.bundle.committed = true :=
  List.mem_filter

/--
**The rollout does what it should exactly when no attempted deployment raises.**

Each target may fail at any of its steps, as long as the failure is one that `deploy` returns.
-/
theorem finishes_iff (t : Timeouts) (targets : String) (controller : Nat → Controller) :
    Finishes t targets controller ↔
      ∀ v ∈ committed targets controller, Survives t v.2 := by
  have hvisit : (visit t (visits targets controller) ⟨0, 0, 0, []⟩).1 = none ↔
      ∀ v ∈ committed targets controller, Survives t v.2 := by
    rw [visit_returns_iff]
    simp only [mem_committed, and_imp, deploy_returns_iff]
  rw [← hvisit]
  have hspec := @visit_spec t (visits targets controller) ⟨0, 0, 0, []⟩
  unfold Finishes main
  generalize visit t (visits targets controller) ⟨0, 0, 0, []⟩ = out at hspec ⊢
  obtain ⟨raised, p⟩ := out
  cases raised with
  | some e => exact iff_of_false (fun h => nomatch h.1) (Option.some_ne_none e)
  | none =>
    refine iff_of_true ?_ rfl
    obtain ⟨hattempted, hcount, hfailed⟩ := hspec rfl
    have hall : p.failed = 0 ↔ ∀ v ∈ committed targets controller, ReachesRunning t v.2 := by
      simp only [← deploy_eq_true_iff]
      exact hfailed.trans (and_iff_right rfl)
    have hlen : p.deployed + p.skipped + p.failed = (entries targets).length := by
      rw [hcount]
      simp [visits]
    dsimp only
    by_cases hzero : p.failed = 0
    · rw [if_neg (not_not_intro hzero)]
      refine ⟨⟨0, rfl⟩, hattempted, hlen, iff_of_false nofun ?_, fun _ => rfl⟩
      rintro ⟨v, hv, hne⟩
      exact hne (hall.mp hzero v hv)
    · rw [if_pos hzero]
      refine ⟨⟨1, rfl⟩, hattempted, hlen, iff_of_true rfl ?_, nofun⟩
      rw [hall] at hzero
      push Not at hzero
      exact hzero

/-- A controller that answers every request, but whose login fails to connect. -/
def unreachableLogin : Controller where
  bundle := ⟨true, true⟩
  version := ⟨0, [(0, .ok ⟨200, "", none⟩)]⟩
  createUser := .ok ⟨201, "", none⟩
  login := .error .requestException
  uploadFile := .ok ⟨200, "", some (.obj [])⟩
  compilationStatus := ⟨0, []⟩
  startPlc := .ok ⟨200, "", none⟩
  status := ⟨0, []⟩

/-- A login that cannot connect ends the rollout, and the second controller is never tried. -/
theorem unreachableLogin_ends :
    ¬ ∀ t targets controller, Finishes t targets controller := by
  intro h
  have hreturned : (main ⟨180, 600, 120⟩ "intake=172.21.0.10,treatment=172.21.0.11"
      fun _ => unreachableLogin).returned = .error .requestException := by
    decide +kernel
  obtain ⟨⟨code, hcode⟩, -⟩ := h ⟨180, 600, 120⟩ "intake=172.21.0.10,treatment=172.21.0.11"
    fun _ => unreachableLogin
  rw [hreturned] at hcode
  cases hcode

end OtLab.Rollout
