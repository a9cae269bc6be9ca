import OtLab.Detection.BruteForce
import OtLab.Response.Unblock

/-!
# Whom a scan alert names

`ot_brute_force.py` counts the Modbus exceptions a host sends. On the wire it is the controllers
that send them, and a scanner is a client that is sent many.

* `namesScanner_iff` — the alerts name the scanners exactly when there is nothing to report
-/

namespace OtLab.BruteForce

open Lib
open Responder (Reaches)

/-! ## The exchange -/

/-- The packet is a Modbus exception. -/
def IsException (packet : Packet) : Prop := ∃ code ∈ packet.functionCode?, 128 < code

instance : DecidablePred IsException := fun packet =>
  inferInstanceAs (Decidable (∃ code ∈ packet.functionCode?, 128 < code))

/-- A client sends requests to controllers, a controller sends responses to clients. -/
def Exchanged (clients controllers : Set IPv4) (packet : Packet) : Prop :=
  (packet.src ∈ clients ∧ packet.dst ∈ controllers ∧ ¬ IsException packet) ∨
    (packet.src ∈ controllers ∧ packet.dst ∈ clients)

/-- The times of the exceptions sent to `s`, in order. -/
def receivedTimes (s : IPv4) (xs : List Sighting) : List ℚ :=
  (xs.filter fun x => x.packet.dst = s ∧ IsException x.packet).map Sighting.now

/-- Every alert names a client that was sent a scan's exceptions, and every such client is named. -/
structure NamesScanner (clients : Set IPv4) (windowSeconds : ℚ) (errorThreshold : Nat)
    (xs : List Sighting) : Prop where
  named : ∀ s ∈ sources (capture windowSeconds errorThreshold xs).2,
    s ∈ clients ∧ Reaches windowSeconds errorThreshold (receivedTimes s xs)
  reported : ∀ s ∈ clients, Reaches windowSeconds errorThreshold (receivedTimes s xs) →
    s ∈ sources (capture windowSeconds errorThreshold xs).2

/-! ## Attribution -/

variable {clients controllers : Set IPv4} {windowSeconds : ℚ} {errorThreshold : Nat}
  {xs : List Sighting} {s : IPv4}

/-- The alerts name the hosts that send enough exceptions. -/
theorem mem_sources_iff (hw : 0 < windowSeconds)
    (hclock : xs.Pairwise fun x y => x.now ≤ y.now) :
    s ∈ sources (capture windowSeconds errorThreshold xs).2 ↔
      Reaches windowSeconds errorThreshold (exceptionTimes s xs) := by
  rw [reported_iff_fired hw]
  refine Tracker.fired_run_iff hw (List.pairwise_map.mpr ?_)
  exact hclock.sublist List.filter_sublist

/-- Only a controller sends exceptions. -/
theorem controller_of_reaches (hwire : ∀ x ∈ xs, Exchanged clients controllers x.packet)
    (h : Reaches windowSeconds errorThreshold (exceptionTimes s xs)) : s ∈ controllers := by
  obtain ⟨t, ht, -⟩ := h
  obtain ⟨x, hx, -⟩ := List.mem_map.mp ht
  obtain ⟨hmem, hexc⟩ := List.mem_filter.mp hx
  obtain ⟨rfl, hcode⟩ := of_decide_eq_true hexc
  rcases hwire x hmem with ⟨-, -, hnot⟩ | ⟨hsrc, -⟩
  · exact absurd hcode hnot
  · exact hsrc

/--
**The alerts name the scanners exactly when no controller sends, and no client is sent, enough
exceptions for an alert.**

The exceptions are counted under the address of the controller that answers with them: a scanner is
never named, and what several clients are sent is added up.
-/
theorem namesScanner_iff (hroles : ∀ a ∈ clients, a ∉ controllers)
    (hwire : ∀ x ∈ xs, Exchanged clients controllers x.packet) (hw : 0 < windowSeconds)
    (hclock : xs.Pairwise fun x y => x.now ≤ y.now) :
    NamesScanner clients windowSeconds errorThreshold xs ↔
      (∀ s ∈ controllers, ¬ Reaches windowSeconds errorThreshold (exceptionTimes s xs)) ∧
        ∀ s ∈ clients, ¬ Reaches windowSeconds errorThreshold (receivedTimes s xs) := by
  constructor
  · intro h
    have hnone : ∀ s, s ∉ sources (capture windowSeconds errorThreshold xs).2 := by
      intro s hs
      have hcontroller := controller_of_reaches hwire ((mem_sources_iff hw hclock).mp hs)
      exact hroles s (h.named s hs).1 hcontroller
    refine ⟨fun s _ hreaches => ?_, fun s hs hreaches => ?_⟩
    · exact hnone s ((mem_sources_iff hw hclock).mpr hreaches)
    · exact hnone s (h.reported s hs hreaches)
  · rintro ⟨hsent, hreceived⟩
    refine ⟨fun s hs => ?_, fun s hs hreaches => absurd hreaches (hreceived s hs)⟩
    have hreaches := (mem_sources_iff hw hclock).mp hs
    exact absurd hreaches (hsent s (controller_of_reaches hwire hreaches))

/-- A client asks for one holding register. -/
def request (client controller : IPv4) (now : ℚ) : Sighting :=
  ⟨.segment client controller ⟨50000, 502, 24⟩ [0, 1, 0, 0, 0, 6, 1, 3, 0, 10, 0, 1], now⟩

/-- The controller answers with "illegal data address". -/
def refusal (controller client : IPv4) (now : ℚ) : Sighting :=
  ⟨.segment controller client ⟨502, 50000, 24⟩ [0, 1, 0, 0, 0, 3, 1, 131, 2], now⟩

theorem not_isException_request {client controller : IPv4} {now : ℚ} :
    ¬ IsException (request client controller now).packet := by
  rintro ⟨code, hcode, hc⟩
  obtain rfl := Option.mem_some_iff.mp hcode
  exact absurd hc (by decide)

/-- A controller of the lab. -/
def plc : IPv4 := ⟨172, 21, 0, 10⟩

theorem roles_disjoint : ∀ a ∈ ({hmiHost} : Set IPv4), a ∉ ({plc} : Set IPv4) := by
  rintro a rfl
  exact show hmiHost ≠ plc by decide

/-- A request of the HMI and the exception it is answered with. -/
theorem exchanged_refused {now now' : ℚ} {x : Sighting}
    (hx : x ∈ [request hmiHost plc now, refusal plc hmiHost now']) :
    Exchanged {hmiHost} {plc} x.packet := by
  rcases List.mem_cons.mp hx with rfl | hx
  · exact Or.inl ⟨rfl, rfl, not_isException_request⟩
  · obtain rfl := List.mem_singleton.mp hx
    exact Or.inr ⟨rfl, rfl⟩

/-- One request of the HMI, answered by an exception. -/
theorem namesScanner_iff_one :
    NamesScanner {hmiHost} 60 5 [request hmiHost plc 0, refusal plc hmiHost 1] := by
  refine (namesScanner_iff roles_disjoint (fun _ => exchanged_refused) (by decide +kernel)
    (by decide +kernel)).mpr ⟨?_, ?_⟩
  · rintro s rfl
    decide +kernel
  · rintro s rfl
    decide +kernel

/-- Five requests of the HMI within four seconds, each answered by an exception. -/
def scan : List Sighting :=
  [0, 1, 2, 3, 4].flatMap fun now => [request hmiHost plc now, refusal plc hmiHost now]

/-- The alert names the controller, not the HMI that scans it. -/
theorem controller_named :
    ¬ ∀ (clients controllers : Set IPv4) (windowSeconds : ℚ) (errorThreshold : Nat)
      (xs : List Sighting), (∀ a ∈ clients, a ∉ controllers) →
      (∀ x ∈ xs, Exchanged clients controllers x.packet) → 0 < windowSeconds →
      (xs.Pairwise fun x y => x.now ≤ y.now) →
      NamesScanner clients windowSeconds errorThreshold xs := by
  intro h
  have hscan := h {hmiHost} {plc} 60 5 scan roles_disjoint ?_ (by decide +kernel)
    (by decide +kernel)
  · have hplc : plc ∈ sources (capture 60 5 scan).2 := ⟨5, by decide +kernel⟩
    exact absurd (hscan.named plc hplc).1 (show plc ≠ hmiHost by decide)
  · intro x hx
    obtain ⟨now, -, hx⟩ := List.mem_flatMap.mp hx
    exact exchanged_refused hx

end OtLab.BruteForce
