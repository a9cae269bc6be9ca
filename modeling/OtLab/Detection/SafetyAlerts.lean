import Mathlib.Data.List.Nodup
import Mathlib.Data.List.Range
import Mathlib.Data.List.TakeWhile
import OtLab.Detection.ProcessSafety

/-!
# The alerts of the physics-aware monitor

`process_packet` over whole runs: complete responses of the PLC to reads that start at register 0,
complete write requests from anybody to anybody, and any other packets the monitor neither learns
from nor checks.

* `iterWrites_payload` — the decoder picks out exactly the registers a request writes
* `violation_exact` — which packets of a run raise `PROCESS_SAFETY_VIOLATION`

A level that was never seen counts as the initial 0, so a negative threshold is exceeded from the
start. A negative number for the register of the level makes the slice end up in the header.
-/

namespace OtLab.ProcessSafety

open Lib Bytes

/-! ## Write requests -/

/-- The body of a Modbus write request. -/
inductive WriteBody where
  /-- FC6 -/
  | single (register value : UInt16)
  /-- FC16 -/
  | multiple (start : UInt16) (values : List UInt16) (length_le : values.length ≤ 127)

namespace WriteBody

def functionCode : WriteBody → UInt8
  | single .. => 6
  | multiple .. => 16

/-- Everything behind the function code. -/
def data : WriteBody → Bytes
  | single register value => big16 register ++ big16 value
  | multiple start values _ => big16 start ++ big16 (UInt16.ofNat values.length)
      ++ [UInt8.ofNat (2 * values.length)] ++ values.flatMap big16

/-- The registers that are written, with their values. -/
def writes : WriteBody → List (Int × Nat)
  | single register value => [(register.toNat, value.toNat)]
  | multiple start values _ => values.mapIdx fun i v => (↑(start.toNat + i), v.toNat)

end WriteBody

/-- A complete write request. -/
structure WriteRequest where
  src : IPv4
  dst : IPv4
  header : TcpHeader
  transaction : UInt16
  unit : UInt8
  body : WriteBody

namespace WriteRequest

/-- MBAP header and PDU. -/
def payload (w : WriteRequest) : Bytes :=
  big16 w.transaction ++ [0, 0] ++ big16 (UInt16.ofNat (2 + w.body.data.length)) ++ [w.unit]
    ++ w.body.functionCode :: w.body.data

def packet (w : WriteRequest) : Packet := .segment w.src w.dst w.header w.payload

theorem length_payload (w : WriteRequest) : w.payload.length = 8 + w.body.data.length := by
  simp [payload, big16]
  omega

end WriteRequest

/-- A register is written at most once by a request. -/
theorem writes_nodup (b : WriteBody) : (b.writes.map Prod.fst).Nodup := by
  cases b with
  | single register value => exact List.nodup_singleton _
  | multiple start values h =>
    have hrange : ((WriteBody.multiple start values h).writes.map Prod.fst)
        = (List.range' start.toNat values.length).map Nat.cast := by
      refine List.ext_getElem (by simp [WriteBody.writes]) fun i h1 h2 => ?_
      simp [WriteBody.writes]
    rw [hrange]
    exact List.Nodup.map Nat.cast_injective List.nodup_range'

/-- A value of a multiple write is read where it was written. -/
theorem fromBig_slice_value {w : WriteRequest} {start : UInt16} {values : List UInt16}
    {h : values.length ≤ 127} (hb : w.body = .multiple start values h) {i : Nat}
    (hi : i < values.length) :
    fromBig (slice w.payload (13 + i * 2) (13 + i * 2 + 2)) = values[i].toNat := by
  obtain ⟨src, dst, header, transaction, unit, body⟩ := w
  obtain rfl : body = .multiple start values h := hb
  have hslice := slice_flatMap_big16 values i hi
  rw [← fromBig_big16, ← hslice, Nat.add_assoc, Nat.mul_comm i 2]
  set w : WriteRequest := ⟨src, dst, header, transaction, unit, .multiple start values h⟩
  exact congrArg fromBig (@slice_append_right (w.payload.take 13) (values.flatMap big16) 13
    (2 * i) (2 * i + 2) rfl)

theorem iterWrites_single {w : WriteRequest} {register value : UInt16}
    (hb : w.body = .single register value) :
    iterWrites w.payload 6 = .ok [(↑register.toNat, value.toNat)] := by
  obtain ⟨src, dst, header, transaction, unit, body⟩ := w
  obtain rfl : body = .single register value := hb
  have hreg : fromBig (big16 register) = register.toNat := fromBig_big16 register
  have hval : fromBig (big16 value) = value.toNat := fromBig_big16 value
  unfold iterWrites
  rw [if_pos ⟨rfl, Nat.le_refl 12⟩, ← hreg, ← hval]
  rfl

theorem iterWrites_multiple {w : WriteRequest} {start : UInt16} {values : List UInt16}
    {h : values.length ≤ 127} (hb : w.body = .multiple start values h) :
    iterWrites w.payload 16 = .ok (WriteBody.multiple start values h).writes := by
  have hvalue := fun i hi => @fromBig_slice_value w start values h hb i hi
  obtain ⟨src, dst, header, transaction, unit, body⟩ := w
  obtain rfl : body = .multiple start values h := hb
  set w : WriteRequest := ⟨src, dst, header, transaction, unit, .multiple start values h⟩
  have hlen : w.payload.length = 13 + 2 * values.length := by
    rw [w.length_payload]
    simp [w, WriteBody.data, big16]
    omega
  have hstart : fromBig (slice w.payload 8 10) = start.toNat := fromBig_big16 start
  have hquantity : fromBig (slice w.payload 10 12) = values.length :=
    (fromBig_big16 _).trans (by rw [UInt16.toNat_ofNat']; omega)
  have hcount : getByte w.payload 12 = .ok (UInt8.ofNat (2 * values.length)) := rfl
  have hhalf : (UInt8.ofNat (2 * values.length)).toNat / 2 = values.length := by
    rw [UInt8.toNat_ofNat']
    omega
  -- no value is cut off
  have hwhole : ((List.range values.length).takeWhile fun i => 13 + i * 2 + 2 ≤ w.payload.length)
      = List.range values.length := by
    refine List.takeWhile_eq_self_iff.mpr fun i hi => ?_
    have := List.mem_range.mp hi
    simp only [hlen, decide_eq_true_eq]
    omega
  unfold iterWrites
  rw [if_neg (by simp), if_pos ⟨rfl, by omega⟩]
  simp only [hstart, hquantity, hcount, bind, Except.bind, pure, Except.pure, hhalf,
    Nat.min_self, hwhole]
  refine congrArg Except.ok (List.ext_getElem (by simp [WriteBody.writes]) fun i h1 h2 => ?_)
  have hi : i < values.length := by simpa using h1
  simp [WriteBody.writes, hvalue i hi]

/-- **The decoder picks out exactly the registers a request writes.** -/
theorem iterWrites_payload (w : WriteRequest) :
    iterWrites w.payload w.body.functionCode = .ok w.body.writes := by
  cases hb : w.body with
  | single register value => exact iterWrites_single hb
  | multiple start values h => exact iterWrites_multiple hb

/-! ## One packet -/

section Packet

variable {cfg : Config} {src : IPv4} {st : Shadow × List SinkCall} {writes : List (Int × Nat)}
  {shadow : Shadow} {p : Packet}

/-- Writes of other registers change nothing. -/
theorem foldl_enforce_of_ne (h : ∀ w ∈ writes, w.1 ≠ cfg.inletValveReg) :
    writes.foldl (enforce cfg src) st = st := by
  induction writes generalizing st with
  | nil => rfl
  | cons w writes ih =>
    have hw : enforce cfg src st w = st := if_pos (h w (by simp))
    rw [List.foldl_cons, hw]
    exact ih fun x hx => h x (by simp [hx])

/-- The writes of one request: the level stays, and there is an alert when the valve is opened above
the threshold. -/
theorem foldl_enforce (hne : cfg.inletValveReg ≠ cfg.tankLevelReg)
    (hnodup : (writes.map Prod.fst).Nodup) :
    (writes.foldl (enforce cfg src) st).1 cfg.tankLevelReg = st.1 cfg.tankLevelReg ∧
      (writes.foldl (enforce cfg src) st).2 = st.2 ++
        if (cfg.inletValveReg, 1) ∈ writes ∧ cfg.levelThreshold < st.1 cfg.tankLevelReg then
          logAlert cfg src (st.1 cfg.tankLevelReg) else [] := by
  induction writes generalizing st with
  | nil => simp
  | cons w writes ih =>
    obtain ⟨hnot, hnodup⟩ := List.nodup_cons.mp hnodup
    rw [List.foldl_cons]
    by_cases hw : w.1 = cfg.inletValveReg
    · -- the valve register; no later write is to it
      have hlater : ∀ x ∈ writes, x.1 ≠ cfg.inletValveReg := fun x hx hx' =>
        hnot (List.mem_map.mpr ⟨x, hx, hx'.trans hw.symm⟩)
      have hmem : (cfg.inletValveReg, 1) ∈ w :: writes ↔ w.2 = 1 := by
        rw [List.mem_cons, or_iff_left fun hx => hlater _ hx rfl, Prod.ext_iff, ← hw]
        simp [eq_comm]
      rw [foldl_enforce_of_ne hlater, enforce, if_neg (not_not.mpr hw)]
      simp only [hmem]
      refine ⟨Function.update_of_ne hne.symm _ _, ?_⟩
      by_cases hopen : w.2 = 1 ∧ cfg.levelThreshold < st.1 cfg.tankLevelReg <;> simp [hopen]
    · have hskip : enforce cfg src st w = st := if_pos hw
      have hmem : (cfg.inletValveReg, 1) ∈ w :: writes ↔ (cfg.inletValveReg, 1) ∈ writes :=
        List.mem_cons.trans (or_iff_right fun heq => hw (congrArg Prod.fst heq).symm)
      simp only [hskip, hmem]
      exact ih hnodup

/-- The shadow and the sink calls of a packet; none of them raises here. -/
def observe (cfg : Config) (shadow : Shadow) (p : Packet) : Shadow × List SinkCall :=
  match processPacket cfg p shadow with
  | .ok r => r
  | .error _ => (shadow, [])

/-- A write request. -/
theorem observe_write (hne : cfg.inletValveReg ≠ cfg.tankLevelReg) (w : WriteRequest) :
    (observe cfg shadow w.packet).1 cfg.tankLevelReg = shadow cfg.tankLevelReg ∧
      (observe cfg shadow w.packet).2 =
        if w.dst = cfg.plcIp ∧ (cfg.inletValveReg, 1) ∈ w.body.writes ∧
            cfg.levelThreshold < shadow cfg.tankLevelReg then
          logAlert cfg w.src (shadow cfg.tankLevelReg) else [] := by
  have hlen : ¬ w.payload.length < 8 := by
    rw [w.length_payload]
    omega
  have hcode : getByte w.payload 7 = .ok w.body.functionCode := rfl
  have hwrite : w.body.functionCode = 6 ∨ w.body.functionCode = 16 := by
    cases w.body
    · exact Or.inl rfl
    · exact Or.inr rfl
  have hnot3 : w.body.functionCode ≠ 3 := by
    rcases hwrite with h | h <;> rw [h] <;> decide
  have hlearn : learn cfg w.src w.body.functionCode w.payload shadow = .ok shadow :=
    if_neg fun h => hnot3 h.2.1
  unfold observe processPacket
  simp only [WriteRequest.packet, Packet.segment_load?, if_neg hlen, hcode, Packet.segment_src,
    Packet.segment_dst, bind, Except.bind, hlearn, pure, Except.pure]
  by_cases hdst : w.dst = cfg.plcIp
  · simp only [hdst, hwrite, iterWrites_payload, true_and, if_true]
    exact foldl_enforce hne (writes_nodup w.body)
  · simp [hdst]

/-- Learning does not raise, and only a response of the PLC is learned from. -/
theorem learn_ok (srcIp : IPv4) (code : UInt8) (payload : Bytes) :
    ∃ s, learn cfg srcIp code payload shadow = .ok s ∧
      (¬ (srcIp = cfg.plcIp ∧ code = 3) → s = shadow) := by
  unfold learn
  by_cases h : srcIp = cfg.plcIp ∧ code = 3 ∧ 9 ≤ payload.length
  · have hcount : getByte payload 8 = .ok payload[8] :=
      getByte_of_some (List.getElem?_eq_getElem (by omega))
    have hcontra : ∀ s : Shadow, ¬ (srcIp = cfg.plcIp ∧ code = 3) → s = shadow :=
      fun _ hn => absurd ⟨h.1, h.2.1⟩ hn
    simp only [if_pos h, hcount, bind, Except.bind, pure, Except.pure]
    split
    · exact ⟨_, rfl, hcontra _⟩
    · exact ⟨_, rfl, hcontra _⟩
  · exact ⟨shadow, if_neg h, fun _ => rfl⟩

/-- A packet that is no write to the PLC. -/
theorem observe_of_not_write
    (h : p.dst = cfg.plcIp → p.functionCode? ≠ some 6 ∧ p.functionCode? ≠ some 16) :
    (observe cfg shadow p).2 = [] ∧
      (¬ (p.src = cfg.plcIp ∧ p.functionCode? = some 3) → (observe cfg shadow p).1 = shadow) := by
  unfold observe processPacket
  cases hload : p.load? with
  | none => exact ⟨rfl, fun _ => rfl⟩
  | some payload =>
    by_cases hlen : payload.length < 8
    · simp [hlen]
    have hget : payload[7]? = some payload[7] := List.getElem?_eq_getElem (by omega)
    have hcode : getByte payload 7 = .ok payload[7] := getByte_of_some hget
    have hfc : p.functionCode? = some payload[7] := by
      rw [Packet.functionCode?, hload, Option.bind_some, hget]
    have hskip : ¬ (p.dst = cfg.plcIp ∧ (payload[7] = 6 ∨ payload[7] = 16)) := by
      rintro ⟨hdst, h6 | h16⟩
      · exact (h hdst).1 (h6 ▸ hfc)
      · exact (h hdst).2 (h16 ▸ hfc)
    obtain ⟨s, hs, hkeep⟩ := @learn_ok cfg shadow p.src payload[7] payload
    rw [hfc, Option.some.injEq]
    simp only [if_neg hlen, hcode, bind, Except.bind, hs, if_neg hskip, pure, Except.pure]
    exact ⟨trivial, hkeep⟩

end Packet

/-! ## Runs -/

/-- A packet of the network the monitor watches. -/
inductive Traffic where
  | response (r : ReadResponse)
  | write (w : WriteRequest)
  | other (p : Packet)

namespace Traffic

def packet (cfg : Config) : Traffic → Packet
  | response r => r.packet cfg
  | write w => w.packet
  | other p => p

/-- Responses are complete and answer a read from register 0; other packets are neither learned
from nor checked. -/
def Covered (cfg : Config) : Traffic → Prop
  | response r => r.start = 0 ∧ r.payload.length ≤ r.captured
  | write _ => True
  | other p => ¬ (p.src = cfg.plcIp ∧ p.functionCode? = some 3) ∧
      (p.dst = cfg.plcIp → p.functionCode? ≠ some 6 ∧ p.functionCode? ≠ some 16)

/-- The packet is a request that makes the PLC open the inlet valve. -/
def OpensValve (cfg : Config) : Traffic → Prop
  | write w => w.dst = cfg.plcIp ∧ (cfg.inletValveReg, 1) ∈ w.body.writes
  | _ => False

instance (cfg : Config) : DecidablePred (OpensValve cfg)
  | response _ => inferInstanceAs (Decidable False)
  | write w => inferInstanceAs (Decidable (w.dst = cfg.plcIp ∧ _))
  | other _ => inferInstanceAs (Decidable False)

/-- The level a response shows, when it includes the register of the level. -/
def level? (cfg : Config) : Traffic → Option UInt16
  | response r =>
    if 0 ≤ cfg.tankLevelReg ∧ cfg.tankLevelReg < r.count then
      some (r.file cfg.tankLevelReg.toNat)
    else none
  | _ => none

end Traffic

/-- The level in the last response that included its register. -/
def lastLevel (cfg : Config) (ts : List Traffic) : Option UInt16 :=
  ts.reverse.findSome? (Traffic.level? cfg)

/-- The shadow after some packets. -/
def shadowAfter (cfg : Config) (ts : List Traffic) : Shadow :=
  run (fun shadow t => (observe cfg shadow (t.packet cfg)).1) resetState ts

/-- The alerts `process_packet` raises for the `k`-th packet. -/
def alertsAt (cfg : Config) (ts : List Traffic) (k : Nat) : List Dict :=
  match ts[k]? with
  | some t => alertsOf (observe cfg (shadowAfter cfg (ts.take k)) (t.packet cfg)).2
  | none => []

/-- The alert for a source at a level. -/
def violation (cfg : Config) (srcIp : IPv4) (level : Nat) : Dict :=
  [ ("alert_type", .str "PROCESS_SAFETY_VIOLATION"),
    ("source_ip", .str srcIp.str),
    ("details", .str ("Current Tank Level: " ++ toString level ++ "%, Command: OPEN Inlet Valve")),
    ("mitre_id", .str "T0836"),
    ("description", .str ("Safety Interlock Violation: Attempted to open inlet valve while "
      ++ "container is at overflow capacity.")),
    ("event_type", .str "process_safety_violation"),
    ("asset", .str cfg.plcAsset),
    ("actor", .str srcIp.str),
    ("register", .str ("HR" ++ toString cfg.inletValveReg)),
    ("value", .int 1),
    ("tank_level_pct", .int level),
    ("response", .str "none") ]

theorem alertsOf_logAlert (cfg : Config) (srcIp : IPv4) (level : Nat) :
    alertsOf (logAlert cfg srcIp level) = [violation cfg srcIp level] := rfl

variable {cfg : Config} {ts : List Traffic} {t : Traffic} {shadow : Shadow}

theorem functionCode?_response (r : ReadResponse) (h : 9 ≤ r.captured) :
    (r.packet cfg).functionCode? = some 3 := by
  unfold Packet.functionCode?
  rw [ReadResponse.packet, Packet.segment_load?, Option.bind_some,
    List.getElem?_take_of_lt (by omega), getElem_payload_seven]

theorem shadowStep_eq (r : ReadResponse) :
    shadowStep cfg shadow r = (observe cfg shadow (r.packet cfg)).1 := by
  unfold shadowStep observe
  cases processPacket cfg (r.packet cfg) shadow <;> rfl

/-- A complete response to a read from register 0 is faithful. -/
theorem faithful_of_covered (hreg : 0 ≤ cfg.tankLevelReg) {r : ReadResponse} (hstart : r.start = 0)
    (hcap : 9 + 2 * r.count ≤ r.captured) : Faithful cfg r := by
  right
  split
  · exact ⟨hreg, hstart, by omega⟩
  · rintro ⟨-, hlt, -⟩
    omega

/-- A complete response shows the level if it covers its register, and raises nothing. -/
theorem observe_response (hreg : 0 ≤ cfg.tankLevelReg) {r : ReadResponse} (hstart : r.start = 0)
    (hcap : 9 + 2 * r.count ≤ r.captured) :
    (observe cfg shadow (r.packet cfg)).1 cfg.tankLevelReg
        = ((Traffic.response r).level? cfg).elim (shadow cfg.tankLevelReg) UInt16.toNat ∧
      (observe cfg shadow (r.packet cfg)).2 = [] := by
  have hcode := @functionCode?_response cfg r (by omega)
  refine ⟨?_, (observe_of_not_write fun _ => by rw [hcode]; decide).1⟩
  rw [← shadowStep_eq, level_of_faithful shadow (faithful_of_covered hreg hstart hcap),
    Traffic.level?]
  have hiff : r.Contains cfg.tankLevelReg ↔
      0 ≤ cfg.tankLevelReg ∧ cfg.tankLevelReg < r.count :=
    ⟨fun h => ⟨hreg, by have := h.2.1; omega⟩, fun h => ⟨by omega, by omega, by omega⟩⟩
  by_cases hc : 0 ≤ cfg.tankLevelReg ∧ cfg.tankLevelReg < r.count
  · rw [if_pos (hiff.mpr hc), if_pos hc, Option.elim_some]
  · rw [if_neg (mt hiff.mp hc), if_neg hc, Option.elim_none]

/-- What a covered packet does to the shadowed level, and which alerts it raises. -/
theorem observe_covered (hne : cfg.inletValveReg ≠ cfg.tankLevelReg)
    (hreg : 0 ≤ cfg.tankLevelReg) (ht : t.Covered cfg) :
    (observe cfg shadow (t.packet cfg)).1 cfg.tankLevelReg
        = (t.level? cfg).elim (shadow cfg.tankLevelReg) UInt16.toNat ∧
      alertsOf (observe cfg shadow (t.packet cfg)).2 =
        if t.OpensValve cfg ∧ cfg.levelThreshold < shadow cfg.tankLevelReg then
          [violation cfg (t.packet cfg).src (shadow cfg.tankLevelReg)] else [] := by
  cases t with
  | response r =>
    obtain ⟨hstart, hcap⟩ := ht
    rw [length_payload] at hcap
    obtain ⟨hlevel, hcalls⟩ := @observe_response cfg shadow hreg r hstart hcap
    refine ⟨hlevel, ?_⟩
    simp [Traffic.packet, hcalls, Traffic.OpensValve]
  | write w =>
    obtain ⟨hlevel, hcalls⟩ := @observe_write cfg shadow hne w
    refine ⟨hlevel, ?_⟩
    show alertsOf (observe cfg shadow w.packet).2 = _
    have hiff : (Traffic.write w).OpensValve cfg ∧ cfg.levelThreshold < shadow cfg.tankLevelReg ↔
        w.dst = cfg.plcIp ∧ (cfg.inletValveReg, 1) ∈ w.body.writes ∧
          cfg.levelThreshold < shadow cfg.tankLevelReg := and_assoc
    rw [hcalls]
    by_cases h : (Traffic.write w).OpensValve cfg ∧ cfg.levelThreshold < shadow cfg.tankLevelReg
    · rw [if_pos (hiff.mp h), if_pos h, alertsOf_logAlert]
      rfl
    · rw [if_neg (mt hiff.mpr h), if_neg h, alertsOf_nil]
  | other p =>
    obtain ⟨hcalls, hshadow⟩ := @observe_of_not_write cfg shadow p ht.2
    refine ⟨congrFun (hshadow ht.1) _, ?_⟩
    show alertsOf (observe cfg shadow p).2 = _
    rw [hcalls]
    rfl

theorem lastLevel_append (ts : List Traffic) (t : Traffic) :
    lastLevel cfg (ts ++ [t]) = (t.level? cfg).or (lastLevel cfg ts) := by
  unfold lastLevel
  rw [List.reverse_append, List.reverse_singleton, List.singleton_append, List.findSome?_cons]
  cases t.level? cfg <;> rfl

/-- Along covered packets the shadow is the last level, or the initial 0. -/
theorem shadowAfter_level (hne : cfg.inletValveReg ≠ cfg.tankLevelReg)
    (hreg : 0 ≤ cfg.tankLevelReg) (hts : ∀ t ∈ ts, t.Covered cfg) :
    shadowAfter cfg ts cfg.tankLevelReg = (lastLevel cfg ts).elim 0 UInt16.toNat := by
  induction ts using List.reverseRecOn with
  | nil => rfl
  | append_singleton ts t ih =>
    have hprev := ih fun x hx => hts x (by simp [hx])
    have hstep := (@observe_covered cfg t (shadowAfter cfg ts) hne hreg (hts t (by simp))).1
    have hrun : shadowAfter cfg (ts ++ [t])
        = (observe cfg (shadowAfter cfg ts) (t.packet cfg)).1 := by
      unfold shadowAfter
      rw [run_append, run_cons, run_nil]
    rw [hrun, hstep, hprev, lastLevel_append]
    cases t.level? cfg <;> rfl

/--
**The physics-aware alert is exact over runs.**

In a run of covered packets `process_packet` raises one alert, with the packet's source, for every
write that opens the inlet valve of the PLC while the last level seen exceeds the threshold, and
none for any other packet. Before a level was seen it counts as 0. The setting of the level's
register is no negative number.
-/
theorem violation_exact (cfg : Config) (hne : cfg.inletValveReg ≠ cfg.tankLevelReg)
    (hreg : 0 ≤ cfg.tankLevelReg) (ts : List Traffic) (hts : ∀ t ∈ ts, t.Covered cfg) (k : Nat)
    (t : Traffic) (hk : ts[k]? = some t) :
    alertsAt cfg ts k =
      let level := (lastLevel cfg (ts.take k)).elim 0 UInt16.toNat
      if t.OpensValve cfg ∧ cfg.levelThreshold < level then
        [violation cfg (t.packet cfg).src level] else [] := by
  have hbefore := @shadowAfter_level cfg (ts.take k) hne hreg
    fun x hx => hts x (List.mem_of_mem_take hx)
  unfold alertsAt
  rw [hk, ← hbefore]
  exact (observe_covered hne hreg (hts t (List.mem_of_getElem? hk))).2

/-- The attacker writes 1 to the inlet valve of the intake PLC. -/
def openInlet : WriteRequest :=
  { src := ⟨172, 24, 0, 10⟩, dst := ⟨172, 21, 0, 10⟩, header := ⟨45001, 502, 0x18⟩,
    transaction := 7, unit := 1, body := .multiple 0 [1, 100] (by decide) }

/-- The valve is opened after the HMI has read a level of 95. -/
theorem violation_exact_openInlet :
    alertsAt defaultConfig [.response wholeImage, .write openInlet] 1
      = [violation defaultConfig ⟨172, 24, 0, 10⟩ 95] := by
  have hcovered : ∀ t ∈ [.response wholeImage, .write openInlet],
      Traffic.Covered defaultConfig t := by
    intro t ht
    rcases List.mem_pair.mp ht with rfl | rfl
    · exact ⟨rfl, by decide⟩
    · trivial
  rw [violation_exact defaultConfig (by decide) (by decide) _ hcovered 1 (.write openInlet) rfl]
  exact if_pos (by decide)

/-- With a negative threshold the valve is reported although no level was ever seen. With a negative
register the level is taken from the header: from 3 and the byte count with -1. -/
theorem violation_without_level :
    (let cfg := { defaultConfig with levelThreshold := -1 }
     ¬ (alertsAt cfg [.write openInlet] 0 ≠ [] ↔
       (Traffic.write openInlet).OpensValve cfg ∧
         ∃ level, lastLevel cfg [] = some level ∧ cfg.levelThreshold < level.toNat)) ∧
    (let cfg := { defaultConfig with tankLevelReg := -1 }
     ¬ (alertsAt cfg [.response wholeImage, .write openInlet] 1 ≠ [] ↔
       (Traffic.write openInlet).OpensValve cfg ∧
         ∃ level, lastLevel cfg [.response wholeImage] = some level ∧
           cfg.levelThreshold < level.toNat)) := by
  refine ⟨fun h => ?_, fun h => ?_⟩
  · obtain ⟨-, level, hlevel, -⟩ := h.mp (by decide)
    cases hlevel
  · obtain ⟨-, level, hlevel, -⟩ := h.mp (by decide)
    cases hlevel

end OtLab.ProcessSafety
