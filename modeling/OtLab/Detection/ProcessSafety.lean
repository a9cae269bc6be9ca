import Mathlib.Data.List.Induction
import Mathlib.Logic.Function.Basic
import OtLab.Lib.Run
import OtLab.Net.Packet

/-!
# The physics-aware monitor

`process_safety_violation.py` learns the PLC's registers from the FC3 responses it sees and
raises an alert when the inlet valve is opened while the learned tank level is too high.

A response does not carry the address it starts at, and slices never fail. The shadowed level is
therefore right exactly for the responses of `Faithful`:

* `shadow_sound` — along every run of such responses the shadow is the level last captured
* `faithful_of_always_right` — no other response leaves the shadow right whatever the registers
-/

namespace OtLab.ProcessSafety

open Lib Bytes

/-! ## The monitor -/

/-- The configuration read from `OT_*` variables. -/
structure Config where
  plcIp : IPv4
  plcAsset : String
  inletValveReg : Int
  tankLevelReg : Int
  levelThreshold : Int
deriving DecidableEq, Repr

def defaultConfig : Config :=
  { plcIp := ⟨172, 21, 0, 10⟩, plcAsset := "PLC-01", inletValveReg := 0, tankLevelReg := 5,
    levelThreshold := 90 }

/-- `shadow_registers`. -/
abbrev Shadow := Int → Nat

/-- `reset_state`. -/
def resetState : Shadow := fun _ => 0

/-- `log_alert` for a `PROCESS_SAFETY_VIOLATION` at a tank level. -/
def logAlert (cfg : Config) (srcIp : IPv4) (level : Nat) : List SinkCall :=
  [ .alert
      [ ("alert_type", .str "PROCESS_SAFETY_VIOLATION"),
        ("source_ip", .str srcIp.str),
        ("details", .str ("Current Tank Level: " ++ toString level
          ++ "%, Command: OPEN Inlet Valve")),
        ("mitre_id", .str "T0836"),
        ("description", .str ("Safety Interlock Violation: Attempted to open inlet valve while "
          ++ "container is at overflow capacity.")),
        ("event_type", .str "process_safety_violation"),
        ("asset", .str cfg.plcAsset),
        ("actor", .str srcIp.str),
        ("register", .str ("HR" ++ toString cfg.inletValveReg)),
        ("value", .int 1),
        ("tank_level_pct", .int level),
        ("response", .str "none") ],
    .loki "safety_monitor" "ot_process"
      [ ("event_type", .str "process_safety_violation"),
        ("asset", .str cfg.plcAsset),
        ("register", .int cfg.inletValveReg),
        ("value", .int 1),
        ("tank_level_pct", .int level),
        ("actor", .str srcIp.str),
        ("response", .str "none") ] ]

/-- `_iter_writes`: the register writes of an FC6 or FC16 request. -/
def iterWrites (payload : Bytes) (funcCode : UInt8) : Py (List (Int × Nat)) :=
  if funcCode = 6 ∧ 12 ≤ payload.length then
    .ok [(fromBig (slice payload 8 10), fromBig (slice payload 10 12))]
  else if funcCode = 16 ∧ 13 ≤ payload.length then do
    let start := fromBig (slice payload 8 10)
    let quantity := fromBig (slice payload 10 12)
    let byteCount ← getByte payload 12
    let indices := List.range (min quantity (byteCount.toNat / 2))
    -- the loop stops at the first value that is cut off
    let whole := indices.takeWhile fun i => 13 + i * 2 + 2 ≤ payload.length
    return whole.map fun i : Nat =>
      (↑(start + i), fromBig (slice payload (13 + i * 2) (13 + i * 2 + 2)))
  else .ok []

/-- Part 1 of `process_packet`: learning from a response of the PLC. -/
def learn (cfg : Config) (srcIp : IPv4) (funcCode : UInt8) (payload : Bytes) (shadow : Shadow) :
    Py Shadow :=
  if srcIp = cfg.plcIp ∧ funcCode = 3 ∧ 9 ≤ payload.length then do
    let byteCount ← getByte payload 8
    let registerCount := byteCount.toNat / 2
    if cfg.tankLevelReg < registerCount then
      let offset := 9 + cfg.tankLevelReg * 2
      return Function.update shadow cfg.tankLevelReg (fromBig (sliceAt payload offset (offset + 2)))
    else return shadow
  else .ok shadow

/-- The body of the loop of part 2, for one register write. -/
def enforce (cfg : Config) (srcIp : IPv4) (st : Shadow × List SinkCall) (write : Int × Nat) :
    Shadow × List SinkCall :=
  if write.1 ≠ cfg.inletValveReg then st
  else
    let level := st.1 cfg.tankLevelReg
    let calls :=
      if write.2 = 1 ∧ cfg.levelThreshold < level then st.2 ++ logAlert cfg srcIp level else st.2
    (Function.update st.1 cfg.inletValveReg write.2, calls)

/-- `process_packet`: the shadow and the sink calls. -/
def processPacket (cfg : Config) (packet : Packet) (shadow : Shadow) :
    Py (Shadow × List SinkCall) :=
  match packet.load? with
  | none => .ok (shadow, [])
  | some payload =>
    if payload.length < 8 then .ok (shadow, [])
    else do
      let funcCode ← getByte payload 7
      let shadow ← learn cfg packet.src funcCode payload shadow
      if packet.dst = cfg.plcIp ∧ (funcCode = 6 ∨ funcCode = 16) then
        let writes ← iterWrites payload funcCode
        return writes.foldl (enforce cfg packet.src) (shadow, [])
      else return (shadow, [])

/-- `_iter_writes` does not raise. -/
theorem exists_iterWrites (payload : Bytes) (funcCode : UInt8) :
    ∃ writes, iterWrites payload funcCode = .ok writes := by
  unfold iterWrites
  split_ifs with h6 h16
  · exact ⟨_, rfl⟩
  · have hcount : payload[12]? = some payload[12] := List.getElem?_eq_getElem (by omega)
    rw [getByte_of_some hcount]
    exact ⟨_, rfl⟩
  · exact ⟨_, rfl⟩

/-! ## Captured responses -/

/--
A read of `count` holding registers from `start` that the PLC answered from its register file,
and how many octets of the TCP payload were captured.
-/
structure ReadResponse where
  client : IPv4
  header : TcpHeader
  transaction : UInt16
  unit : UInt8
  start : Nat
  count : Nat
  file : Nat → UInt16
  captured : Nat
  count_le : count ≤ 125
  start_le : start + count ≤ 65536

namespace ReadResponse

/-- The registers a response carries. -/
def registers (r : ReadResponse) : List UInt16 := (List.range' r.start r.count).map r.file

/-- The whole TCP payload: MBAP header, function code, byte count and registers. -/
def payload (r : ReadResponse) : Bytes :=
  big16 r.transaction ++ [0, 0] ++ big16 (UInt16.ofNat (3 + 2 * r.count))
    ++ [r.unit, 3, UInt8.ofNat (2 * r.count)] ++ r.registers.flatMap big16

/-- The captured packet. -/
def packet (cfg : Config) (r : ReadResponse) : Packet :=
  .segment cfg.plcIp r.client r.header (r.payload.take r.captured)

/-- The captured octets contain both octets of the register. -/
def Contains (r : ReadResponse) (reg : Int) : Prop :=
  r.start ≤ reg ∧ reg < r.start + r.count ∧ 9 + 2 * (reg - r.start) + 2 ≤ r.captured

instance (r : ReadResponse) (reg : Int) : Decidable (r.Contains reg) := by
  unfold Contains
  infer_instance

end ReadResponse

/-- The shadow after a response; an exception would leave it as it is. -/
def shadowStep (cfg : Config) (shadow : Shadow) (r : ReadResponse) : Shadow :=
  match processPacket cfg (r.packet cfg) shadow with
  | .ok (shadow', _) => shadow'
  | .error _ => shadow

/-- The value a register had in the most recent response that contains it. -/
def lastCaptured (reg : Int) (l : List ReadResponse) : Option UInt16 :=
  (l.reverse.find? fun r => r.Contains reg).map fun r => r.file reg.toNat

/-- The shadowed level is the initial 0, or the level last captured when there is one. -/
def Sound (cfg : Config) (l : List ReadResponse) (shadow : Shadow) : Prop :=
  shadow cfg.tankLevelReg = (lastCaptured cfg.tankLevelReg l).elim 0 UInt16.toNat

/--
The responses the shadow is right about. The code takes a level from a response when its byte
count announces more than `tankLevelReg` registers: such a response has to start at register 0
and must not be cut before the level, and `tankLevelReg` has to be the number of a register. From
any other response it takes none: such a response must not contain the level. Captures that end
before the byte count are never looked at.
-/
def Faithful (cfg : Config) (r : ReadResponse) : Prop :=
  r.captured < 9 ∨
    if cfg.tankLevelReg < r.count then
      0 ≤ cfg.tankLevelReg ∧ r.start = 0 ∧ 11 + 2 * cfg.tankLevelReg ≤ r.captured
    else ¬ r.Contains cfg.tankLevelReg

instance (cfg : Config) (r : ReadResponse) : Decidable (Faithful cfg r) := by
  unfold Faithful
  infer_instance

/-! ## What a response does to the shadow -/

variable {cfg : Config} {r : ReadResponse}

theorem payload_eq (r : ReadResponse) : ∃ hd : Bytes, hd.length = 7 ∧
    r.payload = hd ++ (3 :: UInt8.ofNat (2 * r.count) :: r.registers.flatMap big16) := by
  refine ⟨big16 r.transaction ++ [0, 0] ++ big16 (UInt16.ofNat (3 + 2 * r.count)) ++ [r.unit],
    rfl, ?_⟩
  simp [ReadResponse.payload]

theorem length_payload (r : ReadResponse) : r.payload.length = 9 + 2 * r.count := by
  obtain ⟨hd, hlen, heq⟩ := payload_eq r
  rw [heq, List.length_append, hlen, List.length_cons, List.length_cons, length_flatMap_big16]
  simp [ReadResponse.registers]
  omega

theorem byteCount_half (r : ReadResponse) : (UInt8.ofNat (2 * r.count)).toNat / 2 = r.count := by
  have := r.count_le
  rw [UInt8.toNat_ofNat']
  omega

theorem getElem_payload_seven (r : ReadResponse) : r.payload[7]? = some 3 := by
  obtain ⟨hd, hlen, heq⟩ := payload_eq r
  rw [heq, List.getElem?_append_right (by omega), hlen]
  rfl

theorem getElem_payload_eight (r : ReadResponse) :
    r.payload[8]? = some (UInt8.ofNat (2 * r.count)) := by
  obtain ⟨hd, hlen, heq⟩ := payload_eq r
  rw [heq, List.getElem?_append_right (by omega), hlen]
  rfl

/-- The octets of the `i`-th register of a response. -/
theorem slice_payload {i : Nat} (hi : i < r.count) :
    slice r.payload (9 + i * 2) (9 + i * 2 + 2) = big16 (r.file (r.start + i)) := by
  obtain ⟨hd, hlen, heq⟩ := payload_eq r
  have hreg : i < r.registers.length := by simpa [ReadResponse.registers] using hi
  have hget : r.registers[i] = r.file (r.start + i) := by simp [ReadResponse.registers]
  rw [heq, show 9 + i * 2 = 7 + (2 * i + 2) by omega, Nat.add_assoc 7, slice_append_right hlen,
    slice_cons_succ, slice_cons_succ, slice_flatMap_big16 _ _ hreg, hget]

/-- A capture that ends before the byte count leaves the shadow as it is. -/
theorem shadowStep_of_short (shadow : Shadow) (h : r.captured < 9) :
    shadowStep cfg shadow r = shadow := by
  have hlen : (r.payload.take r.captured).length < 9 := by
    rw [List.length_take]
    omega
  unfold shadowStep processPacket
  simp only [ReadResponse.packet, Packet.segment_load?]
  by_cases h8 : (r.payload.take r.captured).length < 8
  · rw [if_pos h8]
  · have hcap : 7 < r.captured := by
      rw [List.length_take] at h8
      omega
    have hfc : getByte (r.payload.take r.captured) 7 = .ok 3 :=
      getByte_of_some (by rw [List.getElem?_take_of_lt hcap, getElem_payload_seven])
    have hlearn : learn cfg cfg.plcIp 3 (r.payload.take r.captured) shadow = .ok shadow := by
      unfold learn
      rw [if_neg (by omega)]
    simp only [if_neg h8, hfc, Packet.segment_src, bind, Except.bind, hlearn]
    simp [pure, Except.pure]

/-- Any other capture updates the level exactly when enough registers are announced. -/
theorem shadowStep_of_long (shadow : Shadow) (h : 9 ≤ r.captured) :
    shadowStep cfg shadow r =
      if cfg.tankLevelReg < r.count then
        Function.update shadow cfg.tankLevelReg
          (fromBig (sliceAt (r.payload.take r.captured) (9 + cfg.tankLevelReg * 2)
            (9 + cfg.tankLevelReg * 2 + 2)))
      else shadow := by
  have hlen : 9 ≤ (r.payload.take r.captured).length := by
    rw [List.length_take, length_payload]
    omega
  have hfc : getByte (r.payload.take r.captured) 7 = .ok 3 :=
    getByte_of_some (by rw [List.getElem?_take_of_lt (by omega), getElem_payload_seven])
  have hbc : getByte (r.payload.take r.captured) 8 = .ok (UInt8.ofNat (2 * r.count)) :=
    getByte_of_some (by rw [List.getElem?_take_of_lt (by omega), getElem_payload_eight])
  unfold shadowStep processPacket
  simp only [ReadResponse.packet, Packet.segment_load?]
  rw [if_neg (by omega)]
  simp only [hfc, Packet.segment_src, bind, Except.bind, learn, true_and, if_pos hlen, hbc,
    byteCount_half]
  by_cases ht : cfg.tankLevelReg < r.count <;> simp [ht, pure, Except.pure]

/-- The octets taken for the level, when there is a register of its number. -/
theorem sliceAt_level (p : Bytes) {t : Nat} (ht : cfg.tankLevelReg = t) :
    sliceAt p (9 + cfg.tankLevelReg * 2) (9 + cfg.tankLevelReg * 2 + 2)
      = slice p (9 + t * 2) (9 + t * 2 + 2) := by
  rw [ht]
  exact sliceAt_natCast p (9 + t * 2) (9 + t * 2 + 2)

/-- A faithful response sets the level when it contains it and leaves it alone when not. -/
theorem level_of_faithful (shadow : Shadow) (h : Faithful cfg r) :
    shadowStep cfg shadow r cfg.tankLevelReg =
      if r.Contains cfg.tankLevelReg then (r.file cfg.tankLevelReg.toNat).toNat
      else shadow cfg.tankLevelReg := by
  rcases h with hshort | h
  · rw [shadowStep_of_short shadow hshort, if_neg]
    rintro ⟨hstart, -, hcap⟩
    omega
  · by_cases hcap : r.captured < 9
    · rw [shadowStep_of_short shadow hcap, if_neg]
      rintro ⟨hstart, -, hcap'⟩
      omega
    · rw [shadowStep_of_long shadow (by omega)]
      by_cases ht : cfg.tankLevelReg < r.count
      · rw [if_pos ht] at h ⊢
        obtain ⟨hreg, hstart, hlong⟩ := h
        have hcontains : r.Contains cfg.tankLevelReg := ⟨by omega, by omega, by omega⟩
        obtain ⟨t, hcast⟩ := Int.eq_ofNat_of_zero_le hreg
        rw [if_pos hcontains, Function.update_self, sliceAt_level _ hcast, slice_take (by omega),
          slice_payload (by omega), fromBig_big16, hstart, Nat.zero_add, hcast, Int.toNat_natCast]
      · rw [if_neg ht] at h ⊢
        rw [if_neg h]

theorem lastCaptured_append (reg : Int) (l : List ReadResponse) (r : ReadResponse) :
    lastCaptured reg (l ++ [r]) =
      if r.Contains reg then some (r.file reg.toNat) else lastCaptured reg l := by
  unfold lastCaptured
  rw [List.reverse_append, List.reverse_singleton, List.singleton_append, List.find?_cons]
  by_cases h : r.Contains reg <;> simp [h]

theorem sound_of_faithful (l : List ReadResponse)
    (h : StepsMeet (shadowStep cfg) (fun _ r => Faithful cfg r) resetState l) :
    Sound cfg l (run (shadowStep cfg) resetState l) := by
  induction l using List.reverseRecOn with
  | nil => rfl
  | append_singleton l r ih =>
    obtain ⟨hl, hr⟩ := stepsMeet_append.mp h
    have hsound := ih hl
    unfold Sound at hsound ⊢
    rw [run_append, run_cons, run_nil, level_of_faithful _ hr.1, lastCaptured_append, hsound]
    by_cases hc : r.Contains cfg.tankLevelReg <;> simp [hc]

/--
**Shadow soundness.** Along every run of faithful responses, after every packet, the shadowed
level is the initial 0 or the value the register had in the most recent response whose captured
octets contain it; a response that does not contain it leaves the level unchanged.
-/
theorem shadow_sound (cfg : Config) (l : List ReadResponse)
    (h : StepsMeet (shadowStep cfg) (fun _ r => Faithful cfg r) resetState l) :
    Sound cfg l (run (shadowStep cfg) resetState l) ∧
      ∀ r, Faithful cfg r → ¬ r.Contains cfg.tankLevelReg →
        run (shadowStep cfg) resetState (l ++ [r]) cfg.tankLevelReg
          = run (shadowStep cfg) resetState l cfg.tankLevelReg := by
  refine ⟨sound_of_faithful l h, ?_⟩
  intro r hr hc
  rw [run_append, run_cons, run_nil, level_of_faithful _ hr, if_neg hc]

/-- A read of the whole process image by the HMI, at level 95. -/
def wholeImage : ReadResponse :=
  { client := ⟨172, 22, 0, 10⟩, header := ⟨502, 45000, 0x18⟩, transaction := 1, unit := 1,
    start := 0, count := 7, file := fun reg => if reg = 5 then 95 else 0, captured := 23,
    count_le := by decide, start_le := by decide }

/-- A read of registers 3 to 8, where register 8 holds 77 and the level is 95. -/
def middleBlock : ReadResponse :=
  { client := ⟨172, 22, 0, 10⟩, header := ⟨502, 45000, 0x18⟩, transaction := 2, unit := 1,
    start := 3, count := 6,
    file := fun reg => if reg = 5 then 95 else if reg = 8 then 77 else 0, captured := 21,
    count_le := by decide, start_le := by decide }

theorem shadow_sound_wholeImage :
    Sound defaultConfig [wholeImage]
        (run (shadowStep defaultConfig) resetState [wholeImage]) ∧
      ∀ r, Faithful defaultConfig r → ¬ r.Contains defaultConfig.tankLevelReg →
        run (shadowStep defaultConfig) resetState ([wholeImage] ++ [r])
            defaultConfig.tankLevelReg
          = run (shadowStep defaultConfig) resetState [wholeImage] defaultConfig.tankLevelReg :=
  shadow_sound defaultConfig [wholeImage] ⟨by decide, trivial⟩

/-- The shadow of a read that starts at register 3 is the value of register 8: neither the
initial 0 nor the level. -/
theorem shadow_unsound :
    ¬ ∀ (cfg : Config) (l : List ReadResponse),
      run (shadowStep cfg) resetState l cfg.tankLevelReg = 0 ∨
        ∃ v, lastCaptured cfg.tankLevelReg l = some v ∧
          run (shadowStep cfg) resetState l cfg.tankLevelReg = v.toNat := by
  intro h
  have hlevel : run (shadowStep defaultConfig) resetState [middleBlock]
      defaultConfig.tankLevelReg = 77 := by decide
  have hlast : lastCaptured defaultConfig.tankLevelReg [middleBlock] = some 95 := by decide
  rcases h defaultConfig [middleBlock] with h0 | ⟨v, hv, hval⟩
  · rw [hlevel] at h0
    omega
  · rw [hlast, Option.some.injEq] at hv
    subst hv
    rw [hlevel] at hval
    revert hval
    decide

/-! ## No other response is right -/

/-- The same response, answered from another register file. -/
def ReadResponse.withFile (r : ReadResponse) (file : Nat → UInt16) : ReadResponse :=
  { r with file := file }

/-- If the register at the offset the code reads is zero, the code takes zero, however much of it
was captured. -/
theorem shadowStep_zero (shadow : Shadow) (hlong : 9 ≤ r.captured) {t : Nat}
    (hcast : cfg.tankLevelReg = t) (ht : t < r.count) (hzero : r.file (r.start + t) = 0) :
    shadowStep cfg shadow r cfg.tankLevelReg = 0 := by
  have hprefixes : ∀ n, fromBig ((big16 0).take n) = 0
    | 0 | 1 => rfl
    | _ + 2 => by simp [big16, fromBig]
  rw [shadowStep_of_long shadow hlong, if_pos (by omega), Function.update_self,
    sliceAt_level _ hcast, slice_of_take, slice_payload ht, hzero]
  exact hprefixes _

/-- **No other response is right.** A response that updates the level rightly whatever the
registers and the shadow hold is faithful. -/
theorem faithful_of_always_right (cfg : Config) (r : ReadResponse)
    (h : ∀ (file : Nat → UInt16) (shadow : Shadow),
      shadowStep cfg shadow (r.withFile file) cfg.tankLevelReg =
        if r.Contains cfg.tankLevelReg then (file cfg.tankLevelReg.toNat).toNat
        else shadow cfg.tankLevelReg) : Faithful cfg r := by
  by_cases hshort : r.captured < 9
  · exact Or.inl hshort
  have hlong : 9 ≤ r.captured := Nat.le_of_not_lt hshort
  right
  by_cases ht : cfg.tankLevelReg < r.count
  · rw [if_pos ht]
    -- what is taken does not depend on the shadow, so a level that is not contained is overwritten
    have hcontains : r.Contains cfg.tankLevelReg := by
      by_contra hc
      have hkeep := fun level => h (fun _ => 0) fun _ => level
      simp only [if_neg hc, shadowStep_of_long (r := r.withFile fun _ => 0) _ hlong,
        if_pos (show cfg.tankLevelReg < (r.withFile fun _ => 0).count from ht),
        Function.update_self] at hkeep
      exact absurd ((hkeep 0).symm.trans (hkeep 1)) Nat.zero_ne_one
    have hfirst := hcontains.1
    have hcap := hcontains.2.2
    obtain ⟨t, hcast⟩ := Int.eq_ofNat_of_zero_le (show 0 ≤ cfg.tankLevelReg by omega)
    have hstart : r.start = 0 := by
      by_contra hs
      -- the level is 1 and every other register 0: the code takes one of the others
      have hone := h (fun reg => if reg = t then 1 else 0) resetState
      have hzero : shadowStep cfg resetState (r.withFile fun reg => if reg = t then 1 else 0)
          cfg.tankLevelReg = 0 :=
        shadowStep_zero resetState hlong hcast (show t < r.count by omega)
          (if_neg (show ¬ r.start + t = t by omega))
      rw [if_pos hcontains, hzero, hcast, Int.toNat_natCast, if_pos rfl] at hone
      exact absurd hone Nat.zero_ne_one
    exact ⟨by omega, hstart, by omega⟩
  · rw [if_neg ht]
    intro hc
    -- nothing is taken, though the level is 1
    have hone := h (fun _ => 1) resetState
    have hkept : shadowStep cfg resetState (r.withFile fun _ => 1) = resetState :=
      (shadowStep_of_long (r := r.withFile fun _ => 1) resetState hlong).trans (if_neg ht)
    rw [if_pos hc, hkept] at hone
    exact absurd hone Nat.zero_ne_one

end OtLab.ProcessSafety
