import OtLab.Detection.Dnp3Dpi

/-!
# DNP3 messages in several segments

An application message longer than one link frame is sent in segments, each behind a transport
octet in a frame of its own. The decoder never looks at FIR and takes the third octet of every
frame for a function code.

* `length_pushesOf_calls` — there is one event for every frame
* `oneEvent_iff` — so there is one event for a message exactly when it fits one frame
-/

namespace OtLab.Dnp3Dpi

open Bytes Common Dnp3

/-! ## Sending a message -/

/-- The transport octet: FIN, FIR and a sequence number of six bits. -/
def transportOctet (fir fin : Bool) (sequence : Nat) : UInt8 :=
  (if fin then 0x80 else 0) ||| (if fir then 0x40 else 0) ||| UInt8.ofNat (sequence % 64)

/-- What a link frame can carry behind its transport octet. -/
abbrev Segment := { s : Bytes // s.length ≤ 249 }

/-- An application message of a master, and the segments it is sent in. -/
structure Transfer where
  destination : UInt16
  source : UInt16
  applicationControl : UInt8
  functionCode : UInt8
  objects : Bytes
  segments : List Segment
  /-- the sequence number of the first segment -/
  sequence : Nat
  /-- the link control octet and the CRC fields of each frame -/
  control : Nat → UInt8
  crc : Nat → Nat → UInt16
  fromMaster : ∀ i, directionOf (control i) = .request
  flatten_segments : (segments.map Subtype.val).flatten
    = applicationControl :: functionCode :: objects

namespace Transfer

/-- The frame of the `i`-th segment. -/
def frame (t : Transfer) (i : Nat) (s : Segment) : LinkFrame where
  control := t.control i
  destination := t.destination
  source := t.source
  userData := transportOctet (i = 0) (i + 1 = t.segments.length) (t.sequence + i) :: s.val
  crc := t.crc i
  userData_le := Nat.succ_le_succ s.property

def frames (t : Transfer) : List LinkFrame := t.segments.mapIdx t.frame

end Transfer

/-- The sink calls for a frame in a payload of its own; a handler that raises makes none. -/
def callsOn (masters : List Nat) (src dst : IPv4) (h : TcpHeader) (f : LinkFrame) :
    List SinkCall :=
  match processPacket masters (.segment src dst h f.bytes) with
  | .ok calls => calls
  | .error _ => []

/-- The sink calls for a whole message. -/
def calls (masters : List Nat) (src dst : IPv4) (h : TcpHeader) (t : Transfer) : List SinkCall :=
  t.frames.flatMap (callsOn masters src dst h)

/-- There is one event for the message, and everything is about its own function code. -/
structure OneEvent (masters : List Nat) (src dst : IPv4) (h : TcpHeader) (t : Transfer) :
    Prop where
  event : ∃ fields, pushesOf (calls masters src dst h t) = [fields] ∧
    fields.lookup "function_code" = some (.int t.functionCode.toNat)
  alerts : ∀ a ∈ alertsOf (calls masters src dst h t),
    a.lookup "function_code" = some (.int t.functionCode.toNat)
  continuation : ∀ f ∈ t.frames.tail, callsOn masters src dst h f = []

/-! ## One frame -/

variable {masters : List Nat} {src dst : IPv4} {h : TcpHeader}

/-- A frame with user data gives one event, with the third octet as its function code. -/
theorem callsOn_eq (masters : List Nat) (src dst : IPv4) (hp : h.dport = port) {f : LinkFrame}
    (hf : f.userData ≠ []) :
    ∃ e, e.functionCode = f.functionOctet ∧
      callsOn masters src dst h f = pushToLoki "dnp3" e.fields (.segment src dst h f.bytes)
        :: (alerts masters e (.segment src dst h f.bytes)).map writeAlert := by
  obtain ⟨b0, b1, rest, hbytes⟩ := f.bytes_cons hf
  obtain ⟨e, hdecode, -, hcode, -⟩ := f.decode_header b0 b1 f.functionOctet rest
  refine ⟨e, hcode, ?_⟩
  unfold callsOn processPacket produce
  rw [payloadTo_segment hp]
  dsimp only
  rw [hbytes, hdecode]
  rfl

theorem pushesOf_cons (service : String) (fields : Dict) (packet : Packet) (as : List Dict) :
    pushesOf (pushToLoki service fields packet :: as.map writeAlert)
      = [fields ++ [("src_ip", .str packet.src.str), ("dst_ip", .str packet.dst.str)]] := by
  have hnone : (as.map writeAlert).filterMap SinkCall.push? = [] := by
    rw [List.filterMap_eq_nil_iff, List.forall_mem_map]
    exact fun _ _ => rfl
  exact congrArg (_ :: ·) hnone

theorem pushesOf_append (l l' : List SinkCall) :
    pushesOf (l ++ l') = pushesOf l ++ pushesOf l' := List.filterMap_append

/-- Every alert carries the function code of its event. -/
theorem lookup_alerts {e : Event} {packet : Packet} :
    ∀ a ∈ alerts masters e packet,
      a.lookup "function_code" = some (.int e.functionCode.toNat) := by
  intro a ha
  have hbase : ∀ head ∈ [unauthorizedControl, restartCommand, unsolicitedDisabled],
      (head ++ base e packet).lookup "function_code" = some (.int e.functionCode.toNat) := by
    intro head hhead
    simp only [List.mem_cons, List.not_mem_nil, or_false] at hhead
    rcases hhead with rfl | rfl | rfl <;> rfl
  unfold alerts at ha
  split at ha
  · cases ha
  simp only [List.mem_append, List.mem_ite_nil_right, List.mem_singleton] at ha
  rcases ha with (⟨-, rfl⟩ | ⟨-, rfl⟩) | ⟨-, rfl⟩
  · exact hbase _ (by simp)
  · exact hbase _ (by simp)
  · exact hbase _ (by simp)

/-! ## A whole message -/

variable {t : Transfer}

theorem frames_userData_ne (t : Transfer) : ∀ f ∈ t.frames, f.userData ≠ [] := by
  intro f hf
  obtain ⟨i, hi, rfl⟩ := List.mem_mapIdx.mp hf
  exact List.cons_ne_nil _ _

/-- There is one event for every frame. -/
theorem length_pushesOf (hp : h.dport = port) {fs : List LinkFrame}
    (hfs : ∀ f ∈ fs, f.userData ≠ []) :
    (pushesOf (fs.flatMap (callsOn masters src dst h))).length = fs.length := by
  induction fs with
  | nil => rfl
  | cons f fs ih =>
    obtain ⟨e, -, hcalls⟩ := callsOn_eq masters src dst hp (hfs f List.mem_cons_self)
    rw [List.flatMap_cons, pushesOf_append, hcalls, pushesOf_cons, List.length_append,
      ih fun f' hf' => hfs f' (List.mem_cons_of_mem _ hf'), List.length_cons]
    exact Nat.add_comm 1 _

theorem length_pushesOf_calls (masters : List Nat) (src dst : IPv4) (hp : h.dport = port)
    (t : Transfer) :
    (pushesOf (calls masters src dst h t)).length = t.segments.length := by
  rw [calls, length_pushesOf hp (frames_userData_ne t), Transfer.frames, List.length_mapIdx]

/-- In the first frame of an unsegmented message the function code is where it is looked for. -/
theorem functionOctet_of_single {s : Segment} (hs : t.segments = [s]) :
    (t.frame 0 s).functionOctet = t.functionCode := by
  have hflatten := t.flatten_segments
  rw [hs] at hflatten
  have hval : s.val = t.applicationControl :: t.functionCode :: t.objects := by
    simpa using hflatten
  have hne : (t.frame 0 s).userData ≠ [] := List.cons_ne_nil _ _
  obtain ⟨rest, hblocks⟩ := blocks_eq hne fun k => (t.frame 0 s).crc (k + 1)
  unfold LinkFrame.functionOctet LinkFrame.bytes
  rw [hblocks]
  simp only [Transfer.frame, hval]
  rfl

theorem oneEvent_of_single (hp : h.dport = port) {s : Segment} (hs : t.segments = [s]) :
    OneEvent masters src dst h t := by
  have hframes : t.frames = [t.frame 0 s] := by
    unfold Transfer.frames
    rw [hs]
    rfl
  have hne : (t.frame 0 s).userData ≠ [] := List.cons_ne_nil _ _
  obtain ⟨e, hcode, hcalls⟩ := callsOn_eq masters src dst hp hne
  rw [functionOctet_of_single hs] at hcode
  have hall : calls masters src dst h t = callsOn masters src dst h (t.frame 0 s) := by
    rw [calls, hframes, List.flatMap_singleton]
  refine ⟨?_, ?_, ?_⟩
  · rw [hall, hcalls, pushesOf_cons]
    refine ⟨_, rfl, ?_⟩
    rw [← hcode]
    rfl
  · rw [hall, hcalls, alertsOf_push, ← hcode]
    exact lookup_alerts
  · rw [hframes]
    exact nofun

/--
**There is one event for a message exactly when it is sent in one frame.**

Of a message in several frames every continuation frame gives an event of its own, whose function
code is an octet of the data.
-/
theorem oneEvent_iff (masters : List Nat) (src dst : IPv4) (sport flags : UInt16) (t : Transfer) :
    OneEvent masters src dst ⟨sport, port, flags⟩ t ↔ t.segments.length = 1 := by
  constructor
  · intro hone
    obtain ⟨fields, hpushes, -⟩ := hone.event
    have hlen := length_pushesOf_calls masters src dst (h := ⟨sport, port, flags⟩) rfl t
    rw [hpushes] at hlen
    exact hlen.symm
  · intro hlen
    obtain ⟨s, hs⟩ := List.length_eq_one_iff.mp hlen
    exact oneEvent_of_single rfl hs

/-- A file write in two segments; the data of the second looks like a Cold Restart. -/
def fileWrite : Transfer where
  destination := 10
  source := 1
  applicationControl := 0xC0
  functionCode := 2
  objects := [70, 5, 0, 13]
  segments := [⟨[0xC0, 2, 70, 5], by decide⟩, ⟨[0, 13], by decide⟩]
  sequence := 0
  control := fun _ => 0xC4
  crc := fun _ _ => 0
  fromMaster := fun _ => by decide
  flatten_segments := rfl

theorem continuation_decoded :
    ¬ ∀ (masters : List Nat) (src dst : IPv4) (sport flags : UInt16) (t : Transfer),
      OneEvent masters src dst ⟨sport, port, flags⟩ t := by
  intro hall
  have hone := hall [1, 2] ⟨172, 23, 0, 20⟩ ⟨172, 21, 0, 50⟩ 40000 24 fileWrite
  obtain ⟨fields, hpushes, -⟩ := hone.event
  have hlen := length_pushesOf_calls [1, 2] ⟨172, 23, 0, 20⟩ ⟨172, 21, 0, 50⟩
    (h := ⟨40000, port, 24⟩) rfl fileWrite
  have heq : [fields].length = 2 := hpushes ▸ hlen
  exact absurd heq (by simp)

end OtLab.Dnp3Dpi
