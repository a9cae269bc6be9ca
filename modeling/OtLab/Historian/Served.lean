import Mathlib.Data.Nat.ModEq
import OtLab.Historian.Points
import OtLab.Plc.StandIn

/-!
# What the stand-in serves

`updater` of `modbus-sim/server.py` steps the process model and copies its registers into the
datastore one by one, while clients read the datastore and may write to it. What a collector reads
can be torn: some fields are those of the last step, the others those of the step before.

The datastore is the register table of `plc/register-map.md`: an address holds what was last written
to it, by the updater or by a client.

* `position_run` — how far the updater is, whatever the clients wrote
* `fresh_run` — which step a field was copied from
* `served_registers` — what the historian decodes, and that the database reads the same back
-/

namespace OtLab.Served

open Lib StandIn Poller

/-! ## The server -/

/-- `REGISTER_COUNT` -/
def registerCount : Nat := 16

/-- `int(value) & 0xFFFF` -/
def masked (value : ℤ) : Nat := (value % 65536).toNat

/-- The process model, how many fields were copied since its last step, and the datastore. -/
structure Server where
  registers : Registers
  copied : Nat
  block : List Nat

/-- The updater does the next thing, or a client writes registers (FC6, FC16). -/
inductive Event where
  | advance
  | write (address : Nat) (values : List UInt16)
deriving DecidableEq, Repr

/-- `setValues(3, address, values)` on the register table -/
def setValues (block : List Nat) (address : Nat) (values : List Nat) : List Nat :=
  block.take address ++ values ++ block.drop (address + values.length)

def Server.step (asset : Asset) (s : Server) : Event → Server
  | .advance =>
    match (FIELDS asset)[s.copied]? with
    | some field =>
      { s with
        block := setValues s.block field.1 [masked (s.registers field.1)]
        copied := s.copied + 1 }
    -- the loop is done, and the next round begins
    | none => { s with registers := StandIn.step asset s.registers, copied := 0 }
  | .write address values =>
    if address + values.length ≤ registerCount then
      { s with block := setValues s.block address (values.map UInt16.toNat) }
    else s

/-- Before the first step there is nothing to copy. -/
def Server.start (asset : Asset) : Server :=
  ⟨init, (FIELDS asset).length, List.replicate registerCount 0⟩

/-- `read_holding_registers(0, count=7)` of the poller -/
def Server.read (s : Server) : List Nat := s.block.take 7

/-- The name of the asset in the historian. -/
def assetName : Asset → String
  | .intake => "plc_intake"
  | .treatment => "plc_treatment"
  | .distribution => "plc_distribution"

/-! ## The process stays in range -/

/-- All fields are between 0 and 100. -/
def InRange (asset : Asset) (m : Registers) : Prop :=
  ∀ field ∈ FIELDS asset, 0 ≤ m field.1 ∧ m field.1 ≤ 100

theorem inRange_init (asset : Asset) : InRange asset init := by
  intro field _
  show (0 : ℤ) ≤ 0 ∧ (0 : ℤ) ≤ 100
  decide

theorem inRange_stepIntake {m : Registers} (h : InRange .intake m) :
    InRange .intake (stepIntake m) := by
  obtain ⟨hlevel, hvalve, halarm⟩ := stepIntake_spec m
  have hpump : stepIntake m 1 = 60 ∨ stepIntake m 1 = 0 := by
    unfold stepIntake
    rw [Function.update_self]
    exact ite_eq_or_eq _ _ _
  have hm0 := h (0, "valve") (by decide)
  dsimp only at hm0
  simp only [InRange, FIELDS, List.forall_mem_cons, List.not_mem_nil, false_implies, implies_true,
    and_true]
  refine ⟨?_, ?_, ?_, ?_⟩
  · rw [hvalve]
    split_ifs <;> omega
  · omega
  · rw [hlevel]
    unfold levelAfter
    omega
  · rw [halarm]
    split_ifs <;> omega

theorem inRange_stepTreatment {m : Registers} (h : InRange .treatment m) :
    InRange .treatment (stepTreatment m) := by
  simp only [InRange, FIELDS, List.forall_mem_cons, List.not_mem_nil, false_implies, implies_true,
    and_true] at h ⊢
  obtain ⟨-, h1, h2, h5, -⟩ := h
  unfold stepTreatment
  split_ifs <;> simp at * <;> omega

theorem inRange_stepDistribution {m : Registers} (h : InRange .distribution m) :
    InRange .distribution (stepDistribution m) := by
  simp only [InRange, FIELDS, List.forall_mem_cons, List.not_mem_nil, false_implies, implies_true,
    and_true] at h ⊢
  obtain ⟨-, h1, h2, h5, -⟩ := h
  unfold stepDistribution
  split_ifs <;> simp at * <;> omega

theorem inRange_iterate (asset : Asset) (n : ℕ) :
    InRange asset ((StandIn.step asset)^[n] init) := by
  induction n with
  | zero => exact inRange_init asset
  | succ n ih =>
    rw [Function.iterate_succ_apply']
    cases asset with
    | intake => exact inRange_stepIntake ih
    | treatment => exact inRange_stepTreatment ih
    | distribution => exact inRange_stepDistribution ih

/-- Masking changes nothing that the process can hold. -/
theorem masked_of_inRange {v : ℤ} (h : 0 ≤ v ∧ v ≤ 100) : (masked v : ℤ) = v := by
  unfold masked
  omega

/-! ## The datastore -/

theorem setValues_singleton {block : List Nat} {address v : Nat} (h : address < block.length) :
    setValues block address [v] = block.set address v := by
  rw [List.set_eq_take_append_cons_drop, if_pos h, setValues, List.append_assoc]
  rfl

theorem length_setValues {block values : List Nat} {address : Nat}
    (h : address + values.length ≤ block.length) :
    (setValues block address values).length = block.length := by
  simp only [setValues, List.length_append, List.length_take, List.length_drop]
  omega

/-- The fields are in the range that is read, each at an offset of its own. -/
theorem offset_lt (asset : Asset) : ∀ field ∈ FIELDS asset, field.1 < 7 := by
  cases asset <;> decide

theorem offset_inj (asset : Asset) : ((FIELDS asset).map Prod.fst).Nodup := by
  cases asset <;> decide

/-! ## The updater -/

/-- What the updater has done so far. -/
def advances (es : List Event) : ℕ := es.count .advance

/-- Every round copies all fields, so a round takes one thing more than there are fields. -/
structure Position (asset : Asset) (c : ℕ) (s : Server) : Prop where
  registers : s.registers = (StandIn.step asset)^[(c + (FIELDS asset).length) /
    ((FIELDS asset).length + 1)] init
  copied : s.copied = (c + (FIELDS asset).length) % ((FIELDS asset).length + 1)
  length : s.block.length = registerCount

variable {asset : Asset} {c : ℕ} {s : Server}

theorem position_start (asset : Asset) : Position asset 0 (Server.start asset) where
  registers := by
    rw [Nat.zero_add, Nat.div_eq_of_lt (Nat.lt_succ_self _)]
    rfl
  copied := by
    rw [Nat.zero_add, Nat.mod_eq_of_lt (Nat.lt_succ_self _)]
    rfl
  length := List.length_replicate

/-- The next field is copied. -/
theorem Position.advance_of_lt (h : Position asset c s) (hlt : s.copied < (FIELDS asset).length) :
    s.step asset .advance =
      { s with
        block := s.block.set (FIELDS asset)[s.copied].1
          (masked (s.registers (FIELDS asset)[s.copied].1))
        copied := s.copied + 1 } := by
  have hoffset := offset_lt asset _ (List.getElem_mem hlt)
  have hlength := h.length
  unfold registerCount at hlength
  unfold Server.step
  rw [List.getElem?_eq_getElem hlt]
  dsimp only
  rw [setValues_singleton (by omega)]

/-- The process makes the next step. -/
theorem Position.advance_of_not_lt (hlt : ¬ s.copied < (FIELDS asset).length) :
    s.step asset .advance
      = { s with registers := StandIn.step asset s.registers, copied := 0 } := by
  unfold Server.step
  rw [List.getElem?_eq_none (Nat.le_of_not_lt hlt)]

theorem Position.advance (h : Position asset c s) :
    Position asset (c + 1) (s.step asset .advance) := by
  have hdiv := Nat.div_add_mod (c + (FIELDS asset).length) ((FIELDS asset).length + 1)
  have hmod := Nat.mod_lt (c + (FIELDS asset).length) (Nat.succ_pos (FIELDS asset).length)
  rw [← h.copied] at hdiv hmod
  by_cases hlt : s.copied < (FIELDS asset).length
  · have hnext : c + 1 + (FIELDS asset).length = s.copied + 1 + ((FIELDS asset).length + 1) *
        ((c + (FIELDS asset).length) / ((FIELDS asset).length + 1)) := by omega
    rw [h.advance_of_lt hlt]
    refine ⟨?_, ?_, ?_⟩
    · rw [hnext, Nat.add_mul_div_left _ _ (Nat.succ_pos _), Nat.div_eq_of_lt (by omega),
        Nat.zero_add]
      exact h.registers
    · rw [hnext, Nat.add_mul_mod_self_left, Nat.mod_eq_of_lt (by omega)]
    · exact List.length_set.trans h.length
  · have hnext : c + 1 + (FIELDS asset).length = 0 + ((FIELDS asset).length + 1) *
        ((c + (FIELDS asset).length) / ((FIELDS asset).length + 1) + 1) := by
      rw [Nat.mul_add]
      omega
    rw [advance_of_not_lt hlt]
    refine ⟨?_, ?_, h.length⟩
    · rw [hnext, Nat.add_mul_div_left _ _ (Nat.succ_pos _), Nat.zero_div, Nat.zero_add,
        Function.iterate_succ_apply', ← h.registers]
    · rw [hnext, Nat.add_mul_mod_self_left, Nat.zero_mod]

theorem Position.step (h : Position asset c s) (e : Event) :
    Position asset (c + advances [e]) (s.step asset e) := by
  cases e with
  | advance => exact h.advance
  | write address values =>
    show Position asset c (if _ then _ else s)
    split
    · next hle =>
      refine ⟨h.registers, h.copied, (length_setValues ?_).trans h.length⟩
      rw [List.length_map, h.length]
      exact hle
    · exact h

/-- **How far the updater is depends on nothing a client does.** -/
theorem position_run (es : List Event) : ∀ {c : ℕ} {s : Server}, Position asset c s →
    Position asset (c + advances es) (run (Server.step asset) s es) := by
  induction es with
  | nil => exact fun h => h
  | cons e es ih =>
    intro c s h
    have hcount : c + advances (e :: es) = c + advances [e] + advances es := by
      unfold advances
      rw [← List.singleton_append, List.count_append, Nat.add_assoc]
    rw [hcount, run_cons]
    exact ih (h.step e)

/-! ## The copies -/

/-- The step a field was copied from last, after `c` things the updater did. -/
def copiedFrom (asset : Asset) (c i : ℕ) : ℕ :=
  (c + ((FIELDS asset).length - 1 - i)) / ((FIELDS asset).length + 1)

/-- The value the datastore holds for a field when no client has written it since. -/
def shown (asset : Asset) (c i : ℕ) (field : Nat × String) : ℤ :=
  (StandIn.step asset)^[copiedFrom asset c i] init field.1

/-- The datastore holds the last copy of the `i`-th field. -/
def Fresh (asset : Asset) (c : ℕ) (s : Server) (i : ℕ) : Prop :=
  ∀ field, (FIELDS asset)[i]? = some field →
    s.block[field.1]? = some (masked (shown asset c i field))

variable {i : ℕ}

/-- The updater copies a field exactly when it stands at it. -/
theorem copiedFrom_succ (hi : i < (FIELDS asset).length) (h : Position asset c s)
    (hne : s.copied ≠ i) : copiedFrom asset (c + 1) i = copiedFrom asset c i := by
  unfold copiedFrom
  rw [Nat.add_right_comm, Nat.succ_div, if_neg, Nat.add_zero]
  intro hdvd
  have hsub : c + ((FIELDS asset).length - 1 - i) + 1 = c + (FIELDS asset).length - i := by omega
  rw [hsub, ← Nat.modEq_iff_dvd' (by omega)] at hdvd
  refine hne ?_
  rw [h.copied, ← hdvd]
  exact Nat.mod_eq_of_lt (by omega)

theorem copiedFrom_self (hi : i < (FIELDS asset).length) (h : Position asset c s)
    (heq : s.copied = i) : copiedFrom asset (c + 1) i =
      (c + (FIELDS asset).length) / ((FIELDS asset).length + 1) := by
  have hdiv := Nat.div_add_mod (c + (FIELDS asset).length) ((FIELDS asset).length + 1)
  rw [← h.copied, heq] at hdiv
  have hsub : c + 1 + ((FIELDS asset).length - 1 - i) = ((FIELDS asset).length + 1) *
      ((c + (FIELDS asset).length) / ((FIELDS asset).length + 1)) := by omega
  unfold copiedFrom
  rw [hsub, Nat.mul_div_cancel_left _ (Nat.succ_pos _)]

/-- The updater at a field makes its copy fresh. -/
theorem fresh_self (hi : i < (FIELDS asset).length) (h : Position asset c s) (heq : s.copied = i) :
    Fresh asset (c + 1) (s.step asset .advance) i := by
  intro field hfield
  subst heq
  have hlt := offset_lt asset _ (List.getElem_mem hi)
  have hlength := h.length
  unfold registerCount at hlength
  obtain rfl : (FIELDS asset)[s.copied] = field :=
    Option.some.inj ((List.getElem?_eq_getElem hi).symm.trans hfield)
  rw [h.advance_of_lt hi, shown, copiedFrom_self hi h rfl, ← h.registers]
  exact List.getElem?_set_self (by omega)

/-- A fresh copy stays fresh, whether the updater comes to the field or not. -/
theorem fresh_advance (hi : i < (FIELDS asset).length) (h : Position asset c s)
    (hf : Fresh asset c s i) : Fresh asset (c + 1) (s.step asset .advance) i := by
  by_cases heq : s.copied = i
  · exact fresh_self hi h heq
  intro field hfield
  rw [shown, copiedFrom_succ hi h heq, ← shown, ← hf field hfield]
  by_cases hlt : s.copied < (FIELDS asset).length
  · rw [h.advance_of_lt hlt]
    refine List.getElem?_set_ne fun hoffset => heq ?_
    have hmap : ((FIELDS asset).map Prod.fst)[s.copied]? = ((FIELDS asset).map Prod.fst)[i]? := by
      rw [List.getElem?_map, List.getElem?_map, hfield, List.getElem?_eq_getElem hlt,
        Option.map_some, Option.map_some, hoffset]
    exact (List.getElem?_inj (by rwa [List.length_map]) (offset_inj asset)).mp hmap
  · rw [Position.advance_of_not_lt hlt]

/-- While no client writes, a field is fresh from the time the updater comes to it. -/
theorem fresh_run (hi : i < (FIELDS asset).length) (m : ℕ) : ∀ {c : ℕ} {s : Server},
    Position asset c s →
    (Fresh asset c s i ∨ ∃ j < m, (c + j + (FIELDS asset).length) %
      ((FIELDS asset).length + 1) = i) →
    Fresh asset (c + m) (run (Server.step asset) s (List.replicate m .advance)) i := by
  induction m with
  | zero =>
    rintro c s - (hf | ⟨j, hj, -⟩)
    · exact hf
    · exact absurd hj (Nat.not_lt_zero j)
  | succ m ih =>
    intro c s h hcome
    rw [List.replicate_succ, run_cons, ← Nat.add_assoc, Nat.add_right_comm]
    refine ih h.advance ?_
    rcases hcome with hf | ⟨j, hj, hmod⟩
    · exact Or.inl (fresh_advance hi h hf)
    · cases j with
      | zero => exact Or.inl (fresh_self hi h (h.copied.trans hmod))
      | succ j => exact Or.inr ⟨j, by omega, by rw [← hmod]; congr 1; omega⟩

/-- In a whole round the updater comes to every field. -/
theorem exists_turn (hi : i < (FIELDS asset).length) (c : ℕ) :
    ∃ j < (FIELDS asset).length + 1,
      (c + j + (FIELDS asset).length) % ((FIELDS asset).length + 1) = i := by
  have hdiv := Nat.div_add_mod (c + (FIELDS asset).length) ((FIELDS asset).length + 1)
  have hmod := Nat.mod_lt (c + (FIELDS asset).length) (Nat.succ_pos (FIELDS asset).length)
  generalize (c + (FIELDS asset).length) / ((FIELDS asset).length + 1) = q at hdiv
  generalize (c + (FIELDS asset).length) % ((FIELDS asset).length + 1) = k at hdiv hmod
  by_cases hk : k ≤ i
  · refine ⟨i - k, by omega, ?_⟩
    have hsum : c + (i - k) + (FIELDS asset).length = i + ((FIELDS asset).length + 1) * q := by
      omega
    rw [hsum, Nat.add_mul_mod_self_left, Nat.mod_eq_of_lt (by omega)]
  · refine ⟨i + ((FIELDS asset).length + 1) - k, by omega, ?_⟩
    have hsum : c + (i + ((FIELDS asset).length + 1) - k) + (FIELDS asset).length
        = i + ((FIELDS asset).length + 1) * (q + 1) := by
      rw [Nat.mul_add]
      omega
    rw [hsum, Nat.add_mul_mod_self_left, Nat.mod_eq_of_lt (by omega)]

theorem fresh_start (hi : i < (FIELDS asset).length) :
    Fresh asset 0 (Server.start asset) i := by
  intro field hfield
  have hlt := offset_lt asset field (List.mem_of_getElem? hfield)
  have hzero : copiedFrom asset 0 i = 0 := Nat.div_eq_of_lt (by omega)
  rw [shown, hzero]
  exact List.getElem?_replicate_of_lt (by unfold registerCount; omega)

/-! ## What the historian gets -/

/-- A field of the last step, or of the step before when the updater has not come to it yet. -/
def served (asset : Asset) (c : ℕ) : List (String × Nat) :=
  (FIELDS asset).mapIdx fun i field => (field.2, (shown asset c i field).toNat)

theorem shown_inRange (hi : i < (FIELDS asset).length) :
    0 ≤ shown asset c i (FIELDS asset)[i] ∧ shown asset c i (FIELDS asset)[i] ≤ 100 :=
  inRange_iterate asset _ _ (List.getElem_mem hi)

/-- The server and the historian have the same table. -/
theorem fields_assetName (asset : Asset) : fields (assetName asset) = FIELDS asset := by
  cases asset <;> rfl

theorem filterMap_eq_mapIdx {α β : Type*} {f : α → Option β} {l : List α} : ∀ {g : ℕ → α → β},
    (∀ i, (hi : i < l.length) → f l[i] = some (g i l[i])) → l.filterMap f = l.mapIdx g := by
  induction l with
  | nil =>
    intro g _
    rfl
  | cons a l ih =>
    intro g h
    have hhead : f a = some (g 0 a) := h 0 (Nat.succ_pos _)
    rw [List.filterMap_cons_some hhead, List.mapIdx_cons]
    refine congrArg _ (ih fun i hi => ?_)
    exact h (i + 1) (Nat.succ_lt_succ hi)

/-- From a datastore of fresh copies the historian decodes the process. -/
theorem decodeRegisters_read (h : ∀ i < (FIELDS asset).length, Fresh asset c s i) :
    decodeRegisters (assetName asset) s.read = served asset c := by
  have hget : ∀ i, (hi : i < (FIELDS asset).length) →
      s.read[(FIELDS asset)[i].1]? = some (shown asset c i (FIELDS asset)[i]).toNat := by
    intro i hi
    have hlt := offset_lt asset _ (List.getElem_mem hi)
    have hmasked : masked (shown asset c i (FIELDS asset)[i])
        = (shown asset c i (FIELDS asset)[i]).toNat := by
      have := masked_of_inRange (shown_inRange (c := c) hi)
      omega
    rw [Server.read, List.getElem?_take_of_lt hlt, ← hmasked]
    exact h i hi _ (List.getElem?_eq_getElem hi)
  unfold decodeRegisters served
  rw [fields_assetName]
  refine filterMap_eq_mapIdx fun i hi => ?_
  dsimp only
  rw [hget i hi, Option.map_some]

/--
**What the historian records of the stand-in.**

As long as no client has written to it, and again one round of the updater after the last write: the
fields the historian decodes are those of the process, each from the step it was copied from last;
the steps two fields come from differ by one at most, and are those the updater has made whatever
was written; every value is between 0 and 100, and the database reads back what was decoded.
-/
theorem served_registers (asset : Asset) (es : List Event) (m : ℕ)
    (h : (∀ e ∈ es, e = .advance) ∨ (FIELDS asset).length + 1 ≤ m) (zone : String)
    (hzone : LineProtocol.IsName zone) (source : Endpoint) :
    let s := run (Server.step asset) (Server.start asset) (es ++ List.replicate m .advance)
    let c := advances es + m
    let p : Point := ⟨assetName asset, source, decodeRegisters (assetName asset) s.read⟩
    p.values = served asset c ∧
      (∀ i < (FIELDS asset).length, ∀ j < (FIELDS asset).length,
        copiedFrom asset c i ≤ copiedFrom asset c j + 1) ∧
      (∀ field ∈ p.values, field.2 ≤ 100) ∧
      Given.ReadBack (p.given zone).line (p.given zone) := by
  intro s c p
  have hposition : Position asset (advances es) (run (Server.step asset) (Server.start asset) es) :=
    Nat.zero_add (advances es) ▸ position_run es (position_start asset)
  have hfresh : ∀ i < (FIELDS asset).length, Fresh asset c s i := by
    intro i hi
    show Fresh asset c (run (Server.step asset) (Server.start asset)
      (es ++ List.replicate m .advance)) i
    rcases h with hnone | hround
    · have hcount : advances es = es.length :=
        List.count_eq_length.mpr fun e he => (hnone e he).symm
      have hes : es = List.replicate (advances es) .advance :=
        List.eq_replicate_iff.mpr ⟨hcount.symm, hnone⟩
      rw [hes, ← List.replicate_add]
      exact Nat.zero_add c ▸ fresh_run hi _ (position_start asset) (Or.inl (fresh_start hi))
    · obtain ⟨j, hj, hmod⟩ := exists_turn hi (advances es)
      rw [run_append]
      exact fresh_run hi m hposition (Or.inr ⟨j, by omega, hmod⟩)
  have hvalues : p.values = served asset c := decodeRegisters_read hfresh
  refine ⟨hvalues, fun i hi j hj => ?_, fun field hfield => ?_, ?_⟩
  · unfold copiedFrom
    rw [← Nat.add_div_right _ (Nat.succ_pos _)]
    exact Nat.div_le_div_right (by omega)
  · rw [hvalues] at hfield
    obtain ⟨i, hi, rfl⟩ := List.mem_mapIdx.mp hfield
    have := (shown_inRange (c := c) hi).2
    show (shown asset c i (FIELDS asset)[i]).toNat ≤ 100
    omega
  · refine (readBack_point rfl).mpr ⟨hzone, ?_, ?_⟩
    · rw [fields_assetName]
      cases asset <;> exact List.cons_ne_nil _ _
    · intro hnil
      have hlength : s.block.length = registerCount :=
        (position_run (es ++ List.replicate m .advance) (position_start asset)).length
      have hread : s.read.length = 7 := by
        unfold registerCount at hlength
        rw [Server.read, List.length_take]
        omega
      rw [hnil] at hread
      cases hread

/-- After a client opened the valve, a round of the updater shows the process again. -/
theorem served_registers_overwritten :
    decodeRegisters "plc_intake" (run (Server.step .intake) (Server.start .intake)
        ([.advance, .advance, .write 0 [0, 100]] ++ List.replicate 5 .advance)).read
      = [("valve", 1), ("pump", 60), ("level", 1), ("alarm", 0)] :=
  (served_registers .intake [.advance, .advance, .write 0 [0, 100]] 5 (Or.inr (by decide)) "control"
    (by decide) ("172.21.0.60", 502)).1.trans (by decide)

end OtLab.Served
