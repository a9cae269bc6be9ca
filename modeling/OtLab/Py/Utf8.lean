import Mathlib.Tactic.IntervalCases
import OtLab.Py.Bytes

/-!
# UTF-8

What `decode("utf-8", "replace")` makes of a text that was encoded.

* `decodeUtf8_encodeUtf8` — every text is read back
* `decodeUtf8Strict_eq_some_iff` — strict decoding is the inverse of encoding
* `mem_decodeUtf8_iff` — characters of ASCII are decoded from their own octets only
-/

namespace OtLab.Bytes

/-- `s.encode("utf-8")`. -/
def encodeUtf8 (s : String) : Bytes := s.toList.flatMap String.utf8EncodeChar

theorem uint8_toNat_ofNat {n : Nat} (h : n < 256) : (UInt8.ofNat n).toNat = n := by
  rw [UInt8.toNat_ofNat', Nat.mod_eq_of_lt h]

/-! ## One character -/

/-- The last octet of a sequence. -/
theorem decodeUtf8From_last {lower upper b : UInt8} (h : lower ≤ b ∧ b ≤ upper) (code : Nat)
    (p : Bytes) :
    decodeUtf8From (some ⟨1, lower, upper, code⟩) (b :: p)
      = Char.ofNat (code * 64 + (b.toNat - 0x80)) :: decodeUtf8From none p := by
  rw [decodeUtf8From, if_pos h]
  rfl

/-- An octet of a sequence that is not the last one. -/
theorem decodeUtf8From_next {n : Nat} {lower upper b : UInt8} (h : lower ≤ b ∧ b ≤ upper)
    (code : Nat) (p : Bytes) :
    decodeUtf8From (some ⟨n + 2, lower, upper, code⟩) (b :: p)
      = decodeUtf8From (some ⟨n + 1, 0x80, 0xBF, code * 64 + (b.toNat - 0x80)⟩) p := by
  rw [decodeUtf8From, if_pos h]
  rfl

/-- The first octet of a sequence. -/
theorem decodeUtf8From_start {b : UInt8} {q : Utf8Sequence} (h : startUtf8 b = (none, some q))
    (p : Bytes) : decodeUtf8From none (b :: p) = decodeUtf8From (some q) p := by
  rw [decodeUtf8From, h]
  rfl

/-- An octet behind the first one. -/
theorem tail_bounds {n : Nat} (h : n < 64) :
    (0x80 : UInt8) ≤ UInt8.ofNat (n + 0x80) ∧ UInt8.ofNat (n + 0x80) ≤ 0xBF := by
  have hn : (UInt8.ofNat (n + 0x80)).toNat = n + 0x80 := uint8_toNat_ofNat (by omega)
  constructor
  · rw [UInt8.le_iff_toNat_le, hn]
    exact Nat.le_add_left _ _
  · rw [UInt8.le_iff_toNat_le, hn]
    show n + 0x80 ≤ 0xBF
    omega

theorem startUtf8_two {n : Nat} (hlow : 2 ≤ n) (h : n < 32) :
    startUtf8 (UInt8.ofNat (n + 0xC0)) = (none, some ⟨1, 0x80, 0xBF, n⟩) := by
  interval_cases n <;> rfl

theorem startUtf8_three {n : Nat} (h : n < 16) :
    startUtf8 (UInt8.ofNat (n + 0xE0)) = (none, some
      ⟨2, if n = 0 then 0xA0 else 0x80, if n = 13 then 0x9F else 0xBF, n⟩) := by
  interval_cases n <;> rfl

theorem startUtf8_four {n : Nat} (h : n < 5) :
    startUtf8 (UInt8.ofNat (n + 0xF0)) = (none, some
      ⟨3, if n = 0 then 0x90 else 0x80, if n = 4 then 0x8F else 0xBF, n⟩) := by
  interval_cases n <;> rfl

/-- The octet behind the first one of three: no overlong sequence and no surrogate. -/
theorem second_bounds_three {v : Nat} (h : 0x7FF < v) (hv : v < 0xD800 ∨ 0xDFFF < v) :
    (if v / 4096 = 0 then (0xA0 : UInt8) else 0x80) ≤ UInt8.ofNat (v / 64 % 64 + 0x80) ∧
      UInt8.ofNat (v / 64 % 64 + 0x80) ≤ if v / 4096 = 13 then 0x9F else 0xBF := by
  have hn : (UInt8.ofNat (v / 64 % 64 + 0x80)).toNat = v / 64 % 64 + 0x80 :=
    uint8_toNat_ofNat (by omega)
  rw [UInt8.le_iff_toNat_le, UInt8.le_iff_toNat_le, hn]
  constructor
  · by_cases h0 : v / 4096 = 0
    · rw [if_pos h0]
      show 0xA0 ≤ _
      omega
    · rw [if_neg h0]
      exact Nat.le_add_left _ _
  · by_cases h13 : v / 4096 = 13
    · rw [if_pos h13]
      show _ ≤ 0x9F
      omega
    · rw [if_neg h13]
      show _ ≤ 0xBF
      omega

/-- The octet behind the first one of four: no overlong sequence, and nothing behind U+10FFFF. -/
theorem second_bounds_four {v : Nat} (h : 0xFFFF < v) (hv : v < 0x110000) :
    (if v / 262144 = 0 then (0x90 : UInt8) else 0x80) ≤ UInt8.ofNat (v / 4096 % 64 + 0x80) ∧
      UInt8.ofNat (v / 4096 % 64 + 0x80) ≤ if v / 262144 = 4 then 0x8F else 0xBF := by
  have hn : (UInt8.ofNat (v / 4096 % 64 + 0x80)).toNat = v / 4096 % 64 + 0x80 :=
    uint8_toNat_ofNat (by omega)
  rw [UInt8.le_iff_toNat_le, UInt8.le_iff_toNat_le, hn]
  constructor
  · by_cases h0 : v / 262144 = 0
    · rw [if_pos h0]
      show 0x90 ≤ _
      omega
    · rw [if_neg h0]
      exact Nat.le_add_left _ _
  · by_cases h4 : v / 262144 = 4
    · rw [if_pos h4]
      show _ ≤ 0x8F
      omega
    · rw [if_neg h4]
      show _ ≤ 0xBF
      omega

/-- The bits of an octet behind the first one. -/
theorem tail_bits {n : Nat} (h : n < 64) : (UInt8.ofNat (n + 0x80)).toNat - 0x80 = n := by
  rw [uint8_toNat_ofNat (by omega), Nat.add_sub_cancel]

/-- A character is read back from its octets. -/
theorem decodeUtf8From_encodeChar (c : Char) (p : Bytes) :
    decodeUtf8From none (String.utf8EncodeChar c ++ p) = c :: decodeUtf8From none p := by
  have hvalid : c.val.toNat < 0xD800 ∨ 0xDFFF < c.val.toNat ∧ c.val.toNat < 0x110000 := c.valid
  have hofNat : Char.ofNat c.val.toNat = c := Char.ofNat_toNat c
  unfold String.utf8EncodeChar
  generalize c.val.toNat = v at hvalid hofNat
  have hmod : ∀ n, n % 64 < 64 := fun n => Nat.mod_lt n (by decide)
  dsimp only
  by_cases h1 : v ≤ 0x7F
  · have hb : (UInt8.ofNat v).toNat = v := uint8_toNat_ofNat (by omega)
    have hlt : UInt8.ofNat v < 0x80 := by
      rw [UInt8.lt_iff_toNat_lt, hb]
      show v < 0x80
      omega
    rw [if_pos h1, List.singleton_append, decodeUtf8From, startUtf8, if_pos hlt, hb, hofNat]
    rfl
  rw [if_neg h1]
  by_cases h2 : v ≤ 0x7FF
  · rw [if_pos h2, Nat.mod_eq_of_lt (show v / 64 < 0x20 by omega), List.cons_append,
      decodeUtf8From_start (startUtf8_two (by omega) (by omega)), List.singleton_append,
      decodeUtf8From_last (tail_bounds (hmod v)), tail_bits (hmod v),
      Nat.div_add_mod' v 64, hofNat]
  rw [if_neg h2]
  by_cases h3 : v ≤ 0xFFFF
  · rw [if_pos h3, Nat.mod_eq_of_lt (show v / 4096 < 0x10 by omega), List.cons_append,
      decodeUtf8From_start (startUtf8_three (by omega)), List.cons_append,
      decodeUtf8From_next (second_bounds_three (by omega) (by omega)), List.singleton_append,
      decodeUtf8From_last (tail_bounds (hmod v)), tail_bits (hmod v),
      tail_bits (hmod _)]
    have hcode : (v / 4096 * 64 + v / 64 % 64) * 64 + v % 64 = v := by omega
    rw [hcode, hofNat]
  · rw [if_neg h3, Nat.mod_eq_of_lt (show v / 262144 < 0x08 by omega), List.cons_append,
      decodeUtf8From_start (startUtf8_four (by omega)), List.cons_append,
      decodeUtf8From_next (second_bounds_four (by omega) (by omega)), List.cons_append,
      decodeUtf8From_next (tail_bounds (hmod _)), List.singleton_append,
      decodeUtf8From_last (tail_bounds (hmod v)), tail_bits (hmod v),
      tail_bits (hmod _), tail_bits (hmod _)]
    have hcode : ((v / 262144 * 64 + v / 4096 % 64) * 64 + v / 64 % 64) * 64 + v % 64 = v := by
      omega
    rw [hcode, hofNat]

/-! ## Texts -/

theorem decodeUtf8From_encodeUtf8 (s : List Char) (p : Bytes) :
    decodeUtf8From none (s.flatMap String.utf8EncodeChar ++ p) = s ++ decodeUtf8From none p := by
  induction s with
  | nil => rfl
  | cons c s ih =>
    rw [List.flatMap_cons, List.append_assoc, decodeUtf8From_encodeChar, ih, List.cons_append]

/-- **Every text is read back.** -/
theorem decodeUtf8_encodeUtf8 (s : String) : decodeUtf8 (encodeUtf8 s) = s := by
  have h := decodeUtf8From_encodeUtf8 s.toList []
  rw [List.append_nil] at h
  rw [decodeUtf8, encodeUtf8, h, decodeUtf8From, List.append_nil, String.ofList_toList]

/-- `p.decode("utf-8")`; `none` is the `UnicodeDecodeError`. -/
def decodeUtf8Strict (p : Bytes) : Option String :=
  if encodeUtf8 (decodeUtf8 p) = p then some (decodeUtf8 p) else none

/-- The texts that are decoded are the ones that were encoded. -/
theorem decodeUtf8Strict_eq_some_iff {p : Bytes} {s : String} :
    decodeUtf8Strict p = some s ↔ encodeUtf8 s = p := by
  unfold decodeUtf8Strict
  constructor
  · intro h
    split at h
    · next henc =>
      obtain rfl := Option.some.inj h
      exact henc
    · cases h
  · rintro rfl
    rw [decodeUtf8_encodeUtf8, if_pos rfl]

/-! ## Characters of ASCII -/

/-- What a started sequence can stand for is no surrogate and no character of ASCII. -/
def Utf8Sequence.Good (q : Utf8Sequence) : Prop :=
  let low := (q.code * 64 + (q.lower.toNat - 0x80)) * 64 ^ (q.needed - 1)
  let high := (q.code * 64 + (q.upper.toNat - 0x80) + 1) * 64 ^ (q.needed - 1)
  1 ≤ q.needed ∧ q.needed ≤ 3 ∧ 0x80 ≤ q.lower ∧ 0x80 ≤ low ∧
    (high ≤ 0xD800 ∨ 0xE000 ≤ low ∧ high ≤ 0x110000)

instance (q : Utf8Sequence) : Decidable q.Good := by
  unfold Utf8Sequence.Good
  infer_instance

theorem good_start_fin : ∀ n : Fin 256, ∀ q ∈ (startUtf8 (UInt8.ofNat n)).2, q.Good := by
  decide +kernel

theorem good_start (b : UInt8) : ∀ q ∈ (startUtf8 b).2, q.Good := by
  have h := good_start_fin ⟨b.toNat, b.toNat_lt⟩
  rwa [UInt8.ofNat_toNat] at h

theorem good_next {n code : Nat} {lower upper b : UInt8}
    (h : Utf8Sequence.Good ⟨n + 2, lower, upper, code⟩) (hb : lower ≤ b ∧ b ≤ upper) :
    Utf8Sequence.Good ⟨n + 1, 0x80, 0xBF, code * 64 + (b.toNat - 0x80)⟩ := by
  obtain ⟨-, hn, hlower, hlow, hhigh⟩ := h
  have hb1 := UInt8.le_iff_toNat_le.mp hb.1
  have hb2 := UInt8.le_iff_toNat_le.mp hb.2
  have hfirst : UInt8.toNat 0x80 = 0x80 := rfl
  have hlast : UInt8.toNat 0xBF = 0xBF := rfl
  have hcases : n = 0 ∨ n = 1 := by
    simp only at hn
    omega
  refine ⟨by simp, by simp only; omega, by simp, ?_⟩
  rcases hcases with rfl | rfl
  · simp [hfirst, hlast] at hlow hhigh ⊢
    omega
  · simp [hfirst, hlast] at hlow hhigh ⊢
    omega

theorem toNat_ofNat_of_valid {n : Nat} (h : n.isValidChar) : (Char.ofNat n).toNat = n := by
  unfold Char.ofNat
  rw [dif_pos h]
  rfl

/-- The character of a sequence, at its last octet. -/
theorem good_last {code : Nat} {lower upper b : UInt8}
    (h : Utf8Sequence.Good ⟨1, lower, upper, code⟩) (hb : lower ≤ b ∧ b ≤ upper) :
    0x80 ≤ (Char.ofNat (code * 64 + (b.toNat - 0x80))).toNat := by
  obtain ⟨-, -, hlower, hlow, hhigh⟩ := h
  have hb1 := UInt8.le_iff_toNat_le.mp hb.1
  have hb2 := UInt8.le_iff_toNat_le.mp hb.2
  simp only [Nat.sub_self, Nat.pow_zero, Nat.mul_one] at hlow hhigh
  have hvalid : (code * 64 + (b.toNat - 0x80)).isValidChar := by
    rcases hhigh with hhigh | hhigh
    · exact Or.inl (by omega)
    · exact Or.inr (by omega)
  rw [toNat_ofNat_of_valid hvalid]
  omega

/-- The first octet of a character is in ASCII exactly when the character is. -/
theorem mem_start_iff {c : Char} (hc : c.toNat < 0x80) (b : UInt8) :
    c ∈ (startUtf8 b).1.toList ↔ UInt8.ofNat c.toNat = b := by
  have hoctet : (UInt8.ofNat c.toNat).toNat = c.toNat := uint8_toNat_ofNat (by omega)
  by_cases hb : b < 0x80
  · have hstart : (startUtf8 b).1 = some (Char.ofNat b.toNat) := by rw [startUtf8, if_pos hb]
    rw [hstart, Option.toList_some, List.mem_singleton]
    constructor
    · rintro rfl
      have hb' := UInt8.lt_iff_toNat_lt.mp hb
      rw [toNat_ofNat_of_valid (Or.inl (Nat.lt_trans hb' (by decide))), UInt8.ofNat_toNat]
    · rintro rfl
      rw [hoctet, Char.ofNat_toNat]
  · refine iff_of_false (fun h => ?_) ?_
    · have hfar : c = replacement := by
        revert h
        unfold startUtf8
        rw [if_neg hb]
        split <;> [skip; split <;> [skip; split]] <;> simp
      rw [hfar] at hc
      exact absurd hc (by decide)
    · rintro rfl
      refine hb (UInt8.lt_iff_toNat_lt.mpr ?_)
      rw [hoctet]
      exact hc

/-- A character of ASCII is decoded from its own octet and from nothing else. -/
theorem mem_decodeUtf8From_iff {c : Char} (hc : c.toNat < 0x80) (p : Bytes) :
    ∀ q : Option Utf8Sequence, (∀ s ∈ q, s.Good) →
      (c ∈ decodeUtf8From q p ↔ UInt8.ofNat c.toNat ∈ p) := by
  have hrepl : c ≠ replacement := by
    rintro rfl
    exact absurd hc (by decide)
  induction p with
  | nil =>
    intro q _
    cases q with
    | none => simp [decodeUtf8From]
    | some s => simp [decodeUtf8From, hrepl]
  | cons b p ih =>
    intro q hq
    have hfresh : c ∈ (startUtf8 b).1.toList ++ decodeUtf8From (startUtf8 b).2 p ↔
        UInt8.ofNat c.toNat ∈ b :: p := by
      rw [List.mem_append, List.mem_cons, mem_start_iff hc, ih _ (good_start b)]
    cases q with
    | none => exact hfresh
    | some s =>
      obtain ⟨needed, lower, upper, code⟩ := s
      have hgood := hq _ rfl
      by_cases hb : lower ≤ b ∧ b ≤ upper
      · -- an octet of the sequence is not in ASCII
        have hne : UInt8.ofNat c.toNat ≠ b := by
          rintro rfl
          have h80 := UInt8.le_iff_toNat_le.mp (UInt8.le_trans hgood.2.2.1 hb.1)
          rw [uint8_toNat_ofNat (by omega)] at h80
          exact absurd hc (Nat.not_lt.mpr h80)
        rw [List.mem_cons, or_iff_right hne]
        match needed, hgood with
        | 0, hgood => exact absurd hgood.1 (Nat.not_succ_le_zero 0)
        | 1, hgood =>
          have hlast := good_last hgood hb
          have hchar : c ≠ Char.ofNat (code * 64 + (b.toNat - 0x80)) := by
            intro heq
            rw [← heq] at hlast
            exact absurd hc (Nat.not_lt.mpr hlast)
          rw [decodeUtf8From_last hb, List.mem_cons, or_iff_right hchar]
          exact ih none nofun
        | n + 2, hgood =>
          rw [decodeUtf8From_next hb]
          refine ih _ fun s hs => ?_
          obtain rfl := Option.some.inj hs
          exact good_next hgood hb
      · rw [decodeUtf8From, if_neg hb, List.cons_append, List.mem_cons, or_iff_right hrepl]
        exact hfresh

theorem mem_decodeUtf8_iff {c : Char} (hc : c.toNat < 0x80) (p : Bytes) :
    c ∈ (decodeUtf8 p).toList ↔ UInt8.ofNat c.toNat ∈ p := by
  rw [decodeUtf8, String.toList_ofList]
  exact mem_decodeUtf8From_iff hc p none nofun

end OtLab.Bytes
