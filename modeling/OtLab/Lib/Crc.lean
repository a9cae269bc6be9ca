import Mathlib.Algebra.Field.ZMod
import Mathlib.Algebra.Polynomial.FieldDivision

/-!
# Cyclic redundancy checks

A reflected CRC register shifts to the right and is changed by its generator when a one falls out.
Bits are transmitted least significant first, and the first one transmitted is the highest
coefficient of the polynomial over the field of two elements that a list of bits stands for.

* `toPoly_remainder` — the register holds the remainder of the shifted message
* `remainder_ne_of_burst` — two messages that differ in a burst no longer than the register leave
  different remainders
-/

namespace OtLab.Lib.Crc

open Polynomial

/-! ## Bits as polynomials -/

/-- The polynomial of a list of bits; the first bit is the highest coefficient. -/
noncomputable def toPoly : List Bool → (ZMod 2)[X]
  | [] => 0
  | b :: l => (if b then X ^ l.length else 0) + toPoly l

@[simp] theorem toPoly_nil : toPoly [] = 0 := rfl

theorem toPoly_cons (b : Bool) (l : List Bool) :
    toPoly (b :: l) = (if b then X ^ l.length else 0) + toPoly l := rfl

@[simp] theorem toPoly_cons_false (l : List Bool) : toPoly (false :: l) = toPoly l := by
  rw [toPoly_cons, if_neg Bool.false_ne_true, zero_add]

theorem toPoly_append (l l' : List Bool) :
    toPoly (l ++ l') = toPoly l * X ^ l'.length + toPoly l' := by
  induction l with
  | nil => simp
  | cons b l ih =>
    rw [List.cons_append, toPoly_cons, toPoly_cons, ih, List.length_append, pow_add]
    cases b
    · simp
    · simp only [if_true]
      ring

theorem toPoly_replicate_false (n : ℕ) : toPoly (List.replicate n false) = 0 := by
  induction n with
  | zero => rfl
  | succ n ih => rw [List.replicate_succ, toPoly_cons_false, ih]

/-- Exclusive or of the bits is addition. -/
theorem toPoly_zipWith_xor : ∀ {l l' : List Bool}, l.length = l'.length →
    toPoly (List.zipWith xor l l') = toPoly l + toPoly l'
  | [], [], _ => by simp
  | b :: l, b' :: l', h => by
    have hlen : l.length = l'.length := Nat.succ.inj h
    have hzip : (List.zipWith xor l l').length = l'.length := by
      rw [List.length_zipWith, hlen, Nat.min_self]
    rw [List.zipWith_cons_cons, toPoly_cons, toPoly_cons, toPoly_cons, toPoly_zipWith_xor hlen,
      hzip, hlen]
    cases b <;> cases b'
    · simp
    · simp [add_left_comm]
    · simp [add_assoc]
    · simp only [bne_self_eq_false, Bool.false_eq_true, if_false, if_true]
      rw [add_add_add_comm, CharTwo.add_self_eq_zero]

/-- Lists without a difference are equal. -/
theorem eq_of_zipWith_xor : ∀ {l l' : List Bool}, l.length = l'.length →
    (∀ b ∈ List.zipWith xor l l', b = false) → l = l'
  | [], [], _, _ => rfl
  | b :: l, b' :: l', hlen, h => by
    rw [List.zipWith_cons_cons] at h
    obtain ⟨hhead, htail⟩ := List.forall_mem_cons.mp h
    rw [bne_eq_false_iff_eq.mp hhead, eq_of_zipWith_xor (Nat.succ.inj hlen) htail]

theorem degree_toPoly_lt (l : List Bool) : (toPoly l).degree < l.length := by
  induction l with
  | nil => simp
  | cons b l ih =>
    have htail : (toPoly l).degree < (b :: l).length := by
      refine ih.trans ?_
      rw [List.length_cons]
      exact_mod_cast Nat.lt_succ_self l.length
    cases b with
    | false => rwa [toPoly_cons_false]
    | true =>
      rw [toPoly_cons, if_pos rfl]
      refine (degree_add_le _ _).trans_lt (max_lt ?_ htail)
      rw [degree_X_pow, List.length_cons]
      exact_mod_cast Nat.lt_succ_self l.length

/-- Only zero bits stand for zero. -/
theorem toPoly_eq_zero_iff {l : List Bool} : toPoly l = 0 ↔ ∀ b ∈ l, b = false := by
  induction l with
  | nil => simp
  | cons b l ih =>
    cases b with
    | false => simp [ih]
    | true =>
      refine iff_of_false ?_ (by simp)
      intro h
      -- the first bit is the leading coefficient
      have hcoeff := congrArg (fun p => coeff p l.length) h
      simp only [toPoly_cons, if_true, coeff_add, coeff_X_pow, coeff_zero,
        coeff_eq_zero_of_degree_lt (degree_toPoly_lt l), add_zero] at hcoeff
      exact one_ne_zero hcoeff

/-! ## The bits of a word -/

/-- The bits of a word in the order of their transmission. -/
def bits {n : ℕ} (x : BitVec n) : List Bool := List.ofFn fun i : Fin n => x[i]

variable {n k w : ℕ}

@[simp] theorem length_bits (x : BitVec n) : (bits x).length = n := List.length_ofFn

theorem getElem?_bits (x : BitVec n) (i : ℕ) :
    (bits x)[i]? = if i < n then some (x.getLsbD i) else none := by
  unfold bits
  rw [List.getElem?_ofFn]
  by_cases h : i < n
  · rw [dif_pos h, if_pos h, BitVec.getLsbD_eq_getElem h]
    rfl
  · rw [dif_neg h, if_neg h]

theorem bits_injective : Function.Injective (bits : BitVec n → List Bool) := by
  intro x y h
  refine BitVec.eq_of_getLsbD_eq fun i hi => ?_
  have hbit := congrArg (fun l => l[i]?) h
  simp only [getElem?_bits, if_pos hi] at hbit
  exact Option.some.inj hbit

@[simp] theorem toPoly_bits_zero : toPoly (bits (0 : BitVec n)) = 0 := by
  rw [toPoly_eq_zero_iff]
  simp [bits]

theorem bits_xor (x y : BitVec n) : bits (x ^^^ y) = List.zipWith xor (bits x) (bits y) := by
  refine List.ext_getElem? fun i => ?_
  rw [List.getElem?_zipWith, getElem?_bits, getElem?_bits, getElem?_bits, BitVec.getLsbD_xor]
  by_cases h : i < n
  · simp [h]
  · simp [h]

theorem toPoly_bits_xor (x y : BitVec n) :
    toPoly (bits (x ^^^ y)) = toPoly (bits x) + toPoly (bits y) := by
  rw [bits_xor, toPoly_zipWith_xor (by simp)]

/-- A word is widened by bits that are transmitted last. -/
theorem bits_setWidth (h : k ≤ w) (x : BitVec k) :
    bits (x.setWidth w) = bits x ++ List.replicate (w - k) false := by
  refine List.ext_getElem? fun i => ?_
  rw [List.getElem?_append, length_bits, getElem?_bits, getElem?_bits, List.getElem?_replicate,
    BitVec.getLsbD_setWidth]
  by_cases hk : i < k
  · have hw : i < w := Nat.lt_of_lt_of_le hk h
    simp [hk, hw]
  · by_cases hw : i < w
    · have hrest : i - k < w - k := by omega
      simp [hk, hw, hrest, BitVec.getLsbD_of_ge x i (Nat.not_lt.mp hk)]
    · have hrest : ¬ i - k < w - k := by omega
      simp [hk, hw, hrest]

/-- Shifting drops the bit that is transmitted first. -/
theorem bits_ushiftRight (x : BitVec (n + 1)) : bits (x >>> 1) = (bits x).tail ++ [false] := by
  refine List.ext_getElem? fun i => ?_
  rw [List.getElem?_append, List.length_tail, length_bits, Nat.add_sub_cancel, getElem?_bits,
    List.getElem?_tail, getElem?_bits, BitVec.getLsbD_ushiftRight]
  by_cases h : i < n
  · simp [h, Nat.lt_succ_of_lt h, Nat.add_comm 1 i]
  · by_cases heq : i = n
    · subst heq
      simp
    · have hne : ¬ i < n + 1 := by omega
      have hsub : i - n ≠ 0 := by omega
      simp [h, hne, hsub]

/-! ## The register -/

/-- One bit: a one that falls out of the register changes it by the generator. -/
def step (g r : BitVec w) : BitVec w := if r.getLsbD 0 then (r >>> 1) ^^^ g else r >>> 1

/-- One word of a message. -/
def feed (g r : BitVec w) (x : BitVec k) : BitVec w := (step g)^[k] (r ^^^ x.setWidth w)

/-- What a message leaves in an empty register. -/
def remainder (g : BitVec w) (message : List (BitVec k)) : BitVec w := message.foldl (feed g) 0

/-- The bits of a message in the order of their transmission. -/
def messageBits (message : List (BitVec k)) : List Bool := message.flatMap bits

/-- The generator polynomial: the register holds all coefficients but the highest. -/
noncomputable def generator (g : BitVec w) : (ZMod 2)[X] := X ^ w + toPoly (bits g)

theorem messageBits_cons (x : BitVec k) (message : List (BitVec k)) :
    messageBits (x :: message) = bits x ++ messageBits message := List.flatMap_cons

variable (g r : BitVec w)

theorem degree_toPoly_bits_lt : (toPoly (bits r)).degree < w := by
  have h := degree_toPoly_lt (bits r)
  rwa [length_bits] at h

theorem monic_generator : (generator g).Monic :=
  monic_X_pow_add (degree_toPoly_bits_lt g)

theorem degree_generator : (generator g).degree = w := by
  rw [generator, degree_add_eq_left_of_degree_lt, degree_X_pow]
  rw [degree_X_pow]
  exact degree_toPoly_bits_lt g

/-- The polynomial of a register is reduced. -/
theorem toPoly_bits_modByMonic : toPoly (bits r) %ₘ generator g = toPoly (bits r) := by
  rw [modByMonic_eq_self_iff (monic_generator g), degree_generator]
  exact degree_toPoly_bits_lt r

/-- Reducing a factor first makes no difference. -/
theorem mul_modByMonic_right (p q : (ZMod 2)[X]) :
    (p * (q %ₘ generator g)) %ₘ generator g = (p * q) %ₘ generator g := by
  refine modByMonic_eq_of_dvd_sub (monic_generator g) ?_
  rw [← mul_sub]
  exact Dvd.dvd.mul_left (dvd_modByMonic_sub _ _) _

/-- What one shift does to the polynomial, before a generator is subtracted. -/
theorem X_mul_toPoly_bits (x : BitVec w) :
    X * toPoly (bits x) = (if x.getLsbD 0 then X ^ w else 0) + toPoly (bits (x >>> 1)) := by
  cases w with
  | zero => simp [bits]
  | succ n =>
    obtain ⟨b, l, hbits⟩ : ∃ b l, bits x = b :: l :=
      List.exists_cons_of_length_pos (by rw [length_bits]; exact Nat.succ_pos n)
    have hlen : l.length = n := by
      have h := length_bits x
      rw [hbits] at h
      exact Nat.succ.inj h
    have hlow : x.getLsbD 0 = b := by
      have h := getElem?_bits x 0
      rw [hbits, if_pos (Nat.succ_pos n)] at h
      exact (Option.some.inj h).symm
    rw [bits_ushiftRight, hbits, List.tail_cons, toPoly_append, toPoly_cons, hlow, hlen,
      toPoly_cons_false, List.length_singleton, pow_one, toPoly_nil, add_zero, mul_add,
      mul_comm X (toPoly l)]
    cases b
    · simp
    · simp only [if_true]
      rw [pow_succ']

theorem toPoly_step :
    toPoly (bits (step g r)) = (X * toPoly (bits r)) %ₘ generator g := by
  rw [← toPoly_bits_modByMonic g (step g r)]
  refine modByMonic_eq_of_dvd_sub (monic_generator g) ?_
  rw [X_mul_toPoly_bits, step]
  by_cases hlow : r.getLsbD 0 = true
  · rw [if_pos hlow, if_pos hlow, toPoly_bits_xor]
    refine ⟨1, ?_⟩
    rw [mul_one, generator, add_comm (toPoly (bits (r >>> 1))), add_sub_add_right_eq_sub,
      CharTwo.sub_eq_add, add_comm]
  · rw [if_neg hlow, if_neg hlow, zero_add, sub_self]
    exact dvd_zero _

theorem toPoly_iterate_step (n : ℕ) :
    toPoly (bits ((step g)^[n] r)) = (X ^ n * toPoly (bits r)) %ₘ generator g := by
  induction n with
  | zero => rw [pow_zero, one_mul, toPoly_bits_modByMonic, Function.iterate_zero_apply]
  | succ n ih =>
    rw [Function.iterate_succ_apply', toPoly_step, ih, mul_modByMonic_right, ← mul_assoc, pow_succ']

theorem toPoly_feed (hk : k ≤ w) (x : BitVec k) :
    toPoly (bits (feed g r x))
      = (X ^ k * toPoly (bits r) + X ^ w * toPoly (bits x)) %ₘ generator g := by
  have hshift : X ^ w = (X ^ k * X ^ (w - k) : (ZMod 2)[X]) := by
    rw [← pow_add, Nat.add_sub_cancel' hk]
  rw [feed, toPoly_iterate_step, toPoly_bits_xor, bits_setWidth hk, toPoly_append,
    toPoly_replicate_false, List.length_replicate, add_zero, hshift]
  ring_nf

/-- What a message leaves in a register that is not empty. -/
theorem toPoly_foldl_feed (hk : k ≤ w) (message : List (BitVec k)) :
    toPoly (bits (message.foldl (feed g) r))
      = (X ^ (messageBits message).length * toPoly (bits r)
          + X ^ w * toPoly (messageBits message)) %ₘ generator g := by
  induction message generalizing r with
  | nil => simp [messageBits, toPoly_bits_modByMonic]
  | cons x message ih =>
    rw [List.foldl_cons, ih, toPoly_feed g r hk, add_modByMonic, mul_modByMonic_right,
      ← add_modByMonic, messageBits_cons, toPoly_append, List.length_append, length_bits]
    ring_nf

/-- **The register holds the remainder of the shifted message.** -/
theorem toPoly_remainder (hk : k ≤ w) (message : List (BitVec k)) :
    toPoly (bits (remainder g message))
      = (X ^ w * toPoly (messageBits message)) %ₘ generator g := by
  rw [remainder, toPoly_foldl_feed g 0 hk, toPoly_bits_zero, mul_zero, zero_add]

/-! ## Bursts -/

/-- The lists differ only within `n` consecutive positions. -/
def DifferWithin (n : ℕ) (l l' : List Bool) : Prop :=
  ∃ s, ∀ i, l[i]? ≠ l'[i]? → s ≤ i ∧ i < s + n

/-- Lists that differ in their beginnings only. -/
theorem differWithin_append {l l' : List Bool} (hl : l.length = n) (hl' : l'.length = n)
    (m : List Bool) : DifferWithin n (l ++ m) (l' ++ m) := by
  refine ⟨0, fun i hi => ⟨Nat.zero_le i, ?_⟩⟩
  by_contra hle
  rw [Nat.zero_add, Nat.not_lt] at hle
  rw [List.getElem?_append_right (hl ▸ hle), List.getElem?_append_right (hl' ▸ hle), hl, hl'] at hi
  exact hi rfl

/-- A list of bits with its ones within `n` positions is a shifted polynomial of low degree. -/
theorem toPoly_of_burst {l : List Bool} {s n : ℕ} (h : ∀ i, l[i]? = some true → s ≤ i ∧ i < s + n) :
    toPoly l = toPoly ((l.drop s).take n) * X ^ (l.drop (s + n)).length := by
  have hbefore : toPoly (l.take s) = 0 := by
    refine toPoly_eq_zero_iff.mpr fun b hb => Bool.eq_false_iff.mpr ?_
    rintro rfl
    obtain ⟨i, hi⟩ := List.getElem?_of_mem hb
    rw [List.getElem?_take] at hi
    split at hi
    · next hlt =>
      have := (h i hi).1
      omega
    · cases hi
  have hbehind : toPoly (l.drop (s + n)) = 0 := by
    refine toPoly_eq_zero_iff.mpr fun b hb => Bool.eq_false_iff.mpr ?_
    rintro rfl
    obtain ⟨i, hi⟩ := List.getElem?_of_mem hb
    rw [List.getElem?_drop] at hi
    have := (h _ hi).2
    omega
  have hsplit : l = l.take s ++ ((l.drop s).take n ++ l.drop (s + n)) := by
    rw [← List.drop_drop, List.take_append_drop, List.take_append_drop]
  conv_lhs => rw [hsplit]
  rw [toPoly_append, toPoly_append, hbefore, hbehind, zero_mul, zero_add, add_zero]

variable {g}

/-- The lowest coefficient of the generator is the last bit of the register. -/
theorem not_X_dvd_generator (hg : g.msb = true) : ¬ X ∣ generator g := by
  cases w with
  | zero => exact absurd hg (by simp [BitVec.of_length_zero])
  | succ n =>
    have htop : g[Fin.last n] = true := hg
    have hlast : bits g = List.ofFn (fun i : Fin n => g[i.castSucc]) ++ [true] := by
      rw [bits, List.ofFn_succ_last, htop]
    rw [X_dvd_iff, generator, hlast, toPoly_append, toPoly_cons, if_pos rfl]
    simp

theorem isCoprime_generator (hg : g.msb = true) (n : ℕ) : IsCoprime (generator g) (X ^ n) := by
  refine IsCoprime.pow_right ?_
  exact ((irreducible_X (R := ZMod 2)).coprime_iff_not_dvd.mpr (not_X_dvd_generator hg)).symm

/-- A burst no longer than the register is no multiple of the generator. -/
theorem eq_zero_of_burst (hg : g.msb = true) {l : List Bool} {s m : ℕ}
    (h : ∀ i, l[i]? = some true → s ≤ i ∧ i < s + w) (hdvd : generator g ∣ X ^ m * toPoly l) :
    toPoly l = 0 := by
  have hpart : generator g ∣ toPoly l := (isCoprime_generator hg m).dvd_of_dvd_mul_left hdvd
  rw [toPoly_of_burst h] at hpart ⊢
  have hlow := (isCoprime_generator hg _).dvd_of_dvd_mul_right hpart
  have hdegree : (toPoly ((l.drop s).take w)).degree < (generator g).degree := by
    refine (degree_toPoly_lt _).trans_le ?_
    rw [degree_generator]
    exact_mod_cast List.length_take_le w _
  rw [eq_zero_of_dvd_of_degree_lt hlow hdegree, zero_mul]

theorem length_messageBits (message : List (BitVec k)) :
    (messageBits message).length = k * message.length := by
  induction message with
  | nil => rfl
  | cons x message ih =>
    rw [messageBits_cons, List.length_append, ih, length_bits, List.length_cons, Nat.mul_succ,
      Nat.add_comm]

theorem messageBits_inj : ∀ {message message' : List (BitVec k)},
    message.length = message'.length → messageBits message = messageBits message' →
    message = message'
  | [], [], _, _ => rfl
  | x :: message, x' :: message', hlen, h => by
    rw [messageBits_cons, messageBits_cons] at h
    obtain ⟨hhead, htail⟩ := List.append_inj h (by simp)
    rw [bits_injective hhead, messageBits_inj (Nat.succ.inj hlen) htail]

/-- **A burst no longer than the register changes the remainder.** -/
theorem remainder_ne_of_burst (hk : k ≤ w) (hg : g.msb = true) {message message' : List (BitVec k)}
    (hlen : message.length = message'.length) (hne : message ≠ message')
    (h : DifferWithin w (messageBits message) (messageBits message')) :
    remainder g message ≠ remainder g message' := by
  intro heq
  obtain ⟨s, hs⟩ := h
  have hbits : (messageBits message).length = (messageBits message').length := by
    rw [length_messageBits, length_messageBits, hlen]
  -- the difference of the messages is a multiple of the generator
  have hdvd : generator g ∣ X ^ w *
      toPoly (List.zipWith xor (messageBits message) (messageBits message')) := by
    have hmod : (X ^ w * toPoly (messageBits message)) %ₘ generator g
        = (X ^ w * toPoly (messageBits message')) %ₘ generator g := by
      rw [← toPoly_remainder g hk, ← toPoly_remainder g hk, heq]
    rw [← modByMonic_eq_zero_iff_dvd (monic_generator g), toPoly_zipWith_xor hbits, mul_add,
      add_modByMonic, hmod, CharTwo.add_self_eq_zero]
  have hone : ∀ i, (List.zipWith xor (messageBits message) (messageBits message'))[i]? = some true →
      s ≤ i ∧ i < s + w := by
    intro i hi
    refine hs i fun hsame => ?_
    rw [List.getElem?_zipWith, hsame] at hi
    cases hb : (messageBits message')[i]? <;> simp [hb] at hi
  have hzero := toPoly_eq_zero_iff.mp (eq_zero_of_burst hg hone hdvd)
  exact hne (messageBits_inj hlen (eq_of_zipWith_xor hbits hzero))

end OtLab.Lib.Crc
