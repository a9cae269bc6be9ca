import Mathlib.Algebra.Group.Nat.Defs
import Mathlib.Data.List.Basic
import Mathlib.Tactic.Ring

/-!
# Python bytes

Indexing is partial (`IndexError`), slicing is total and `int.from_bytes` reads whatever the
slice holds, also nothing. The decoders are written over these three operations.

* `slice_drop` / `getByte_drop` — reading behind a prefix is reading at a later index
-/

namespace OtLab

/-- The exceptions the modelled code can raise. -/
inductive PyError where
  | indexError
  | keyError
  | typeError
  | attributeError
  | valueError
  | recursionError
deriving DecidableEq, Repr

/-- A computation that may raise. -/
abbrev Py := Except PyError

/-- A byte string. -/
abbrev Bytes := List UInt8

namespace Bytes

/-- `payload[i]`. -/
def getByte (p : Bytes) (i : Nat) : Py UInt8 :=
  match p[i]? with
  | some b => .ok b
  | none => .error .indexError

/-- `payload[i:j]` with `0 ≤ i` and `0 ≤ j`. -/
def slice (p : Bytes) (i j : Nat) : Bytes := (p.drop i).take (j - i)

/-- The index a bound of a slice stands for; a negative one counts from the end. -/
def sliceBound (p : Bytes) (i : Int) : Nat := if i < 0 then (p.length + i).toNat else i.toNat

/-- `payload[i:j]`. -/
def sliceAt (p : Bytes) (i j : Int) : Bytes := slice p (sliceBound p i) (sliceBound p j)

/-- `int.from_bytes(p, byteorder="big")`. -/
def fromBig (p : Bytes) : Nat := p.foldl (fun n b => n * 256 + b.toNat) 0

/-- `int.from_bytes(p, byteorder="little")`. -/
def fromLittle (p : Bytes) : Nat := p.foldr (fun b n => b.toNat + 256 * n) 0

/-- `n.to_bytes(2, "big")`. -/
def big16 (n : UInt16) : Bytes := [UInt8.ofNat (n.toNat / 256), UInt8.ofNat n.toNat]

/-- `n.to_bytes(2, "little")`. -/
def little16 (n : UInt16) : Bytes := [UInt8.ofNat n.toNat, UInt8.ofNat (n.toNat / 256)]

/-- `n.to_bytes(4, "little")`. -/
def little32 (n : UInt32) : Bytes :=
  [UInt8.ofNat n.toNat, UInt8.ofNat (n.toNat / 2 ^ 8), UInt8.ofNat (n.toNat / 2 ^ 16),
    UInt8.ofNat (n.toNat / 2 ^ 24)]

/-! ## Text -/

/-- A started UTF-8 sequence: octets still to come, bounds of the next one, bits so far. -/
structure Utf8Sequence where
  needed : Nat
  lower : UInt8
  upper : UInt8
  code : Nat

/-- U+FFFD, which stands for what is no UTF-8. -/
def replacement : Char := Char.ofNat 0xFFFD

/-- The first octet of a character: the character, a started sequence, or none of both. -/
def startUtf8 (b : UInt8) : Option Char × Option Utf8Sequence :=
  if b < 0x80 then (some (Char.ofNat b.toNat), none)
  else if 0xC2 ≤ b ∧ b ≤ 0xDF then (none, some ⟨1, 0x80, 0xBF, b.toNat - 0xC0⟩)
  else if 0xE0 ≤ b ∧ b ≤ 0xEF then
    (none, some ⟨2, if b = 0xE0 then 0xA0 else 0x80, if b = 0xED then 0x9F else 0xBF,
      b.toNat - 0xE0⟩)
  else if 0xF0 ≤ b ∧ b ≤ 0xF4 then
    (none, some ⟨3, if b = 0xF0 then 0x90 else 0x80, if b = 0xF4 then 0x8F else 0xBF,
      b.toNat - 0xF0⟩)
  else (some replacement, none)

/-- Decodes behind a started sequence. A broken sequence gives one replacement character. -/
def decodeUtf8From : Option Utf8Sequence → Bytes → List Char
  | none, [] => []
  | some _, [] => [replacement]
  | none, b :: p =>
    let s := startUtf8 b
    s.1.toList ++ decodeUtf8From s.2 p
  | some q, b :: p =>
    if q.lower ≤ b ∧ b ≤ q.upper then
      let code := q.code * 64 + (b.toNat - 0x80)
      if q.needed = 1 then Char.ofNat code :: decodeUtf8From none p
      else decodeUtf8From (some ⟨q.needed - 1, 0x80, 0xBF, code⟩) p
    else
      let s := startUtf8 b
      replacement :: s.1.toList ++ decodeUtf8From s.2 p

/-- `p.decode("utf-8", "replace")`. -/
def decodeUtf8 (p : Bytes) : String := String.ofList (decodeUtf8From none p)

/-! ## Indexing -/

theorem getByte_of_some {p : Bytes} {i : Nat} {b : UInt8} (h : p[i]? = some b) :
    getByte p i = .ok b := by
  unfold getByte
  rw [h]

theorem getElem?_eq_getD {p : Bytes} {i : Nat} (h : i < p.length) :
    p[i]? = some (p.getD i 0) := by
  simp [h]

@[simp] theorem getByte_cons_zero (b : UInt8) (p : Bytes) : getByte (b :: p) 0 = .ok b := rfl

@[simp] theorem getByte_cons_succ (b : UInt8) (p : Bytes) (i : Nat) :
    getByte (b :: p) (i + 1) = getByte p i := by
  simp [getByte]

theorem getByte_drop (p : Bytes) (n i : Nat) : getByte (p.drop n) i = getByte p (n + i) := by
  unfold getByte
  rw [List.getElem?_drop]

theorem getByte_append_right {p : Bytes} {n : Nat} (h : p.length = n) (q : Bytes) (i : Nat) :
    getByte (p ++ q) (n + i) = getByte q i := by
  rw [← getByte_drop, List.drop_left' h]

/-! ## Slices -/

@[simp] theorem slice_cons_zero (b : UInt8) (p : Bytes) (j : Nat) :
    slice (b :: p) 0 (j + 1) = b :: slice p 0 j := by
  simp [slice]

@[simp] theorem slice_cons_succ (b : UInt8) (p : Bytes) (i j : Nat) :
    slice (b :: p) (i + 1) (j + 1) = slice p i j := by
  simp [slice]

theorem sliceAt_natCast (p : Bytes) (i j : Nat) : sliceAt p i j = slice p i j := rfl

@[simp] theorem slice_self (p : Bytes) (i : Nat) : slice p i i = [] := by
  simp [slice]

theorem slice_drop (p : Bytes) (n i j : Nat) : slice (p.drop n) i j = slice p (n + i) (n + j) := by
  unfold slice
  rw [List.drop_drop, Nat.add_sub_add_left]

theorem slice_append_left {p : Bytes} {i j : Nat} (h : j ≤ p.length) (q : Bytes) :
    slice (p ++ q) i j = slice p i j := by
  unfold slice
  by_cases hi : i ≤ j
  · rw [List.drop_append_of_le_length (by omega), List.take_append_of_le_length]
    rw [List.length_drop]
    omega
  · simp [show j - i = 0 by omega]

theorem slice_append (p q : Bytes) (i j : Nat) :
    slice (p ++ q) i j = slice p i j ++ slice q (i - p.length) (j - p.length) := by
  unfold slice
  rw [List.drop_append, List.take_append, List.length_drop]
  congr 2
  omega

/-- A slice inside the first `k` octets does not notice that the rest is cut off. -/
theorem slice_take {p : Bytes} {i j k : Nat} (h : j ≤ k) : slice (p.take k) i j = slice p i j := by
  unfold slice
  rw [List.drop_take, List.take_take]
  congr 1
  omega

/-- A slice of a truncated text is the truncated slice. -/
theorem slice_of_take (p : Bytes) (i j k : Nat) :
    slice (p.take k) i j = (slice p i j).take (k - i) := by
  unfold slice
  rw [List.drop_take, List.take_take, List.take_take, Nat.min_comm]

/-- A slice of a concatenation that starts behind the first part. -/
theorem slice_append_right {p q : Bytes} {n i j : Nat} (h : p.length = n) :
    slice (p ++ q) (n + i) (n + j) = slice q i j := by
  rw [← slice_drop, List.drop_left' h]

/-! ## Integers -/

@[simp] theorem fromBig_nil : fromBig [] = 0 := rfl

@[simp] theorem fromLittle_nil : fromLittle [] = 0 := rfl

theorem fromLittle_append (p q : Bytes) :
    fromLittle (p ++ q) = fromLittle p + 256 ^ p.length * fromLittle q := by
  induction p with
  | nil => simp
  | cons b p ih =>
    have hcons : ∀ l : Bytes, fromLittle (b :: l) = b.toNat + 256 * fromLittle l := fun _ => rfl
    rw [List.cons_append, hcons, hcons, ih, List.length_cons, Nat.pow_succ]
    ring

theorem fromLittle_eq_zero_iff {p : Bytes} : fromLittle p = 0 ↔ ∀ b ∈ p, b = 0 := by
  induction p with
  | nil => simp
  | cons b p ih =>
    have hcons : fromLittle (b :: p) = b.toNat + 256 * fromLittle p := rfl
    rw [hcons, Nat.add_eq_zero_iff, Nat.mul_eq_zero, or_iff_right (by decide), ih,
      List.forall_mem_cons, ← UInt8.toNat_inj]
    exact Iff.rfl

/-- Texts of one length are told apart by their numbers. -/
theorem fromLittle_inj : ∀ {p q : Bytes}, p.length = q.length → fromLittle p = fromLittle q → p = q
  | [], [], _, _ => rfl
  | a :: p, b :: q, hlen, h => by
    have ha := a.toNat_lt
    have hb := b.toNat_lt
    have hsum : a.toNat + 256 * fromLittle p = b.toNat + 256 * fromLittle q := h
    have hhead : a = b := UInt8.toNat_inj.mp (by omega)
    rw [hhead, fromLittle_inj (Nat.succ.inj hlen) (by omega)]

theorem uint16_high (n : UInt16) : (UInt8.ofNat (n.toNat / 256)).toNat = n.toNat / 256 := by
  have := n.toNat_lt
  simp only [UInt8.toNat_ofNat']
  omega

theorem uint16_low (n : UInt16) : (UInt8.ofNat n.toNat).toNat = n.toNat % 256 := by
  simp

/-- A 16-bit word is read back from its big-endian octets. -/
theorem fromBig_big16 (n : UInt16) : fromBig (big16 n) = n.toNat := by
  simp only [fromBig, big16, List.foldl_cons, List.foldl_nil, uint16_high, uint16_low]
  omega

/-- A 16-bit word is read back from its little-endian octets. -/
theorem fromLittle_little16 (n : UInt16) : fromLittle (little16 n) = n.toNat := by
  simp only [fromLittle, little16, List.foldr_cons, List.foldr_nil, uint16_high, uint16_low]
  omega

/-- A 32-bit word is read back from its little-endian octets. -/
theorem fromLittle_little32 (n : UInt32) : fromLittle (little32 n) = n.toNat := by
  have := n.toNat_lt
  simp only [fromLittle, little32, List.foldr_cons, List.foldr_nil, UInt8.toNat_ofNat']
  omega

/-- Any two octets are a 16-bit word. -/
theorem exists_little16 (b0 b1 : UInt8) : ∃ n : UInt16, little16 n = [b0, b1] := by
  have h0 := b0.toNat_lt
  have h1 := b1.toNat_lt
  have hn : (UInt16.ofNat (b0.toNat + 256 * b1.toNat)).toNat = b0.toNat + 256 * b1.toNat := by
    rw [UInt16.toNat_ofNat']
    omega
  refine ⟨UInt16.ofNat (b0.toNat + 256 * b1.toNat), ?_⟩
  rw [little16, hn]
  simp only [List.cons.injEq, and_true, ← UInt8.toNat_inj, UInt8.toNat_ofNat']
  omega

/-- Any four octets are a 32-bit word. -/
theorem exists_little32 (b0 b1 b2 b3 : UInt8) : ∃ n : UInt32, little32 n = [b0, b1, b2, b3] := by
  have h0 := b0.toNat_lt
  have h1 := b1.toNat_lt
  have h2 := b2.toNat_lt
  have h3 := b3.toNat_lt
  obtain ⟨v, hv⟩ : ∃ v, v = b0.toNat + 256 * b1.toNat + 2 ^ 16 * b2.toNat + 2 ^ 24 * b3.toNat :=
    ⟨_, rfl⟩
  have hn : (UInt32.ofNat v).toNat = v := by
    rw [UInt32.toNat_ofNat']
    omega
  refine ⟨UInt32.ofNat v, ?_⟩
  rw [little32, hn]
  simp only [List.cons.injEq, and_true, ← UInt8.toNat_inj, UInt8.toNat_ofNat']
  omega

/-- The registers of a block are read back one by one. -/
theorem slice_flatMap_big16 : ∀ (l : List UInt16) (i : Nat) (h : i < l.length),
    slice (l.flatMap big16) (2 * i) (2 * i + 2) = big16 l[i]
  | r :: l, 0, _ => by simp [slice, big16]
  | r :: l, i + 1, h => by
    have ih := slice_flatMap_big16 l i (by simpa using h)
    rw [List.flatMap_cons, List.getElem_cons_succ, ← ih]
    simp [big16, show 2 * (i + 1) = 2 * i + 1 + 1 by omega]

theorem length_flatMap_big16 (l : List UInt16) : (l.flatMap big16).length = 2 * l.length := by
  induction l with
  | nil => rfl
  | cons r l ih =>
    rw [List.flatMap_cons, List.length_append, ih, List.length_cons]
    simp [big16]
    omega

@[simp] theorem length_big16 (n : UInt16) : (big16 n).length = 2 := rfl

@[simp] theorem length_little16 (n : UInt16) : (little16 n).length = 2 := rfl

@[simp] theorem length_little32 (n : UInt32) : (little32 n).length = 4 := rfl

/-! ## Digests -/

/-- `hashlib.sha256(p).hexdigest()`, of two contents. -/
def sha256Small (p : Bytes) : String :=
  if p = [] then "e3b0c44298fc1c149afbf4c8996fb92427ae41e4649b934ca495991b7852b855"
  else "ba7816bf8f01cfea414140de5dae2223b00361a396177a9cb410ff61f20015ad"

theorem sha256Small_inj {p q : Bytes} (hp : p = [] ∨ p = [97, 98, 99])
    (hq : q = [] ∨ q = [97, 98, 99]) (h : sha256Small p = sha256Small q) : p = q := by
  rcases hp with rfl | rfl <;> rcases hq with rfl | rfl
  · rfl
  · exact absurd h (by decide)
  · exact absurd h (by decide)
  · rfl

end Bytes

end OtLab
