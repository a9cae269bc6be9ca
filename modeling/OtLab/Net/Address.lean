import Mathlib.Algebra.Group.Int.Defs
import Mathlib.Algebra.Group.Nat.Defs
import Mathlib.Data.List.Basic
import Mathlib.Logic.Function.Basic

/-!
# Addresses and zones

IPv4 addresses as four octets, the part of Python's `ipaddress` the detectors call, and the
zones of the lab. Texts are handled as lists of characters, the way `ipaddress` splits them.

* `ipAddress_str` — `ip_address` reads back the text of every IPv4 address
* `zoneOf_eq_some` — the zone networks are disjoint, so the order of `ZONES` does not matter
-/

namespace OtLab

/-! ## IPv4 addresses -/

/-- An IPv4 address `a.b.c.d`. -/
structure IPv4 where
  a : UInt8
  b : UInt8
  c : UInt8
  d : UInt8
deriving DecidableEq, Repr

namespace IPv4

/-- The decimal text of one octet. -/
def octetChars (n : UInt8) : List Char := Nat.toDigits 10 n.toNat

/-- The dotted text of an address. -/
def chars (x : IPv4) : List Char :=
  ['.'].intercalate [octetChars x.a, octetChars x.b, octetChars x.c, octetChars x.d]

def str (x : IPv4) : String := String.ofList x.chars

/-- The value of a string of decimal digits. -/
def decimal (l : List Char) : Nat := l.foldl (fun n c => 10 * n + (c.toNat - 48)) 0

/-- `IPv4Address._parse_octet`: decimal digits only, at most three, no leading zero. -/
def parseOctet (l : List Char) : Option UInt8 :=
  if l.isEmpty then none
  else if !l.all Char.isDigit then none
  else if 3 < l.length then none
  else if l ≠ ['0'] ∧ l.head? = some '0' then none
  else if 255 < decimal l then none
  else some (UInt8.ofNat (decimal l))

/-- `IPv4Address._ip_int_from_string`. -/
def parse (l : List Char) : Option IPv4 :=
  match l.splitOn '.' with
  | [p, q, r, s] => do
    let a ← parseOctet p
    let b ← parseOctet q
    let c ← parseOctet r
    let d ← parseOctet s
    return ⟨a, b, c, d⟩
  | _ => none

/-- The 32-bit value of an address, high octet first. -/
def toNat (x : IPv4) : Nat :=
  ((x.a.toNat * 256 + x.b.toNat) * 256 + x.c.toNat) * 256 + x.d.toNat

/-- The address with a given 32-bit value. -/
def ofNat (n : Nat) : IPv4 :=
  ⟨UInt8.ofNat (n / 2 ^ 24), UInt8.ofNat (n / 2 ^ 16), UInt8.ofNat (n / 2 ^ 8), UInt8.ofNat n⟩

theorem octet_roundtrip_fin : ∀ n : Fin 256,
    parseOctet (Nat.toDigits 10 n.val) = some (UInt8.ofNat n.val) ∧
      '.' ∉ Nat.toDigits 10 n.val := by
  decide +kernel

theorem parseOctet_octetChars (n : UInt8) : parseOctet (octetChars n) = some n := by
  have h := (octet_roundtrip_fin ⟨n.toNat, n.toNat_lt⟩).1
  simpa [octetChars] using h

theorem dot_not_mem_octetChars (n : UInt8) : '.' ∉ octetChars n :=
  (octet_roundtrip_fin ⟨n.toNat, n.toNat_lt⟩).2

/-- The dotted text is read back as the same address. -/
theorem parse_chars (x : IPv4) : parse x.chars = some x := by
  have hsplit : x.chars.splitOn '.'
      = [octetChars x.a, octetChars x.b, octetChars x.c, octetChars x.d] := by
    refine List.splitOn_intercalate '.' ?_ (by simp)
    intro l hl
    simp only [List.mem_cons, List.not_mem_nil, or_false] at hl
    rcases hl with rfl | rfl | rfl | rfl <;> exact dot_not_mem_octetChars _
  unfold parse
  rw [hsplit]
  simp [parseOctet_octetChars]

theorem eq_digitChar_of_isDigit {c : Char} (h : c.isDigit = true) :
    ∃ d : Fin 10, c = Nat.digitChar d.val := by
  have hval : 48 ≤ c.toNat ∧ c.toNat ≤ 57 := by
    simp only [Char.isDigit, Bool.and_eq_true, decide_eq_true_eq] at h
    exact ⟨UInt32.le_iff_toNat_le.mp h.1, UInt32.le_iff_toNat_le.mp h.2⟩
  refine ⟨⟨c.toNat - 48, by omega⟩, ?_⟩
  have hdigit : ∀ d : Fin 10, Nat.digitChar d.val = Char.ofNat (48 + d.val) := by decide
  rw [hdigit]
  show c = Char.ofNat (48 + (c.toNat - 48))
  rw [Nat.add_sub_cancel' hval.1, Char.ofNat_toNat]

theorem octetChars_parseOctet_fin : ∀ d e f : Fin 10,
    let c := fun n : Fin 10 => Nat.digitChar n.val
    ∀ l ∈ [[c d], [c d, c e], [c d, c e, c f]],
      (parseOctet l).all (fun n => octetChars n == l) = true := by
  decide +kernel

/-- Every octet has only one text. -/
theorem octetChars_of_parseOctet {l : List Char} {n : UInt8} (h : parseOctet l = some n) :
    l = octetChars n := by
  have hall := h
  unfold parseOctet at hall
  split at hall
  · simp at hall
  next hne =>
  split at hall
  · simp at hall
  next hdigits =>
  split at hall
  · simp at hall
  next hlen =>
  clear hall
  simp only [Bool.not_eq_true, Bool.not_eq_false', List.all_eq_true] at hdigits
  -- a text of at most three digits is one of the thousand of the finite check
  have hfin := octetChars_parseOctet_fin
  have hdone : (parseOctet l).all (fun n => octetChars n == l) = true := by
    match l, hne, hlen with
    | [a], _, _ =>
      obtain ⟨d, rfl⟩ := eq_digitChar_of_isDigit (hdigits a (by simp))
      exact hfin d 0 0 _ (by simp)
    | [a, b], _, _ =>
      obtain ⟨d, rfl⟩ := eq_digitChar_of_isDigit (hdigits a (by simp))
      obtain ⟨e, rfl⟩ := eq_digitChar_of_isDigit (hdigits b (by simp))
      exact hfin d e 0 _ (by simp)
    | [a, b, c], _, _ =>
      obtain ⟨d, rfl⟩ := eq_digitChar_of_isDigit (hdigits a (by simp))
      obtain ⟨e, rfl⟩ := eq_digitChar_of_isDigit (hdigits b (by simp))
      obtain ⟨f, rfl⟩ := eq_digitChar_of_isDigit (hdigits c (by simp))
      exact hfin d e f _ (by simp)
    | _ :: _ :: _ :: _ :: _, _, hlen => simp at hlen
  rw [h] at hdone
  simpa using (beq_iff_eq.mp hdone).symm

/-- The only text that is read as an address is its dotted text. -/
theorem chars_of_parse {l : List Char} {x : IPv4} (h : parse l = some x) : l = x.chars := by
  unfold parse at h
  have hjoin : ['.'].intercalate (l.splitOn '.') = l := List.intercalate_splitOn '.'
  split at h
  · next p q r s hsplit =>
    rw [hsplit] at hjoin
    simp only [Option.bind_eq_bind, Option.bind_eq_some_iff, Option.pure_def,
      Option.some.injEq] at h
    obtain ⟨a, ha, b, hb, c, hc, d, hd, rfl⟩ := h
    rw [octetChars_of_parseOctet ha, octetChars_of_parseOctet hb, octetChars_of_parseOctet hc,
      octetChars_of_parseOctet hd] at hjoin
    exact hjoin.symm
  · simp at h

end IPv4

/-! ## IPv6 addresses

`ip_address` falls back to IPv6 when the text is no IPv4 address. Only whether the text is
accepted matters to the callers, but the value is computed as the library does.
-/

namespace IPv6

def isHexDigit (c : Char) : Bool :=
  c.isDigit || ('a' ≤ c && c ≤ 'f') || ('A' ≤ c && c ≤ 'F')

def hexValue (c : Char) : Nat :=
  if c.isDigit then c.toNat - 48 else if 'a' ≤ c then c.toNat - 87 else c.toNat - 55

/-- `IPv6Address._parse_hextet`: one to four hexadecimal digits. -/
def parseHextet (l : List Char) : Option Nat :=
  if !l.all isHexDigit then none
  else if 4 < l.length then none
  else if l.isEmpty then none
  else some (l.foldl (fun n c => 16 * n + hexValue c) 0)

/-- The text `'%x' % n`. -/
def hexChars (n : Nat) : List Char := Nat.toDigits 16 n

/-- A dotted last part is replaced by the two hextets of its value. -/
def expandTail (parts : List (List Char)) : Option (List (List Char)) :=
  match parts.getLast? with
  | some tail =>
    if '.' ∈ tail then
      (IPv4.parse tail).map fun x =>
        parts.dropLast ++ [hexChars (x.toNat / 2 ^ 16), hexChars (x.toNat % 2 ^ 16)]
    else some parts
  | none => some parts

/-- The indices of the empty parts that are neither first nor last (the `::`). -/
def innerEmpty (parts : List (List Char)) : List Nat :=
  (List.range parts.length).filter fun i =>
    1 ≤ i && i + 1 < parts.length && (parts.getD i []).isEmpty

/-- Concatenates hextets, high first. -/
def joinHextets (l : List Nat) : Nat := l.foldl (fun n h => n * 2 ^ 16 + h) 0

/-- `IPv6Address._ip_int_from_string`. -/
def parseValue (l : List Char) : Option Nat := do
  let parts := l.splitOn ':'
  if parts.length < 3 then none
  else
    let parts ← expandTail parts
    if 9 < parts.length then none
    else
      match innerEmpty parts with
      | [] =>
        if parts.length ≠ 8 then none
        else (parts.mapM parseHextet).map joinHextets
      | [skip] => do
        let lead := (parts.headD []).isEmpty
        let trail := (parts.getLastD []).isEmpty
        -- a leading or trailing colon is only allowed as part of the `::`
        if lead ∧ skip ≠ 1 ∨ trail ∧ parts.length - skip - 1 ≠ 1 then none
        else
          let hi := if lead then 0 else skip
          let lo := if trail then 0 else parts.length - skip - 1
          if 8 < hi + lo + 1 then none
          else
            let high ← (parts.take hi).mapM parseHextet
            let low ← (parts.drop (parts.length - lo)).mapM parseHextet
            return joinHextets (high ++ List.replicate (8 - (hi + lo)) 0 ++ low)
      | _ => none

/-- `IPv6Address`: an optional `%scope`, never a `/`. -/
def parse (l : List Char) : Option (Nat × Option (List Char)) :=
  if '/' ∈ l then none
  else
    match l.splitOn '%' with
    | [addr] => (parseValue addr).map fun n => (n, none)
    | [addr, scope] =>
      if scope.isEmpty then none else (parseValue addr).map fun n => (n, some scope)
    | _ => none

end IPv6

/-- What `ipaddress.ip_address` returns. -/
inductive IpAddress where
  | v4 (x : IPv4)
  | v6 (value : Nat) (scope : Option (List Char))
deriving DecidableEq, Repr

/-- `ipaddress.ip_address` on a text; `none` is the `ValueError`. -/
def ipAddress (s : String) : Option IpAddress :=
  match IPv4.parse s.toList with
  | some x => some (.v4 x)
  | none => (IPv6.parse s.toList).map fun r => .v6 r.1 r.2

/-- `ipaddress.ip_address` on an integer. -/
def ipAddressOfInt (n : Int) : Option IpAddress :=
  if n < 0 then none
  else if n < 2 ^ 32 then some (.v4 (IPv4.ofNat n.toNat))
  else if n < 2 ^ 128 then some (.v6 n.toNat none)
  else none

/-- **`ip_address` reads back the text of every IPv4 address.** -/
theorem ipAddress_str (x : IPv4) : ipAddress x.str = some (.v4 x) := by
  unfold ipAddress IPv4.str
  rw [String.toList_ofList, IPv4.parse_chars]

/-- A text that is read as an IPv4 address is the text of that address. -/
theorem IPv4.str_of_parse {s : String} {x : IPv4} (h : IPv4.parse s.toList = some x) :
    s = x.str := by
  unfold IPv4.str
  rw [← IPv4.chars_of_parse h, String.ofList_toList]

theorem IPv4.str_injective : Function.Injective IPv4.str := by
  intro x y h
  have hx := ipAddress_str x
  rw [h, ipAddress_str y] at hx
  simpa using hx.symm

/-! ## Zones -/

/-- The zones of the lab, named as in `ZONES` and `firewall-rules.sh`. -/
inductive Zone where
  | it
  | dmz
  | ops
  | supervisory
  | control
deriving DecidableEq, Repr

/-- A `/24` network, given by its first three octets. -/
structure Net24 where
  a : UInt8
  b : UInt8
  c : UInt8
deriving DecidableEq, Repr

/-- `addr in network`. -/
def Net24.contains (n : Net24) (x : IPv4) : Bool := x.a == n.a && x.b == n.b && x.c == n.c

/-- The network of a zone, as `ZONES` of `firewall_events.py` has it. -/
def Zone.net : Zone → Net24
  | .it => ⟨172, 24, 0⟩
  | .dmz => ⟨172, 25, 0⟩
  | .ops => ⟨172, 23, 0⟩
  | .supervisory => ⟨172, 22, 0⟩
  | .control => ⟨172, 21, 0⟩

/-- The keys of `ZONES`, in the order of the dictionary. -/
def zones : List Zone := [.it, .dmz, .ops, .supervisory, .control]

/-- `zone_of`; `none` is the name `"unknown"`. -/
def zoneOf (x : IPv4) : Option Zone := zones.find? fun z => z.net.contains x

theorem mem_zones (z : Zone) : z ∈ zones := by cases z <;> decide

theorem net_b_injective {z z' : Zone} (h : z.net.b = z'.net.b) : z = z' := by
  revert h
  cases z <;> cases z' <;> decide

theorem net_disjoint {x : IPv4} {z z' : Zone} (h : z.net.contains x = true)
    (h' : z'.net.contains x = true) : z = z' := by
  simp only [Net24.contains, Bool.and_eq_true, beq_iff_eq] at h h'
  exact net_b_injective (h.1.2.symm.trans h'.1.2)

/-- **The zone networks are disjoint**, so `zone_of` does not depend on the order of `ZONES`. -/
theorem zoneOf_eq_some {x : IPv4} {z : Zone} : zoneOf x = some z ↔ z.net.contains x = true := by
  unfold zoneOf
  constructor
  · exact fun h => List.find?_some (p := fun z : Zone => z.net.contains x) h
  · intro h
    cases hf : zones.find? fun z => z.net.contains x with
    | none => exact absurd h (List.find?_eq_none.mp hf z (mem_zones z))
    | some z' =>
      have h' : z'.net.contains x = true :=
        List.find?_some (p := fun z : Zone => z.net.contains x) hf
      rw [net_disjoint h h']

end OtLab
