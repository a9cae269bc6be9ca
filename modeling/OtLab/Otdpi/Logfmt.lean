import Mathlib.Data.List.TakeWhile
import OtLab.Otdpi.Common

/-!
# logfmt lines

`logfmt` of `common.py`, and a reader of the format: pairs are separated by characters up to the
blank, a value ends at the next of them or at the next quote that is not escaped, and a pair
without a value is dropped. Whatever is malformed is skipped up to the next blank.

`logfmt` quotes a text with a blank, a quote, an equals sign or a newline, but not one with a tab.
The reader then cuts the value off, and what follows the tab has no value.

* `pairs_logfmt` — every entry of a line is read back under its own key
* `reads_labels` — so a plain value is read back as it is, and no value is taken for another one
-/

namespace OtLab

/-! ## Writing -/

/-- `str(value)`; a value that is `None` is left out. -/
def Value.text? : Value → Option String
  | .none => Option.none
  | .int n => some (toString n)
  | .str s => some s

namespace Common

/-- `text.replace(c, new)` for a single character. -/
def replaceChar (c : Char) (new text : List Char) : List Char :=
  text.flatMap fun d => if d = c then new else [d]

/-- `text == "" or any(ch in text for ch in ' "=\n')`. -/
def needsQuotes (text : List Char) : Bool :=
  text.isEmpty || text.any fun ch => ch ∈ [' ', '"', '=', '\n']

def escape (text : List Char) : List Char :=
  replaceChar '"' ['\\', '"'] (replaceChar '\\' ['\\', '\\'] text)

/-- The right side of a pair. -/
def quoted (text : List Char) : List Char :=
  if needsQuotes text then '"' :: escape text ++ ['"'] else text

/-- `f"{key}={text}"` with the text quoted where required. -/
def pair (key text : String) : String := String.ofList (key.toList ++ '=' :: quoted text.toList)

/-- `logfmt`. -/
def logfmt (fields : Dict) : String :=
  " ".intercalate (fields.filterMap fun entry => entry.2.text?.map (pair entry.1))

end Common

namespace Logfmt

open Common

/-! ## Reading -/

/-- Where a reader of a line is. -/
inductive Mode where
  | gap
  | key (k : List Char)
  | value (k v : List Char)
  | quoted (k v : List Char) (escaped : Bool)
  | skip

/-- Pairs are separated by blanks and control characters. -/
def isBlank (c : Char) : Bool := c.toNat ≤ 32

/-- A pair that has been read; one without a value is dropped. -/
def emit (k v : List Char) : List (String × String) :=
  if v.isEmpty then [] else [(String.ofList k, String.ofList v)]

/-- One character: the new mode, and the pair that ends here. -/
def step : Mode → Char → Mode × List (String × String)
  | .gap, c =>
    if isBlank c then (.gap, []) else if c = '=' ∨ c = '"' then (.skip, []) else (.key [c], [])
  | .key k, c =>
    if isBlank c then (.gap, []) else if c = '=' then (.value k [], [])
    else if c = '"' then (.skip, []) else (.key (k ++ [c]), [])
  | .value k v, c =>
    if isBlank c then (.gap, emit k v) else if c = '=' then (.skip, [])
    else if c = '"' then (if v.isEmpty then .quoted k [] false else .skip, [])
    else (.value k (v ++ [c]), [])
  | .quoted k v escaped, c =>
    if escaped then (.quoted k (v ++ [c]) false, [])
    else if c = '\\' then (.quoted k v true, [])
    else if c = '"' then (.gap, emit k v) else (.quoted k (v ++ [c]) false, [])
  | .skip, c => (if isBlank c then .gap else .skip, [])

/-- The pairs read from the rest of a line. -/
def pairs : Mode → List Char → List (String × String)
  | .value k v, [] => emit k v
  | _, [] => []
  | mode, c :: line => (step mode c).2 ++ pairs (step mode c).1 line

/-- The labels of a line. -/
def labels (line key : String) : Option String := (pairs .gap line.toList).lookup key

/-! ## Reading what was written -/

/-- A letter, a digit or an underscore. -/
def isWordChar (c : Char) : Bool := c.isAlphanum || c = '_'

/-- A text that is written without quotes and read back as it is. -/
def IsWord (s : String) : Prop := s.toList ≠ [] ∧ ∀ c ∈ s.toList, isWordChar c = true

instance (s : String) : Decidable (IsWord s) :=
  @instDecidableAnd _ _ inferInstance (List.decidableBAll _ _)

/-- The value read back for a text; one that is not quoted ends at the first control character. -/
def readBack (key text : String) : List (String × String) :=
  emit key.toList (if needsQuotes text.toList then text.toList
    else text.toList.takeWhile fun c => !isBlank c)

theorem not_blank_of_word {c : Char} (h : isWordChar c = true) :
    isBlank c = false ∧ c ≠ '=' ∧ c ≠ '"' := by
  refine ⟨?_, ?_, ?_⟩
  · have hcase : (c.isAlpha = true ∨ c.isDigit = true) ∨ c = '_' := by
      simpa only [isWordChar, Char.isAlphanum, Bool.or_eq_true, decide_eq_true_eq] using h
    rw [isBlank, decide_eq_false_iff_not, Nat.not_le]
    rcases hcase with (halpha | hdigit) | rfl
    · rcases (Bool.or_eq_true c.isUpper c.isLower).mp halpha with hupper | hlower
      · have hle := (of_decide_eq_true hupper).1
        exact Nat.lt_of_lt_of_le (by decide) (UInt32.le_iff_toNat_le.mp hle)
      · have hle : 'a'.val ≤ c.val := of_decide_eq_true (Bool.and_eq_true_iff.mp hlower).1
        exact Nat.lt_of_lt_of_le (by decide) (UInt32.le_iff_toNat_le.mp hle)
    · have hle : '0'.val ≤ c.val := of_decide_eq_true (Bool.and_eq_true_iff.mp hdigit).1
      exact Nat.lt_of_lt_of_le (by decide) (UInt32.le_iff_toNat_le.mp hle)
    · decide
  all_goals
    rintro rfl
    revert h
    decide

/-- What follows a pair: nothing, or the next pair behind a blank. -/
def Ends (rest : List Char) : Prop := rest = [] ∨ ∃ line, rest = ' ' :: line

theorem pairs_ends {rest : List Char} (h : Ends rest) (k v : List Char) :
    pairs (.key k) rest = pairs .gap rest ∧
      pairs (.value k v) rest = emit k v ++ pairs .gap rest := by
  rcases h with rfl | ⟨line, rfl⟩
  · exact ⟨rfl, (List.append_nil _).symm⟩
  · exact ⟨rfl, rfl⟩

/-- A key is read up to its equals sign. -/
theorem pairs_key {k : List Char} (hk : ∀ c ∈ k, isWordChar c = true) (acc line : List Char) :
    pairs (.key acc) (k ++ '=' :: line) = pairs (.value (acc ++ k) []) line := by
  induction k generalizing acc with
  | nil => rw [List.append_nil]; rfl
  | cons c k ih =>
    obtain ⟨hb, he, hq⟩ := not_blank_of_word (hk c List.mem_cons_self)
    have hstep : step (.key acc) c = (.key (acc ++ [c]), []) := by simp [step, hb, he, hq]
    rw [List.cons_append, pairs, hstep, List.nil_append,
      ih (fun d hd => hk d (List.mem_cons_of_mem _ hd)), List.append_assoc, List.singleton_append]

theorem pairs_gap_key {key : String} (hk : IsWord key) (line : List Char) :
    pairs .gap (key.toList ++ '=' :: line) = pairs (.value key.toList []) line := by
  obtain ⟨hne, hk⟩ := hk
  cases hkey : key.toList with
  | nil => exact absurd hkey hne
  | cons c k =>
    rw [hkey] at hk
    obtain ⟨hb, he, hq⟩ := not_blank_of_word (hk c List.mem_cons_self)
    have hstep : step .gap c = (.key [c], []) := by simp [step, hb, he, hq]
    rw [List.cons_append, pairs, hstep, List.nil_append,
      pairs_key (fun d hd => hk d (List.mem_cons_of_mem _ hd)), List.singleton_append]

/-- Words without an equals sign are keys without a value. -/
theorem pairs_quiet {l rest : List Char} (hl : ∀ c ∈ l, c ≠ '=' ∧ c ≠ '"') (hrest : Ends rest) :
    pairs .gap (l ++ rest) = pairs .gap rest ∧
      ∀ k, pairs (.key k) (l ++ rest) = pairs .gap rest := by
  induction l with
  | nil => exact ⟨rfl, fun k => (pairs_ends hrest k []).1⟩
  | cons c l ih =>
    obtain ⟨he, hq⟩ := hl c List.mem_cons_self
    obtain ⟨hgap, hkey⟩ := ih fun d hd => hl d (List.mem_cons_of_mem _ hd)
    cases hb : isBlank c with
    | true =>
      have hstep : step .gap c = (.gap, []) := by simp [step, hb]
      refine ⟨?_, fun k => ?_⟩
      · rw [List.cons_append, pairs, hstep, List.nil_append, hgap]
      · have hstep' : step (.key k) c = (.gap, []) := by simp [step, hb]
        rw [List.cons_append, pairs, hstep', List.nil_append, hgap]
    | false =>
      have hstep : step .gap c = (.key [c], []) := by simp [step, hb, he, hq]
      refine ⟨?_, fun k => ?_⟩
      · rw [List.cons_append, pairs, hstep, List.nil_append, hkey]
      · have hstep' : step (.key k) c = (.key (k ++ [c]), []) := by simp [step, hb, he, hq]
        rw [List.cons_append, pairs, hstep', List.nil_append, hkey]

/-- A bare value is read up to the first blank in it, and nothing behind that has a value. -/
theorem pairs_bare {l rest : List Char} (hl : ∀ c ∈ l, c ≠ '=' ∧ c ≠ '"') (hrest : Ends rest)
    (k v : List Char) :
    pairs (.value k v) (l ++ rest)
      = emit k (v ++ l.takeWhile fun c => !isBlank c) ++ pairs .gap rest := by
  induction l generalizing v with
  | nil => rw [List.takeWhile_nil, List.append_nil]; exact (pairs_ends hrest k v).2
  | cons c l ih =>
    obtain ⟨he, hq⟩ := hl c List.mem_cons_self
    have hl' : ∀ d ∈ l, d ≠ '=' ∧ d ≠ '"' := fun d hd => hl d (List.mem_cons_of_mem _ hd)
    cases hb : isBlank c with
    | true =>
      have hstep : step (.value k v) c = (.gap, emit k v) := by simp [step, hb]
      rw [List.cons_append, pairs, hstep, (pairs_quiet hl' hrest).1]
      simp [hb]
    | false =>
      have hstep : step (.value k v) c = (.value k (v ++ [c]), []) := by simp [step, hb, he, hq]
      rw [List.cons_append, pairs, hstep, List.nil_append, ih hl' (v ++ [c])]
      simp [hb]

theorem escape_cons (c : Char) (l : List Char) :
    escape (c :: l) = (if c = '\\' then ['\\', '\\'] else if c = '"' then ['\\', '"'] else [c])
      ++ escape l := by
  unfold escape replaceChar
  rw [List.flatMap_cons, List.flatMap_append]
  by_cases hb : c = '\\'
  · rw [if_pos hb, if_pos hb]
    rfl
  · rw [if_neg hb, if_neg hb, List.flatMap_singleton]

/-- A quoted value is read up to its closing quote. -/
theorem pairs_quoted (l rest k v : List Char) :
    pairs (.quoted k v false) (escape l ++ '"' :: rest) = emit k (v ++ l) ++ pairs .gap rest := by
  induction l generalizing v with
  | nil => rw [List.append_nil]; rfl
  | cons c l ih =>
    rw [escape_cons]
    by_cases hb : c = '\\'
    · subst hb
      exact (ih (v ++ ['\\'])).trans (by rw [List.append_assoc, List.singleton_append])
    by_cases hq : c = '"'
    · subst hq
      exact (ih (v ++ ['"'])).trans (by rw [List.append_assoc, List.singleton_append])
    · have hstep : step (.quoted k v false) c = (.quoted k (v ++ [c]) false, []) := by
        simp [step, hb, hq]
      rw [if_neg hb, if_neg hq, List.singleton_append, List.cons_append, pairs, hstep,
        List.nil_append, ih (v ++ [c]), List.append_assoc, List.singleton_append]

/-- One pair of a line is read back. -/
theorem pairs_pair {key : String} (hk : IsWord key) (text : String) {rest : List Char}
    (hrest : Ends rest) :
    pairs .gap ((pair key text).toList ++ rest) = readBack key text ++ pairs .gap rest := by
  unfold pair readBack quoted
  rw [String.toList_ofList, List.append_assoc, List.cons_append, pairs_gap_key hk]
  cases hn : needsQuotes text.toList with
  | true =>
    simp only [if_true, List.cons_append, List.append_assoc]
    exact pairs_quoted text.toList rest key.toList []
  | false =>
    simp only [Bool.false_eq_true, if_false]
    refine pairs_bare (fun c hc => ?_) hrest key.toList []
    unfold needsQuotes at hn
    simp only [Bool.or_eq_false_iff, List.any_eq_false, decide_eq_true_eq] at hn
    have hc' := hn.2 c hc
    simp only [List.mem_cons, not_or] at hc'
    exact ⟨hc'.2.2.1, hc'.2.1⟩

/-! ## A whole line -/

/-- The entries `logfmt` writes, with their texts. -/
def entries (d : Dict) : List (String × String) :=
  d.filterMap fun entry => entry.2.text?.map fun text => (entry.1, text)

theorem logfmt_eq (d : Dict) :
    logfmt d = " ".intercalate ((entries d).map fun entry => pair entry.1 entry.2) := by
  unfold logfmt entries
  rw [List.map_filterMap]
  simp only [Option.map_map]
  rfl

theorem pairs_intercalate {l : List (String × String)} (hl : ∀ entry ∈ l, IsWord entry.1) :
    pairs .gap (" ".intercalate (l.map fun entry => pair entry.1 entry.2)).toList
      = l.flatMap fun entry => readBack entry.1 entry.2 := by
  induction l with
  | nil => rfl
  | cons entry l ih =>
    have hkey := hl entry List.mem_cons_self
    have hrest := ih fun e he => hl e (List.mem_cons_of_mem _ he)
    cases l with
    | nil =>
      have hpair := pairs_pair hkey entry.2 (Or.inl rfl)
      rw [List.append_nil] at hpair
      exact hpair
    | cons next l =>
      have hblank : " ".toList = [' '] := by decide
      rw [List.map_cons, List.map_cons, String.intercalate_cons_cons, String.toList_append,
        String.toList_append, List.append_assoc, hblank, List.singleton_append,
        pairs_pair hkey entry.2 (Or.inr ⟨_, rfl⟩), List.flatMap_cons]
      exact congrArg (readBack entry.1 entry.2 ++ ·) hrest

/-- **Every entry of a line is read back under its own key.** -/
theorem pairs_logfmt {d : Dict} (hd : ∀ entry ∈ d, IsWord entry.1) :
    pairs .gap (logfmt d).toList = (entries d).flatMap fun entry => readBack entry.1 entry.2 := by
  rw [logfmt_eq]
  refine pairs_intercalate fun entry he => ?_
  obtain ⟨e, hmem, htext⟩ := List.mem_filterMap.mp he
  obtain ⟨text, -, rfl⟩ := Option.map_eq_some_iff.mp htext
  exact hd e hmem

theorem lookup_readBack_of_ne {k key : String} (h : key ≠ k) (text : String) :
    (readBack k text).lookup key = none := by
  unfold readBack
  generalize (if needsQuotes text.toList then _ else _ : List Char) = v
  unfold emit
  rw [String.ofList_toList]
  cases v.isEmpty with
  | true => rfl
  | false => simp [List.lookup_cons, beq_false_of_ne h]

/-- A text that needs no quotes and is read back as it is. -/
def IsPlain (s : String) : Prop :=
  s.toList ≠ [] ∧ ∀ c ∈ s.toList, isBlank c = false ∧ c ≠ '=' ∧ c ≠ '"'

theorem isPlain_of_isWord {s : String} (h : IsWord s) : IsPlain s :=
  ⟨h.1, fun c hc => not_blank_of_word (h.2 c hc)⟩

theorem needsQuotes_of_plain {s : String} (h : IsPlain s) : needsQuotes s.toList = false := by
  obtain ⟨hne, hplain⟩ := h
  unfold needsQuotes
  rw [Bool.or_eq_false_iff, List.isEmpty_eq_false_iff, List.any_eq_false]
  refine ⟨hne, fun c hc hmem => ?_⟩
  obtain ⟨hblank, hequals, hquote⟩ := hplain c hc
  rw [decide_eq_true_eq] at hmem
  simp only [List.mem_cons, List.not_mem_nil, or_false] at hmem
  rcases hmem with rfl | rfl | rfl | rfl
  · exact absurd hblank (by decide)
  · exact hquote rfl
  · exact hequals rfl
  · exact absurd hblank (by decide)

theorem pair_of_plain (key : String) {text : String} (h : IsPlain text) :
    pair key text = key ++ "=" ++ text := by
  have hequals : "=".toList = ['='] := by decide
  unfold pair quoted
  rw [needsQuotes_of_plain h, if_neg Bool.false_ne_true]
  apply String.toList_injective
  rw [String.toList_ofList, String.toList_append, String.toList_append, hequals,
    List.append_assoc, List.singleton_append]

theorem readBack_of_plain {text : String} (h : IsPlain text) (key : String) :
    readBack key text = [(key, text)] := by
  have htake : text.toList.takeWhile (fun c => !isBlank c) = text.toList := by
    rw [List.takeWhile_eq_self_iff]
    intro c hc
    rw [(h.2 c hc).1]
    rfl
  unfold readBack emit
  rw [needsQuotes_of_plain h, if_neg Bool.false_ne_true, htake, if_neg (by simpa using h.1),
    String.ofList_toList, String.ofList_toList]

/-- The keys of a record are words, each used once. -/
def PlainKeys (d : Dict) : Prop := (∀ entry ∈ d, IsWord entry.1) ∧ (d.map Prod.fst).Nodup

theorem lookup_entries {d : Dict} (hd : (d.map Prod.fst).Nodup) (key : String) :
    (entries d).lookup key = (d.lookup key).bind Value.text? := by
  induction d with
  | nil => rfl
  | cons entry d ih =>
    obtain ⟨k, v⟩ := entry
    rw [List.map_cons, List.nodup_cons] at hd
    obtain ⟨hnew, hd⟩ := hd
    have hcons : entries ((k, v) :: d)
        = (v.text?.map fun text => (k, text)).toList ++ entries d := by
      unfold entries
      rw [List.filterMap_cons]
      cases v.text? <;> rfl
    rw [hcons, List.lookup_append, ih hd, List.lookup_cons]
    by_cases hk : key = k
    · subst hk
      have hlater : d.lookup key = none := by
        rw [List.lookup_eq_none_iff]
        intro e he
        rw [bne_iff_ne]
        intro heq
        exact hnew (List.mem_map.mpr ⟨e, he, heq.symm⟩)
      rw [hlater, beq_self_eq_true]
      cases htext : v.text? <;> simp [htext]
    · rw [beq_false_of_ne hk]
      cases v.text? <;> simp [List.lookup_cons, beq_false_of_ne hk]

/-- What is promised of a reader of the lines `logfmt` writes. -/
structure Reads (labels : String → String → Option String) : Prop where
  present : ∀ d key text, PlainKeys d → (d.lookup key).bind Value.text? = some text →
    IsWord text → labels (logfmt d) key = some text
  absent : ∀ d key, PlainKeys d → (d.lookup key).bind Value.text? = none →
    labels (logfmt d) key = none

theorem lookup_flatMap_readBack (l : List (String × String)) (key : String) :
    (∀ text, l.lookup key = some text → IsPlain text →
      (l.flatMap fun entry => readBack entry.1 entry.2).lookup key = some text) ∧
    (l.lookup key = none →
      (l.flatMap fun entry => readBack entry.1 entry.2).lookup key = none) := by
  induction l with
  | nil => exact ⟨fun _ h => (Option.some_ne_none _ h.symm).elim, fun _ => rfl⟩
  | cons entry l ih =>
    obtain ⟨k, t⟩ := entry
    rw [List.lookup_cons, List.flatMap_cons, List.lookup_append]
    by_cases hk : key = k
    · subst hk
      rw [beq_self_eq_true]
      refine ⟨fun text htext hplain => ?_, nofun⟩
      obtain rfl := Option.some.inj htext
      rw [readBack_of_plain hplain, List.lookup_cons, beq_self_eq_true]
      rfl
    · rw [beq_false_of_ne hk, lookup_readBack_of_ne hk]
      exact ih

theorem labels_of_plain {d : Dict} {key text : String} (hd : PlainKeys d)
    (htext : (d.lookup key).bind Value.text? = some text) (h : IsPlain text) :
    labels (logfmt d) key = some text := by
  unfold labels
  rw [pairs_logfmt hd.1]
  exact (lookup_flatMap_readBack _ key).1 text ((lookup_entries hd.2 key).trans htext) h

/-- **A plain value is read back as it is, and no other value is taken for it.** -/
theorem reads_labels : Reads labels where
  present _ _ _ hd htext hword := labels_of_plain hd htext (isPlain_of_isWord hword)
  absent := by
    intro d key hd hnone
    unfold labels
    rw [pairs_logfmt hd.1]
    exact (lookup_flatMap_readBack _ key).2 ((lookup_entries hd.2 key).trans hnone)

/-- A label is the text of the entry with its key, if that is plain. -/
theorem Reads.labels_eq {labels : String → String → Option String} (h : Reads labels) {d : Dict}
    (hd : PlainKeys d) {key : String} {text : Option String}
    (htext : (d.lookup key).bind Value.text? = text) (hword : ∀ t ∈ text, IsWord t) :
    labels (logfmt d) key = text := by
  cases text with
  | none => exact h.absent d key hd htext
  | some text => exact h.present d key text hd htext (hword text rfl)

theorem plainKeys_of_sublist {d : Dict} {keys : List String}
    (h : (d.map Prod.fst).Sublist keys) (hkeys : (∀ k ∈ keys, IsWord k) ∧ keys.Nodup) :
    PlainKeys d :=
  ⟨fun _ he => hkeys.1 _ (h.subset (List.mem_map_of_mem he)), hkeys.2.sublist h⟩

/-- A number is written as a word. -/
theorem isWord_toString (n : Nat) : IsWord (toString n) := by
  have hdigits : (toString n).toList = Nat.toDigits 10 n := Nat.toList_repr
  unfold IsWord
  rw [hdigits]
  refine ⟨Nat.toDigits_ne_nil, fun c hc => ?_⟩
  have hdigit := Nat.isDigit_of_mem_toDigits (by decide) (by decide) hc
  simp [isWordChar, Char.isAlphanum, hdigit]

end Logfmt

end OtLab
