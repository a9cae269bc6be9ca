import OtLab.Otdpi.Logfmt
import OtLab.Otdpi.OpcUa
import OtLab.Py.Utf8

/-!
# The telemetry line

Whether a line of `logfmt` carries exactly the fields it was written from, for a reader that takes
a bare value up to the next blank or control character and a quoted one up to the first quote that
is not escaped, and drops nothing. The sender of an OPC UA message chooses its chunk octet and the
security policy of an `OPN`.

* `carried_iff` — which dictionaries, and which OPC UA payloads, are carried
-/

namespace OtLab.TelemetryLine

open Common Logfmt Bytes

/-! ## Reading -/

/-- Where the reader of a line is; `value` is directly behind an equals sign. -/
inductive Mode where
  | gap
  | key (k : List Char)
  | value (k : List Char)
  | bare (k v : List Char)
  | quoted (k v : List Char) (escaped : Bool)

/-- A pair that has been read. -/
def emit (k v : List Char) : List (String × String) := [(String.ofList k, String.ofList v)]

/-- One character: the new mode, and the pair that ends here. A word alone is a key without text. -/
def step : Mode → Char → Mode × List (String × String)
  | .gap, c => (if isBlank c then .gap else if c = '=' then .value [] else .key [c], [])
  | .key k, c =>
    if isBlank c then (.gap, emit k []) else (if c = '=' then .value k else .key (k ++ [c]), [])
  | .value k, c =>
    if isBlank c then (.gap, emit k [])
    else (if c = '"' then .quoted k [] false else .bare k [c], [])
  | .bare k v, c => if isBlank c then (.gap, emit k v) else (.bare k (v ++ [c]), [])
  | .quoted k v true, c =>
    (.quoted k (v ++ if c = '"' ∨ c = '\\' then [c] else ['\\', c]) false, [])
  | .quoted k v false, c =>
    if c = '\\' then (.quoted k v true, [])
    else if c = '"' then (.gap, emit k v) else (.quoted k (v ++ [c]) false, [])

/-- The pairs read from the rest of a line. -/
def pairs : Mode → List Char → List (String × String)
  | .gap, [] => []
  | .key k, [] => emit k []
  | .value k, [] => emit k []
  | .bare k v, [] => emit k v
  | .quoted .., [] => []
  | mode, c :: line => (step mode c).2 ++ pairs (step mode c).1 line

/-- The line of a dictionary is read as the fields that are not `None`, with their texts. -/
def Carried (d : Dict) : Prop := pairs .gap (logfmt d).toList = entries d

/-! ## Keys and quoted texts -/

/-- A key that is read back, such as an identifier. -/
def IsKey (key : String) : Prop :=
  key.toList ≠ [] ∧ ∀ c ∈ key.toList, isBlank c = false ∧ c ≠ '='

instance (key : String) : Decidable (IsKey key) :=
  @instDecidableAnd _ _ inferInstance (List.decidableBAll _ _)

theorem pairs_key {k : List Char} (hk : ∀ c ∈ k, isBlank c = false ∧ c ≠ '=')
    (acc line : List Char) :
    pairs (.key acc) (k ++ '=' :: line) = pairs (.value (acc ++ k)) line := by
  induction k generalizing acc with
  | nil =>
    rw [List.append_nil]
    rfl
  | cons c k ih =>
    obtain ⟨hb, he⟩ := hk c List.mem_cons_self
    have hstep : step (.key acc) c = (.key (acc ++ [c]), []) := by simp [step, hb, he]
    rw [List.cons_append, pairs, hstep, List.nil_append,
      ih (fun d hd => hk d (List.mem_cons_of_mem _ hd)), List.append_assoc, List.singleton_append]

theorem pairs_gap_key {key : String} (h : IsKey key) (line : List Char) :
    pairs .gap (key.toList ++ '=' :: line) = pairs (.value key.toList) line := by
  obtain ⟨hne, hk⟩ := h
  obtain ⟨c, k, hkey⟩ := List.exists_cons_of_ne_nil hne
  rw [hkey] at hk ⊢
  obtain ⟨hb, he⟩ := hk c List.mem_cons_self
  have hstep : step .gap c = (.key [c], []) := by simp [step, hb, he]
  rw [List.cons_append, pairs, hstep, List.nil_append,
    pairs_key (fun d hd => hk d (List.mem_cons_of_mem _ hd)), List.singleton_append]

/-- The escapes are undone, and the first quote that is not escaped is the last character. -/
theorem pairs_quoted (l rest k v : List Char) :
    pairs (.quoted k v false) (escape l ++ '"' :: rest) = emit k (v ++ l) ++ pairs .gap rest := by
  induction l generalizing v with
  | nil =>
    rw [List.append_nil]
    rfl
  | cons c l ih =>
    rw [escape_cons]
    by_cases hb : c = '\\'
    · subst hb
      exact (ih (v ++ ['\\'])).trans (by rw [List.append_assoc, List.singleton_append])
    by_cases hq : c = '"'
    · subst hq
      exact (ih (v ++ ['"'])).trans (by rw [List.append_assoc, List.singleton_append])
    · have hstep : step (.quoted k v false) c = (.quoted k (v ++ [c]) false, []) := by
        simp [step, hb, hq]
      rw [if_neg hb, if_neg hq, List.singleton_append, List.cons_append, pairs, hstep,
        List.nil_append, ih (v ++ [c]), List.append_assoc, List.singleton_append]

/-! ## Bare texts -/

/-- A bare text is read up to the first blank in it. -/
theorem pairs_bare {rest : List Char} (hrest : Ends rest) (l k v : List Char) :
    ∃ tail, pairs (.bare k v) (l ++ rest)
        = emit k (v ++ l.takeWhile fun c => !isBlank c) ++ tail ∧
      ((∀ c ∈ l, isBlank c = false) → tail = pairs .gap rest) := by
  induction l generalizing v with
  | nil =>
    rw [List.takeWhile_nil, List.append_nil]
    rcases hrest with rfl | ⟨line, rfl⟩
    · exact ⟨[], rfl, fun _ => rfl⟩
    · exact ⟨pairs .gap line, rfl, fun _ => rfl⟩
  | cons c l ih =>
    cases hb : isBlank c with
    | true =>
      have hstep : step (.bare k v) c = (.gap, emit k v) := by simp [step, hb]
      refine ⟨pairs .gap (l ++ rest), ?_, fun hl => ?_⟩
      · rw [List.cons_append, pairs, hstep, List.takeWhile_cons_of_neg (by simp [hb]),
          List.append_nil]
      · rw [hl c List.mem_cons_self] at hb
        cases hb
    | false =>
      have hstep : step (.bare k v) c = (.bare k (v ++ [c]), []) := by simp [step, hb]
      obtain ⟨tail, heq, htail⟩ := ih (v ++ [c])
      refine ⟨tail, ?_, fun hl => htail fun d hd => hl d (List.mem_cons_of_mem _ hd)⟩
      rw [List.cons_append, pairs, hstep, List.nil_append, heq,
        List.takeWhile_cons_of_pos (by simp [hb]), List.append_assoc, List.singleton_append]

/-- A text without quotes directly behind the equals sign. -/
theorem pairs_value {l rest : List Char} (hl : l ≠ []) (hq : '"' ∉ l) (hrest : Ends rest)
    (k : List Char) :
    ∃ tail, pairs (.value k) (l ++ rest) = emit k (l.takeWhile fun c => !isBlank c) ++ tail ∧
      ((∀ c ∈ l, isBlank c = false) → tail = pairs .gap rest) := by
  obtain ⟨c, l, rfl⟩ := List.exists_cons_of_ne_nil hl
  cases hb : isBlank c with
  | true =>
    have hstep : step (.value k) c = (.gap, emit k []) := by simp [step, hb]
    refine ⟨pairs .gap (l ++ rest), ?_, fun hl => ?_⟩
    · rw [List.cons_append, pairs, hstep, List.takeWhile_cons_of_neg (by simp [hb])]
    · rw [hl c List.mem_cons_self] at hb
      cases hb
  | false =>
    have hc : c ≠ '"' := fun heq => hq (heq ▸ List.mem_cons_self)
    have hstep : step (.value k) c = (.bare k [c], []) := by simp [step, hb, hc]
    obtain ⟨tail, heq, htail⟩ := pairs_bare hrest l k [c]
    refine ⟨tail, ?_, fun hl => htail fun d hd => hl d (List.mem_cons_of_mem _ hd)⟩
    rw [List.cons_append, pairs, hstep, List.nil_append, heq,
      List.takeWhile_cons_of_pos (by simp [hb]), List.singleton_append]

/-! ## Pairs -/

/-- A text with a blank or a control character has one of the characters `logfmt` quotes for. -/
def Shown (text : String) : Prop :=
  (∃ c ∈ text.toList, isBlank c = true) → ∃ c ∈ text.toList, c ∈ [' ', '"', '=', '\n']

theorem needsQuotes_iff (text : List Char) :
    needsQuotes text = true ↔ text = [] ∨ ∃ c ∈ text, c ∈ [' ', '"', '=', '\n'] := by
  unfold needsQuotes
  rw [Bool.or_eq_true, List.isEmpty_iff, List.any_eq_true]
  simp only [decide_eq_true_eq]

/-- A pair is read back as far as its text is shown. -/
theorem pairs_pair {key : String} (hk : IsKey key) (text : String) {rest : List Char}
    (hrest : Ends rest) :
    ∃ t tail, pairs .gap ((pair key text).toList ++ rest) = (key, t) :: tail ∧
      (t = text ↔ Shown text) ∧ (Shown text → tail = pairs .gap rest) := by
  unfold pair quoted
  rw [String.toList_ofList, List.append_assoc, List.cons_append, pairs_gap_key hk]
  by_cases hn : needsQuotes text.toList = true
  · rw [if_pos hn]
    have hquoted := pairs_quoted text.toList rest key.toList []
    refine ⟨text, pairs .gap rest, ?_, iff_of_true rfl fun hblank => ?_, fun _ => rfl⟩
    · simp only [List.cons_append, List.append_assoc, List.nil_append]
      show pairs (.quoted key.toList [] false) _ = _
      rw [hquoted, List.nil_append, emit, String.ofList_toList, String.ofList_toList]
      rfl
    · rcases (needsQuotes_iff _).mp hn with hempty | hquote
      · rw [hempty] at hblank
        obtain ⟨c, hc, -⟩ := hblank
        cases hc
      · exact hquote
  · rw [if_neg hn]
    rw [needsQuotes_iff, not_or] at hn
    obtain ⟨hne, hplain⟩ := hn
    have hq : '"' ∉ text.toList := fun hmem => hplain ⟨'"', hmem, by simp⟩
    have hshown : Shown text ↔ ∀ c ∈ text.toList, isBlank c = false := by
      constructor
      · intro h c hc
        by_contra hb
        exact hplain (h ⟨c, hc, Bool.eq_true_of_not_eq_false hb⟩)
      · rintro h ⟨c, hc, hb⟩
        rw [h c hc] at hb
        cases hb
    obtain ⟨tail, heq, htail⟩ := pairs_value hne hq hrest key.toList
    refine ⟨String.ofList (text.toList.takeWhile fun c => !isBlank c), tail, ?_, ?_, ?_⟩
    · rw [heq, emit, String.ofList_toList]
      rfl
    · rw [hshown, ← String.toList_inj, String.toList_ofList, List.takeWhile_eq_self_iff]
      simp only [Bool.not_eq_true']
    · exact fun h => htail (hshown.mp h)

/-- A line, and what is behind its first pair. -/
theorem intercalate_cons (entry : String × String) (l : List (String × String)) :
    ∃ rest, (" ".intercalate ((entry :: l).map fun e => pair e.1 e.2)).toList
        = (pair entry.1 entry.2).toList ++ rest ∧ Ends rest ∧
      pairs .gap rest = pairs .gap (" ".intercalate (l.map fun e => pair e.1 e.2)).toList := by
  cases l with
  | nil => exact ⟨[], (List.append_nil _).symm, Or.inl rfl, rfl⟩
  | cons next l =>
    have hblank : " ".toList = [' '] := by decide
    have hline : (" ".intercalate ((entry :: next :: l).map fun e => pair e.1 e.2)).toList
        = (pair entry.1 entry.2).toList
          ++ ' ' :: (" ".intercalate ((next :: l).map fun e => pair e.1 e.2)).toList := by
      rw [List.map_cons, List.map_cons, String.intercalate_cons_cons, String.toList_append,
        String.toList_append, List.append_assoc, hblank, List.singleton_append]
    generalize (" ".intercalate ((next :: l).map fun e => pair e.1 e.2)).toList = line at hline ⊢
    exact ⟨' ' :: line, hline, Or.inr ⟨line, rfl⟩, rfl⟩

/-- A line is read as its pairs exactly when every text is shown. -/
theorem pairs_intercalate_iff {l : List (String × String)} (hl : ∀ e ∈ l, IsKey e.1) :
    pairs .gap (" ".intercalate (l.map fun e => pair e.1 e.2)).toList = l ↔
      ∀ e ∈ l, Shown e.2 := by
  induction l with
  | nil => exact iff_of_true rfl nofun
  | cons entry l ih =>
    have ih := ih fun e he => hl e (List.mem_cons_of_mem _ he)
    obtain ⟨rest, hline, hrest, hnext⟩ := intercalate_cons entry l
    obtain ⟨t, tail, hpair, ht, htail⟩ := pairs_pair (hl entry List.mem_cons_self) entry.2 hrest
    rw [hline, hpair, List.forall_mem_cons, List.cons_eq_cons, Prod.ext_iff]
    constructor
    · rintro ⟨⟨-, htext⟩, hl'⟩
      have hshown := ht.mp htext
      rw [htail hshown, hnext] at hl'
      exact ⟨hshown, ih.mp hl'⟩
    · rintro ⟨hshown, hl'⟩
      rw [htail hshown, hnext]
      exact ⟨⟨rfl, ht.mpr hshown⟩, ih.mpr hl'⟩

theorem carried_dict_iff {d : Dict} (hd : ∀ entry ∈ d, IsKey entry.1) :
    Carried d ↔ ∀ entry ∈ entries d, Shown entry.2 := by
  unfold Carried
  rw [logfmt_eq]
  refine pairs_intercalate_iff fun e he => ?_
  obtain ⟨entry, hmem, htext⟩ := List.mem_filterMap.mp he
  obtain ⟨text, -, rfl⟩ := Option.map_eq_some_iff.mp htext
  exact hd entry hmem

/-! ## Texts of octets -/

/-- `Shown`, of the octets of a text. -/
def ShownOctets (p : Bytes) : Prop :=
  (∃ b ∈ p, b ≤ 0x20) → ∃ b ∈ p, b ∈ [0x20, 0x22, 0x3D, 0x0A]

instance (p : Bytes) : Decidable (ShownOctets p) := by
  unfold ShownOctets
  infer_instance

theorem octet_iff_fin : ∀ n : Fin 256,
    (isBlank (Char.ofNat n) = true ↔ UInt8.ofNat n ≤ 0x20) ∧
      (Char.ofNat n ∈ [' ', '"', '=', '\n'] ↔ UInt8.ofNat n ∈ [0x20, 0x22, 0x3D, 0x0A]) := by
  decide +kernel

theorem octet_iff (b : UInt8) :
    (isBlank (Char.ofNat b.toNat) = true ↔ b ≤ 0x20) ∧
      (Char.ofNat b.toNat ∈ [' ', '"', '=', '\n'] ↔ b ∈ [0x20, 0x22, 0x3D, 0x0A]) := by
  have h := octet_iff_fin ⟨b.toNat, b.toNat_lt⟩
  rwa [UInt8.ofNat_toNat] at h

theorem shown_singleton_iff (b : UInt8) :
    Shown (String.singleton (Char.ofNat b.toNat)) ↔ ShownOctets [b] := by
  unfold Shown ShownOctets
  simp only [String.toList_singleton, List.mem_singleton, exists_eq_left, octet_iff b]

/-- A class of ASCII characters is met in a decoded text when its octets are. -/
theorem exists_mem_decodeUtf8_iff {P : Char → Prop} {Q : UInt8 → Prop}
    (hPQ : ∀ b : UInt8, P (Char.ofNat b.toNat) ↔ Q b) (hP : ∀ c, P c → c.toNat < 0x80)
    (p : Bytes) : (∃ c ∈ (decodeUtf8 p).toList, P c) ↔ ∃ b ∈ p, Q b := by
  constructor
  · rintro ⟨c, hc, h⟩
    have hlt := hP c h
    refine ⟨UInt8.ofNat c.toNat, (mem_decodeUtf8_iff hlt p).mp hc, (hPQ _).mp ?_⟩
    rwa [uint8_toNat_ofNat (by omega), Char.ofNat_toNat]
  · rintro ⟨b, hb, h⟩
    have hc := (hPQ b).mpr h
    have hb256 := b.toNat_lt
    have hvalue : (Char.ofNat b.toNat).toNat = b.toNat :=
      toNat_ofNat_of_valid (Or.inl (by omega))
    refine ⟨Char.ofNat b.toNat, (mem_decodeUtf8_iff (hP _ hc) p).mpr ?_, hc⟩
    rwa [hvalue, UInt8.ofNat_toNat]

theorem shown_decodeUtf8_iff (p : Bytes) : Shown (decodeUtf8 p) ↔ ShownOctets p := by
  unfold Shown ShownOctets
  rw [exists_mem_decodeUtf8_iff (fun b => (octet_iff b).1),
    exists_mem_decodeUtf8_iff (fun b => (octet_iff b).2)]
  · intro c hc
    simp only [List.mem_cons, List.not_mem_nil, or_false] at hc
    rcases hc with rfl | rfl | rfl | rfl <;> decide
  · intro c hc
    have hle : c.toNat ≤ 32 := of_decide_eq_true hc
    omega

/-! ## OPC UA events -/

/-- The octets of the security policy of an `OPN`, when they are all there. -/
def policyOctets (payload : Bytes) : Bytes :=
  let length := fromLittle (slice payload 12 16)
  if 16 + length ≤ payload.length ∧ length ≠ 0xFFFFFFFF then slice payload 16 (16 + length) else []

/-- The two texts the sender of a message chooses are shown. -/
def ShownPayload (payload : Bytes) : Prop :=
  ShownOctets [payload.getD 3 0] ∧
    (slice payload 0 3 = OpcUa.MessageType.opn.octets → ShownOctets (policyOctets payload))

/-- The text of a value is shown, when it has one. -/
def ShownValue (v : Value) : Prop := ∀ text, v.text? = some text → Shown text

theorem shown_of_word {text : String} (h : IsWord text) : Shown text := by
  rintro ⟨c, hc, hb⟩
  rw [(not_blank_of_word (h.2 c hc)).1] at hb
  cases hb

theorem shownValue_str (text : String) : ShownValue (.str text) ↔ Shown text :=
  ⟨fun h => h text rfl, fun h _ ht => Option.some.inj ht ▸ h⟩

theorem shownValue_nat (n : Nat) : ShownValue (.int n) := by
  rintro t ht
  obtain rfl := Option.some.inj ht
  exact shown_of_word (isWord_toString n)

theorem shown_entries_iff (d : Dict) :
    (∀ entry ∈ entries d, Shown entry.2) ↔ ∀ x ∈ d, ShownValue x.2 := by
  unfold entries ShownValue
  constructor
  · intro h x hx text htext
    exact h (x.1, text) (List.mem_filterMap.mpr ⟨x, hx, by rw [htext]; rfl⟩)
  · intro h entry hentry
    obtain ⟨x, hx, heq⟩ := List.mem_filterMap.mp hentry
    obtain ⟨text, htext, rfl⟩ := Option.map_eq_some_iff.mp heq
    exact h x hx text htext

theorem forall_mem_entry {α : Type} {P : Value → Prop} (key : String) (value : α → Value)
    (o : Option α) : (∀ x ∈ OpcUa.entry key value o, P x.2) ↔ ∀ a, o = some a → P (value a) := by
  cases o with
  | none => exact iff_of_true nofun nofun
  | some a => simp [OpcUa.entry]

theorem isWord_services : ∀ p ∈ OpcUa.requestServices ++ OpcUa.responseServices, IsWord p.2 := by
  decide

theorem isWord_service {payload : Bytes} {e : OpcUa.Event}
    (hdecode : OpcUa.decode payload = .ok (some e)) {s : OpcUa.Service} (hs : e.service = some s) :
    IsWord s.name := by
  obtain ⟨nspace, identifier, hservice⟩ := OpcUa.service_of_decode hdecode hs
  rcases OpcUa.serviceOf_eq_some hservice with ⟨-, hmem⟩ | ⟨-, hmem⟩
  · exact isWord_services _ (List.mem_append_left _ hmem)
  · exact isWord_services _ (List.mem_append_right _ hmem)

/-- Of an event only the chunk octet and the security policy can be chosen so as not to be shown. -/
theorem shown_fields_iff {e : OpcUa.Event} (hs : ∀ s, e.service = some s → IsWord s.name) :
    (∀ x ∈ e.fields, ShownValue x.2) ↔ Shown (String.singleton e.chunkType) ∧
      ∀ s, e.securityPolicyUri = some s → Shown s := by
  have htype : Shown e.messageType.text := shown_of_word (by cases e.messageType <;> decide)
  unfold OpcUa.Event.fields
  simp only [List.forall_mem_append, forall_mem_entry, List.forall_mem_cons, shownValue_str]
  constructor
  · rintro ⟨⟨⟨⟨⟨⟨⟨-, hchunk, -⟩, -⟩, hpolicy⟩, -⟩, -⟩, -⟩, -⟩
    exact ⟨hchunk, hpolicy⟩
  · rintro ⟨hchunk, hpolicy⟩
    refine ⟨⟨⟨⟨⟨⟨⟨htype, hchunk, List.forall_mem_nil _⟩, fun n _ => shownValue_nat n⟩, hpolicy⟩,
      fun n _ => shownValue_nat n⟩, fun n _ => shownValue_nat n⟩, fun n _ => shownValue_nat n⟩, ?_⟩
    cases h : e.service with
    | none => exact List.forall_mem_nil _
    | some s =>
      simp only [List.forall_mem_cons, shownValue_str]
      exact ⟨shownValue_nat _, shown_of_word (hs s h),
        shown_of_word (by cases s.direction <;> decide), List.forall_mem_nil _⟩

/-- The text read from an `OPN` is the one of its policy octets. -/
theorem shown_readString_iff (payload : Bytes) :
    (∀ s, (OpcUa.readString payload 12).1 = some s → Shown s) ↔
      ShownOctets (policyOctets payload) := by
  have hnone : ShownOctets [] := by
    rintro ⟨b, hb, -⟩
    cases hb
  unfold OpcUa.readString policyOctets
  simp only [Nat.reduceAdd]
  generalize hn : fromLittle (slice payload 12 16) = length
  by_cases hlen : payload.length < 16
  · rw [if_pos hlen, if_neg (by omega)]
    exact iff_of_true nofun hnone
  rw [if_neg hlen]
  by_cases hfits : length = 0xFFFFFFFF ∨ payload.length - 16 < length
  · rw [if_pos hfits, if_neg (by omega)]
    exact iff_of_true nofun hnone
  · rw [if_neg hfits, if_pos (by omega), ← shown_decodeUtf8_iff]
    exact ⟨fun h => h _ rfl, fun h s hs => Option.some.inj hs ▸ h⟩

theorem shown_event_iff {payload : Bytes} {e : OpcUa.Event}
    (hdecode : OpcUa.decode payload = .ok (some e)) :
    (∀ x ∈ e.fields, ShownValue x.2) ↔ ShownPayload payload := by
  rw [shown_fields_iff fun s => isWord_service hdecode]
  rw [OpcUa.decode_eq] at hdecode
  split at hdecode
  · cases hdecode
  obtain ⟨t, ht, rfl⟩ := Option.map_eq_some_iff.mp (Except.ok.inj hdecode)
  have hoctets := OpcUa.MessageType.octets_of_ofOctets ht
  unfold ShownPayload
  rw [hoctets, ← shown_singleton_iff, ← shown_readString_iff]
  cases t with
  | opn => exact and_congr_right fun _ => ⟨fun h _ => h, fun h => h rfl⟩
  | msg =>
    unfold OpcUa.eventOf
    dsimp only
    split
    · exact and_congr_right fun _ => iff_of_true nofun fun h => absurd h (by decide)
    · exact and_congr_right fun _ => iff_of_true nofun fun h => absurd h (by decide)
  | _ => exact and_congr_right fun _ => iff_of_true nofun fun h => absurd h (by decide)

/-- A dotted text has no blank. -/
theorem shown_str (x : IPv4) : Shown x.str := by
  have hdigit : ∀ n : UInt8, ∀ c ∈ IPv4.octetChars n, isBlank c = false := by
    intro n c hc
    have hc := Nat.isDigit_of_mem_toDigits (by decide) (by decide) hc
    exact (not_blank_of_word (by simp [isWordChar, Char.isAlphanum, hc])).1
  have hchars : ∀ c ∈ x.chars, isBlank c = false := by
    unfold IPv4.chars
    rw [List.intercalate_cons_cons, List.intercalate_cons_cons, List.intercalate_cons_cons,
      List.intercalate_singleton]
    simp only [List.forall_mem_append, List.forall_mem_singleton]
    exact ⟨⟨hdigit x.a, by decide⟩, ⟨hdigit x.b, by decide⟩, ⟨hdigit x.c, by decide⟩, hdigit x.d⟩
  rintro ⟨c, hc, hb⟩
  rw [IPv4.str, String.toList_ofList] at hc
  rw [hchars c hc] at hb
  cases hb

/-! ## Lines that carry what they were written from -/

theorem carried_opcua_iff {payload : Bytes} {e : OpcUa.Event}
    (hdecode : OpcUa.decode payload = .ok (some e)) (packet : Packet) :
    (Carried e.fields ↔ ShownPayload payload) ∧
      ∀ d ∈ (pushToLoki "opcua" e.fields packet).push?, (Carried d ↔ ShownPayload payload) := by
  have hkeys : ∀ k ∈ OpcUa.Event.keys ++ ["src_ip", "dst_ip"], IsKey k := by decide
  have hfields : ∀ entry ∈ e.fields, IsKey entry.1 := fun entry hentry =>
    hkeys _ (List.mem_append_left _ (e.keys_fields.subset (List.mem_map_of_mem hentry)))
  refine ⟨?_, fun d hd => ?_⟩
  · rw [carried_dict_iff hfields, shown_entries_iff, shown_event_iff hdecode]
  · obtain rfl := Option.some.inj hd
    rw [carried_dict_iff, shown_entries_iff, List.forall_mem_append, shown_event_iff hdecode]
    · simp only [List.forall_mem_cons, shownValue_str, shown_str, List.not_mem_nil, false_imp_iff,
        implies_true, and_true]
    · simp only [List.forall_mem_append, List.forall_mem_cons]
      exact ⟨hfields, hkeys _ (by simp), hkeys _ (by simp), nofun⟩

/--
**A line carries exactly the fields of the dictionary when every text with a blank or a control
character is one that is quoted, and only then.**

For OPC UA these are the chunk octet and the security policy of an `OPN`.
-/
theorem carried_iff (payload : Bytes) (packet : Packet) :
    (∀ d : Dict, (∀ entry ∈ d, IsKey entry.1) →
      (Carried d ↔ ∀ entry ∈ entries d, Shown entry.2)) ∧
    ∀ e : OpcUa.Event, OpcUa.decode payload = .ok (some e) →
      (Carried e.fields ↔ ShownPayload payload) ∧
        ∀ d ∈ (pushToLoki "opcua" e.fields packet).push?, (Carried d ↔ ShownPayload payload) :=
  ⟨fun _ hd => carried_dict_iff hd, fun _ hdecode => carried_opcua_iff hdecode packet⟩

/-- A `HEL` with a tab for its chunk octet. -/
def tabbedHello : Bytes := [0x48, 0x45, 0x4C, 0x09, 0x08, 0, 0, 0]

theorem carried_iff_hello :
    (Carried [("description", .str "HR 0")] ↔ Shown "HR 0") ∧
      (Carried (OpcUa.eventOf .hel tabbedHello).fields ↔ ShownPayload tabbedHello) := by
  have hboth := carried_iff tabbedHello (.segment ⟨172, 23, 0, 20⟩ ⟨172, 21, 0, 50⟩
    ⟨40000, 4840, 24⟩ tabbedHello)
  refine ⟨?_, (hboth.2 _ rfl).1⟩
  rw [hboth.1 [("description", .str "HR 0")] (by decide), shown_entries_iff]
  simp [shownValue_str]

theorem chunk_emptied :
    ¬ ((∀ d : Dict, (∀ entry ∈ d, IsKey entry.1) → Carried d) ∧
      ∀ (payload : Bytes) (e : OpcUa.Event), OpcUa.decode payload = .ok (some e) →
        Carried e.fields) := by
  rintro ⟨-, hall⟩
  have hdecode : OpcUa.decode tabbedHello = .ok (some (OpcUa.eventOf .hel tabbedHello)) := rfl
  have hshown := (carried_opcua_iff hdecode (.segment ⟨172, 23, 0, 20⟩ ⟨172, 21, 0, 50⟩
    ⟨40000, 4840, 24⟩ tabbedHello)).1.mp (hall tabbedHello _ hdecode)
  exact absurd hshown.1 (by decide)

end OtLab.TelemetryLine
