import Mathlib.Data.List.Basic
import Mathlib.Data.String.Basic

/-!
# Line protocol

InfluxDB's line protocol, read by splitting a line at the separators that are not escaped, for
points whose fields are integers.

* `parse_render_iff` — which points are read back when they are written without escapes
-/

namespace OtLab.Lib.LineProtocol

/-! ## Reading a line -/

/-- The characters that separate the parts of a line unless they are escaped. -/
def IsSeparator (c : Char) : Prop := c = ',' ∨ c = ' ' ∨ c = '='

instance : DecidablePred IsSeparator :=
  fun c => inferInstanceAs (Decidable (c = ',' ∨ c = ' ' ∨ c = '='))

theorem isSeparator_comma : IsSeparator ',' := Or.inl rfl

theorem isSeparator_space : IsSeparator ' ' := Or.inr (Or.inl rfl)

theorem isSeparator_equals : IsSeparator '=' := Or.inr (Or.inr rfl)

/-- A character of a line when the escapes are undone. -/
inductive Symbol where
  | text (c : Char)
  | separator (c : Char)
deriving DecidableEq, Repr

/-- A character that is not escaped. -/
def symbol (c : Char) : Symbol := if IsSeparator c then .separator c else .text c

/-- A backslash before a separator makes it text; any other backslash is text itself. -/
def symbols : List Char → List Symbol
  | [] => []
  | [c] => [symbol c]
  | c :: d :: l =>
    if c = '\\' ∧ IsSeparator d then .text d :: symbols l else symbol c :: symbols (d :: l)

/-- The characters of a piece without separators. -/
def textOf : List Symbol → Option (List Char)
  | [] => some []
  | .text c :: l => (textOf l).map (c :: ·)
  | .separator _ :: _ => none

/-- A measurement, a key or the value of a tag; it is not empty. -/
def piece? (l : List Symbol) : Option String :=
  (textOf l).bind fun cs => if cs = [] then none else some (String.ofList cs)

def natural? (l : List Char) : Option Nat :=
  if l ≠ [] ∧ l.all Char.isDigit then some (Nat.ofDigitChars 10 l 0) else none

def number? (l : List Char) : Option Int :=
  if l.head? = some '-' then (natural? l.tail).map fun n => -n else (natural? l).map fun n => n

/-- The value of an integer field. -/
def integer? (l : List Symbol) : Option Int :=
  (textOf l).bind fun cs => if cs.getLast? = some 'i' then number? cs.dropLast else none

/-- A key and what stands behind the equals sign. -/
def pair? {α : Type} (value? : List Symbol → Option α) (l : List Symbol) : Option (String × α) :=
  match l.splitOn (.separator '=') with
  | [key, value] => (piece? key).bind fun k => (value? value).map fun v => (k, v)
  | _ => none

/-- The measurement and the tags. -/
def series? (l : List Symbol) : Option (String × List (String × String)) :=
  match l.splitOn (.separator ',') with
  | measurement :: tags =>
    (piece? measurement).bind fun m => (tags.mapM (pair? piece?)).map fun ts => (m, ts)
  | [] => none

def fieldSet? (l : List Symbol) : Option (List (String × Int)) :=
  (l.splitOn (.separator ',')).mapM (pair? integer?)

/-- The fields, and the time stamp if there is one. -/
def values? : List (List Symbol) → Option (List (String × Int) × Option Int)
  | [fields] => (fieldSet? fields).map fun fs => (fs, none)
  | [fields, timestamp] =>
    (fieldSet? fields).bind fun fs =>
      ((textOf timestamp).bind number?).map fun t => (fs, some t)
  | _ => none

structure Point where
  measurement : String
  tags : List (String × String)
  fields : List (String × Int)
  timestamp : Option Int
deriving DecidableEq, Repr

/-- Reads a line as one point. A line break ends a point, and blanks in a row count as one. -/
def parse (line : List Char) : Option Point :=
  if '\n' ∈ line then none
  else
    match (symbols line).splitOn (.separator ' ') with
    | head :: rest =>
      (series? head).bind fun (m, tags) =>
        (values? (rest.filter (· ≠ []))).map fun (fields, timestamp) => ⟨m, tags, fields, timestamp⟩
    | [] => none

/-! ## Characters that stand for themselves -/

variable {c d sep : Char} {l rest : List Char} {t : List Symbol}

/-- Characters that stand for themselves wherever they are written. -/
def Plain (l : List Char) : Prop := (∀ c ∈ l, ¬ IsSeparator c) ∧ l.getLast? ≠ some '\\'

instance (l : List Char) : Decidable (Plain l) :=
  @instDecidableAnd _ _ (List.decidableBAll _ _) inferInstance

theorem symbol_of_separator (h : IsSeparator c) : symbol c = .separator c := if_pos h

theorem symbol_of_not_separator (h : ¬ IsSeparator c) : symbol c = .text c := if_neg h

theorem symbols_escaped (h : c = '\\' ∧ IsSeparator d) :
    symbols (c :: d :: l) = .text d :: symbols l := if_pos h

theorem symbols_cons (h : c = '\\' → ∀ d ∈ l.head?, ¬ IsSeparator d) :
    symbols (c :: l) = symbol c :: symbols l := by
  cases l with
  | nil => rfl
  | cons d l => exact if_neg fun hesc => h hesc.1 d rfl hesc.2

theorem backslash_not_separator : ¬ IsSeparator '\\' := by decide

theorem symbols_separator_cons (h : IsSeparator sep) :
    symbols (sep :: l) = .separator sep :: symbols l := by
  rw [symbols_cons, symbol_of_separator h]
  rintro rfl
  exact absurd h backslash_not_separator

theorem plain_nil : Plain [] := by simp [Plain]

theorem plain_cons (hc : ¬ IsSeparator c) (h : l ≠ []) : Plain (c :: l) ↔ Plain l := by
  obtain ⟨d, l, rfl⟩ := List.exists_cons_of_ne_nil h
  unfold Plain
  rw [List.forall_mem_cons (l := d :: l), List.getLast?_cons_cons, and_iff_right hc]

theorem plain_singleton : Plain [c] ↔ ¬ IsSeparator c ∧ c ≠ '\\' := by
  simp [Plain]

/-- Text that stands for itself is read as it is, whatever stands behind it. -/
theorem symbols_append_of_plain (h : Plain l) (rest : List Char) :
    symbols (l ++ rest) = l.map .text ++ symbols rest := by
  induction l with
  | nil => rfl
  | cons c l ih =>
    have hc : ¬ IsSeparator c := h.1 c List.mem_cons_self
    rw [List.cons_append, List.map_cons, List.cons_append]
    cases l with
    | nil =>
      have hbackslash : c ≠ '\\' := (plain_singleton.mp h).2
      rw [symbols_cons (fun heq => absurd heq hbackslash), symbol_of_not_separator hc]
      rfl
    | cons d l =>
      have hl : Plain (d :: l) := (plain_cons hc (List.cons_ne_nil d l)).mp h
      have hd : ∀ e ∈ (d :: l ++ rest).head?, ¬ IsSeparator e := by
        intro e he
        obtain rfl : d = e := Option.some.inj he
        exact hl.1 d List.mem_cons_self
      rw [symbols_cons (fun _ => hd), symbol_of_not_separator hc, ih hl]

/-- Something that begins with a separator. -/
def Separated (l : List Char) : Prop := ∃ sep rest, IsSeparator sep ∧ l = sep :: rest

/-- Text that is read as it is before a separator stands for itself. -/
theorem plain_of_symbols (hrest : Separated rest)
    (h : symbols (l ++ rest) = l.map .text ++ t) : Plain l := by
  induction l with
  | nil => exact plain_nil
  | cons c l ih =>
    rw [List.cons_append, List.map_cons, List.cons_append] at h
    -- what stands behind the character
    obtain ⟨d, next, hnext⟩ : ∃ d next, l ++ rest = d :: next := by
      obtain ⟨sep, rest, -, rfl⟩ := hrest
      exact List.exists_cons_of_ne_nil (List.append_ne_nil_of_right_ne_nil l (List.cons_ne_nil _ _))
    by_cases hesc : c = '\\' ∧ IsSeparator d
    · -- an escaped separator is read without its backslash
      rw [hnext, symbols_escaped hesc] at h
      have hd : d = c := Symbol.text.inj (List.cons.inj h).1
      rw [hd, hesc.1] at hesc
      exact absurd hesc.2 backslash_not_separator
    · rw [symbols_cons] at h
      · have hc : ¬ IsSeparator c := by
          intro hc
          rw [symbol_of_separator hc] at h
          exact Symbol.noConfusion (List.cons.inj h).1
        have hl : Plain l := ih (List.cons.inj h).2
        cases l with
        | nil =>
          obtain ⟨sep, rest, hsep, rfl⟩ := hrest
          obtain rfl : sep = d := (List.cons.inj hnext).1
          exact plain_singleton.mpr ⟨hc, fun heq => hesc ⟨heq, hsep⟩⟩
        | cons e l => exact (plain_cons hc (List.cons_ne_nil e l)).mpr hl
      · rintro heq e he hsep
        rw [hnext] at he
        obtain rfl : d = e := Option.some.inj he
        exact hesc ⟨heq, hsep⟩

/-! ## Pieces and pairs -/

theorem textOf_eq_some_iff {s : List Symbol} {cs : List Char} :
    textOf s = some cs ↔ s = cs.map .text := by
  induction s generalizing cs with
  | nil => cases cs <;> simp [textOf]
  | cons x s ih =>
    cases x with
    | text c => cases cs <;> simp [textOf, ih, and_comm]
    | separator c => cases cs <;> simp [textOf]

theorem textOf_map (cs : List Char) : textOf (cs.map .text) = some cs := textOf_eq_some_iff.mpr rfl

theorem piece?_eq_some_iff {s : List Symbol} {name : String} :
    piece? s = some name ↔ name ≠ "" ∧ s = name.toList.map .text := by
  unfold piece?
  rw [Option.bind_eq_some_iff]
  constructor
  · rintro ⟨cs, hcs, hname⟩
    by_cases hnil : cs = []
    · rw [if_pos hnil] at hname
      cases hname
    · rw [if_neg hnil] at hname
      obtain rfl := Option.some.inj hname
      rw [String.toList_ofList]
      exact ⟨by simpa using hnil, textOf_eq_some_iff.mp hcs⟩
  · rintro ⟨hne, rfl⟩
    refine ⟨name.toList, textOf_map _, ?_⟩
    rw [if_neg (by simpa using hne), String.ofList_toList]

section Readers

variable {α β : Type} {f : α → Option β} {g : β → α} {P : β → Prop} {a : α} {as : List α}
  {bs : List β}

theorem mapM_cons_eq_some_iff : (a :: as).mapM f = some bs ↔
    ∃ b bs', f a = some b ∧ as.mapM f = some bs' ∧ b :: bs' = bs := by
  rw [List.mapM_cons]
  cases f a with
  | none => simp
  | some b => cases as.mapM f <;> simp

/-- A list read by an exact reader of its elements. -/
theorem mapM_eq_some_iff (h : ∀ a b, f a = some b ↔ P b ∧ a = g b) :
    as.mapM f = some bs ↔ (∀ b ∈ bs, P b) ∧ as = bs.map g := by
  induction as generalizing bs with
  | nil => cases bs <;> simp
  | cons a as ih =>
    rw [mapM_cons_eq_some_iff]
    constructor
    · rintro ⟨b, bs, hb, hbs, rfl⟩
      obtain ⟨hP, rfl⟩ := (h a b).mp hb
      obtain ⟨hPs, rfl⟩ := ih.mp hbs
      exact ⟨List.forall_mem_cons.mpr ⟨hP, hPs⟩, rfl⟩
    · rintro ⟨hP, heq⟩
      cases bs with
      | nil => exact absurd heq (List.cons_ne_nil _ _)
      | cons b bs =>
        obtain ⟨rfl, rfl⟩ := List.cons.inj heq
        obtain ⟨hb, hbs⟩ := List.forall_mem_cons.mp hP
        exact ⟨b, bs, (h _ b).mpr ⟨hb, rfl⟩, ih.mpr ⟨hbs, rfl⟩, rfl⟩

/-- A list of elements that a reader gives back. -/
theorem mapM_map_eq_some {γ : Type} {w : γ → α} {v : γ → β} {cs : List γ}
    (h : ∀ c ∈ cs, f (w c) = some (v c)) : (cs.map w).mapM f = some (cs.map v) := by
  induction cs with
  | nil => rfl
  | cons c cs ih =>
    obtain ⟨hc, hcs⟩ := List.forall_mem_cons.mp h
    exact mapM_cons_eq_some_iff.mpr ⟨v c, cs.map v, hc, ih hcs, rfl⟩

end Readers

theorem separator_not_mem_text (c : Char) (l : List Char) :
    Symbol.separator c ∉ l.map Symbol.text := by
  simp

/-- A pair is split at its equals sign. -/
theorem splitOn_pair {c : Char} {key value : List Symbol} (hkey : .separator c ∉ key)
    (hvalue : .separator c ∉ value) :
    (key ++ .separator c :: value).splitOn (.separator c) = [key, value] := by
  rw [List.splitOn_append_cons_self_of_not_mem hkey, List.splitOn_eq_singleton hvalue]

theorem pair?_append {α : Type} {value? : List Symbol → Option α} {key : String} {value : List Char}
    {v : α} (hkey : key ≠ "") (hv : value? (value.map .text) = some v) :
    pair? value? (key.toList.map .text ++ .separator '=' :: value.map .text) = some (key, v) := by
  unfold pair?
  rw [splitOn_pair (separator_not_mem_text _ _) (separator_not_mem_text _ _)]
  dsimp only
  rw [piece?_eq_some_iff.mpr ⟨hkey, rfl⟩, hv]
  rfl

/-- The symbols of a tag. -/
def tagSymbols (tag : String × String) : List Symbol :=
  tag.1.toList.map .text ++ .separator '=' :: tag.2.toList.map .text

theorem pair?_eq_some_iff (s : List Symbol) (tag : String × String) :
    pair? piece? s = some tag ↔ (tag.1 ≠ "" ∧ tag.2 ≠ "") ∧ s = tagSymbols tag := by
  constructor
  · intro h
    have hjoin : [.separator '='].intercalate (s.splitOn (.separator '=')) = s :=
      List.intercalate_splitOn (Symbol.separator '=')
    unfold pair? at h
    split at h
    next key value hsplit =>
      obtain ⟨k, hk, h⟩ := Option.bind_eq_some_iff.mp h
      obtain ⟨v, hv, rfl⟩ := Option.map_eq_some_iff.mp h
      obtain ⟨hkne, rfl⟩ := piece?_eq_some_iff.mp hk
      obtain ⟨hvne, rfl⟩ := piece?_eq_some_iff.mp hv
      rw [hsplit] at hjoin
      exact ⟨⟨hkne, hvne⟩, by simpa [tagSymbols] using hjoin.symm⟩
    next => cases h
  · rintro ⟨⟨hk, hv⟩, rfl⟩
    exact pair?_append hk (piece?_eq_some_iff.mpr ⟨hv, rfl⟩)

/-- The symbols of a measurement and its tags. -/
def seriesSymbols (measurement : String) (tags : List (String × String)) : List Symbol :=
  [.separator ','].intercalate (measurement.toList.map .text :: tags.map tagSymbols)

theorem series?_eq_some_iff {s : List Symbol} {m : String} {tags : List (String × String)} :
    series? s = some (m, tags) ↔
      (m ≠ "" ∧ ∀ tag ∈ tags, tag.1 ≠ "" ∧ tag.2 ≠ "") ∧ s = seriesSymbols m tags := by
  constructor
  · intro h
    have hjoin : [.separator ','].intercalate (s.splitOn (.separator ',')) = s :=
      List.intercalate_splitOn (Symbol.separator ',')
    unfold series? at h
    split at h
    next measurement pieces hsplit =>
      obtain ⟨m', hm, h⟩ := Option.bind_eq_some_iff.mp h
      obtain ⟨tags', htags, heq⟩ := Option.map_eq_some_iff.mp h
      obtain ⟨rfl, rfl⟩ := Prod.mk.inj heq
      obtain ⟨hne, rfl⟩ := piece?_eq_some_iff.mp hm
      -- the pieces, joined again, are the symbols
      obtain ⟨hall, rfl⟩ := (mapM_eq_some_iff pair?_eq_some_iff).mp htags
      rw [hsplit] at hjoin
      exact ⟨⟨hne, hall⟩, hjoin.symm⟩
    next => cases h
  · rintro ⟨⟨hne, htags⟩, rfl⟩
    have hsplit : (seriesSymbols m tags).splitOn (.separator ',')
        = m.toList.map .text :: tags.map tagSymbols := by
      refine List.splitOn_intercalate _ ?_ (List.cons_ne_nil _ _)
      rw [List.forall_mem_cons, List.forall_mem_map]
      refine ⟨separator_not_mem_text _ _, fun tag _ => ?_⟩
      simp [tagSymbols]
    unfold series?
    rw [hsplit]
    dsimp only
    rw [piece?_eq_some_iff.mpr ⟨hne, rfl⟩, (mapM_eq_some_iff pair?_eq_some_iff).mpr ⟨htags, rfl⟩]
    rfl

/-! ## Integer fields -/

/-- The characters of an integer field's value. -/
def integerChars (n : Nat) : List Char := Nat.toDigits 10 n ++ ['i']

theorem isDigit_of_mem_toDigits {n : Nat} (h : c ∈ Nat.toDigits 10 n) : c.isDigit = true :=
  Nat.isDigit_of_mem_toDigits (by decide) (by decide) h

theorem natural?_toDigits (n : Nat) : natural? (Nat.toDigits 10 n) = some n := by
  unfold natural?
  rw [if_pos, Nat.ofDigitChars_toDigits (by decide) (by decide)]
  exact ⟨Nat.toDigits_ne_nil, List.all_eq_true.mpr fun c => isDigit_of_mem_toDigits⟩

theorem number?_toDigits (n : Nat) : number? (Nat.toDigits 10 n) = some (n : Int) := by
  unfold number?
  rw [if_neg, natural?_toDigits]
  · rfl
  · intro h
    exact absurd (isDigit_of_mem_toDigits (List.mem_of_mem_head? h)) (by decide)

theorem integer?_integerChars (n : Nat) :
    integer? ((integerChars n).map .text) = some (n : Int) := by
  unfold integer? integerChars
  rw [textOf_map, Option.bind_some, List.getLast?_concat, if_pos rfl, List.dropLast_concat,
    number?_toDigits]

theorem plain_integerChars (n : Nat) : Plain (integerChars n) := by
  constructor
  · intro c hc
    rcases List.mem_append.mp hc with hc | hc
    · have hdigit := isDigit_of_mem_toDigits hc
      rintro (rfl | rfl | rfl) <;> exact absurd hdigit (by decide)
    · rw [List.mem_singleton.mp hc]
      decide
  · unfold integerChars
    rw [List.getLast?_concat]
    decide

/-- The symbols of a field. -/
def fieldSymbols (field : String × Nat) : List Symbol :=
  field.1.toList.map .text ++ .separator '=' :: (integerChars field.2).map .text

/-- A list of fields is read back when there is one. -/
theorem fieldSet?_intercalate {fields : List (String × Nat)} (hne : fields ≠ [])
    (hkeys : ∀ field ∈ fields, field.1 ≠ "") :
    fieldSet? ([.separator ','].intercalate (fields.map fieldSymbols))
      = some (fields.map fun field => (field.1, (field.2 : Int))) := by
  have hsplit : ([.separator ','].intercalate (fields.map fieldSymbols)).splitOn (.separator ',')
      = fields.map fieldSymbols := by
    refine List.splitOn_intercalate _ ?_ (by simpa using hne)
    rw [List.forall_mem_map]
    intro field _
    simp [fieldSymbols]
  unfold fieldSet?
  rw [hsplit]
  refine mapM_map_eq_some ?_
  intro field hmem
  exact pair?_append (hkeys field hmem) (integer?_integerChars field.2)

/-- A line without fields is no point. -/
theorem ne_nil_of_fieldSet? {s : List Symbol} {fields : List (String × Int)}
    (h : fieldSet? s = some fields) : fields ≠ [] := by
  rintro rfl
  unfold fieldSet? at h
  obtain ⟨p, ps, hsplit⟩ := List.exists_cons_of_ne_nil (List.splitOn_ne_nil (.separator ',') s)
  rw [hsplit] at h
  obtain ⟨b, bs, -, -, hnil⟩ := mapM_cons_eq_some_iff.mp h
  exact absurd hnil (List.cons_ne_nil b bs)

theorem ne_nil_of_values? {pieces : List (List Symbol)} {fields : List (String × Int)}
    {timestamp : Option Int} (h : values? pieces = some (fields, timestamp)) : fields ≠ [] := by
  unfold values? at h
  split at h
  next =>
    obtain ⟨fs, hfs, heq⟩ := Option.map_eq_some_iff.mp h
    obtain ⟨rfl, -⟩ := Prod.mk.inj heq
    exact ne_nil_of_fieldSet? hfs
  next =>
    obtain ⟨fs, hfs, h⟩ := Option.bind_eq_some_iff.mp h
    obtain ⟨t, -, heq⟩ := Option.map_eq_some_iff.mp h
    obtain ⟨rfl, -⟩ := Prod.mk.inj heq
    exact ne_nil_of_fieldSet? hfs
  next => cases h

/-! ## Whole lines -/

variable {line : List Char} {m : String} {tags : List (String × String)}
  {fields : List (String × Nat)}

/-- What a line that is read as a point consists of. -/
theorem symbols_of_parse {p : Point} (h : parse line = some p) :
    '\n' ∉ line ∧ (∀ tag ∈ p.tags, tag.1 ≠ "" ∧ tag.2 ≠ "") ∧ p.fields ≠ [] ∧
      ∃ body, symbols line = seriesSymbols p.measurement p.tags ++ .separator ' ' :: body := by
  have hjoin : [.separator ' '].intercalate ((symbols line).splitOn (.separator ' '))
      = symbols line := List.intercalate_splitOn (Symbol.separator ' ')
  unfold parse at h
  split at h
  · cases h
  next hline =>
  split at h
  next head rest hsplit =>
    obtain ⟨⟨m, tags⟩, hseries, h⟩ := Option.bind_eq_some_iff.mp h
    obtain ⟨⟨fields, timestamp⟩, hvalues, rfl⟩ := Option.map_eq_some_iff.mp h
    obtain ⟨⟨-, htags⟩, rfl⟩ := series?_eq_some_iff.mp hseries
    have hrest : rest ≠ [] := by
      rintro rfl
      cases hvalues
    rw [hsplit, List.intercalate_cons_of_ne_nil hrest, List.append_assoc] at hjoin
    exact ⟨hline, htags, ne_nil_of_values? hvalues, _, hjoin.symm⟩
  next => cases h

theorem parse_of_symbols {head body : List Symbol} {fields : List (String × Int)}
    (hline : '\n' ∉ line) (h : symbols line = head ++ .separator ' ' :: body)
    (hhead : .separator ' ' ∉ head) (hbody : .separator ' ' ∉ body) (hne : body ≠ [])
    (hseries : series? head = some (m, tags)) (hfields : fieldSet? body = some fields) :
    parse line = some ⟨m, tags, fields, none⟩ := by
  -- one blank separates the two parts, so nothing is dropped
  have hfilter : [body].filter (· ≠ []) = [body] := by simp [hne]
  unfold parse
  rw [if_neg hline, h, splitOn_pair hhead hbody]
  dsimp only
  rw [hseries, hfilter, values?, hfields]
  rfl

/-! ## Writing without escapes -/

def tagChars (tag : String × String) : List Char := tag.1.toList ++ '=' :: tag.2.toList

def fieldChars (field : String × Nat) : List Char :=
  field.1.toList ++ '=' :: integerChars field.2

/-- A point written as it is. -/
def render (m : String) (tags : List (String × String)) (fields : List (String × Nat)) :
    List Char :=
  m.toList ++ (tags.flatMap (fun tag => ',' :: tagChars tag)
    ++ ' ' :: [','].intercalate (fields.map fieldChars))

/-- A name that stands for itself in a line. -/
def IsName (name : String) : Prop := name ≠ "" ∧ Plain name.toList ∧ '\n' ∉ name.toList

instance (name : String) : Decidable (IsName name) :=
  inferInstanceAs (Decidable (name ≠ "" ∧ Plain name.toList ∧ '\n' ∉ name.toList))

theorem intercalate_cons_eq_flatMap {α : Type} (x : α) (l : List α) (ls : List (List α)) :
    [x].intercalate (l :: ls) = l ++ ls.flatMap fun l' => x :: l' := by
  induction ls generalizing l with
  | nil => simp
  | cons l' ls ih => rw [List.intercalate_cons_cons, ih, List.flatMap_cons, List.append_assoc]; rfl

theorem seriesSymbols_eq : seriesSymbols m tags
    = m.toList.map .text ++ tags.flatMap fun tag => .separator ',' :: tagSymbols tag := by
  unfold seriesSymbols
  rw [intercalate_cons_eq_flatMap, List.flatMap_map]

theorem symbols_tagChars {tag : String × String} (hkey : Plain tag.1.toList)
    (rest : List Char) : symbols (',' :: tagChars tag ++ rest)
      = .separator ',' :: (tag.1.toList.map .text
        ++ .separator '=' :: symbols (tag.2.toList ++ rest)) := by
  unfold tagChars
  rw [List.cons_append, symbols_separator_cons isSeparator_comma, List.append_assoc,
    symbols_append_of_plain hkey, List.cons_append, symbols_separator_cons isSeparator_equals]

theorem symbols_tags (hkeys : ∀ tag ∈ tags, Plain tag.1.toList)
    (hvalues : ∀ tag ∈ tags, Plain tag.2.toList) (rest : List Char) :
    symbols (tags.flatMap (fun tag => ',' :: tagChars tag) ++ rest)
      = tags.flatMap (fun tag => .separator ',' :: tagSymbols tag) ++ symbols rest := by
  induction tags with
  | nil => rfl
  | cons tag tags ih =>
    obtain ⟨hkey, hkeys⟩ := List.forall_mem_cons.mp hkeys
    obtain ⟨hvalue, hvalues⟩ := List.forall_mem_cons.mp hvalues
    rw [List.flatMap_cons, List.flatMap_cons, List.append_assoc, symbols_tagChars hkey,
      symbols_append_of_plain hvalue, ih hkeys hvalues]
    simp [tagSymbols]

theorem separated_tags (hrest : Separated rest) :
    Separated (tags.flatMap (fun tag => ',' :: tagChars tag) ++ rest) := by
  cases tags with
  | nil => exact hrest
  | cons tag tags => exact ⟨',', _, isSeparator_comma, rfl⟩

/-- Values that are read as they are stand for themselves. -/
theorem plain_of_symbols_tags (hkeys : ∀ tag ∈ tags, Plain tag.1.toList) (hrest : Separated rest)
    (h : symbols (tags.flatMap (fun tag => ',' :: tagChars tag) ++ rest)
      = tags.flatMap (fun tag => .separator ',' :: tagSymbols tag) ++ t) :
    ∀ tag ∈ tags, Plain tag.2.toList := by
  induction tags with
  | nil => exact List.forall_mem_nil _
  | cons tag tags ih =>
    obtain ⟨hkey, hkeys⟩ := List.forall_mem_cons.mp hkeys
    rw [List.flatMap_cons, List.flatMap_cons, List.append_assoc, symbols_tagChars hkey,
      tagSymbols] at h
    simp only [List.cons_append, List.append_assoc, List.cons.injEq, true_and,
      List.append_cancel_left_eq] at h
    have hvalue := plain_of_symbols (separated_tags hrest) h
    rw [symbols_append_of_plain hvalue, List.append_cancel_left_eq] at h
    exact List.forall_mem_cons.mpr ⟨hvalue, ih hkeys h⟩

theorem symbols_fields (hkeys : ∀ field ∈ fields, Plain field.1.toList) :
    symbols ([','].intercalate (fields.map fieldChars))
      = [.separator ','].intercalate (fields.map fieldSymbols) := by
  have hfield : ∀ field ∈ fields, ∀ rest,
      symbols (fieldChars field ++ rest) = fieldSymbols field ++ symbols rest := by
    intro field hmem rest
    unfold fieldChars fieldSymbols
    rw [List.append_assoc, symbols_append_of_plain (hkeys field hmem), List.cons_append,
      symbols_separator_cons isSeparator_equals, symbols_append_of_plain (plain_integerChars _),
      List.append_assoc, List.cons_append]
  clear hkeys
  induction fields with
  | nil => rfl
  | cons field fields ih =>
    obtain ⟨hfirst, hfield⟩ := List.forall_mem_cons.mp hfield
    cases fields with
    | nil => simpa [symbols] using hfirst []
    | cons next fields =>
      have hrest := ih hfield
      simp only [List.map_cons] at hrest ⊢
      rw [List.intercalate_cons_cons, List.intercalate_cons_cons, List.append_assoc, hfirst,
        List.singleton_append, symbols_separator_cons isSeparator_comma, hrest, List.append_assoc,
        List.singleton_append]

theorem oneLine_integerChars (n : Nat) : '\n' ∉ integerChars n := by
  intro h
  rcases List.mem_append.mp h with h | h
  · exact absurd (isDigit_of_mem_toDigits h) (by decide)
  · exact absurd (List.mem_singleton.mp h) (by decide)

/-- A line of names has no line break. -/
theorem oneLine_render (hm : IsName m) (hkeys : ∀ tag ∈ tags, IsName tag.1)
    (hvalues : ∀ tag ∈ tags, IsName tag.2) (hfields : ∀ field ∈ fields, IsName field.1) :
    '\n' ∉ render m tags fields := by
  have htags : '\n' ∉ tags.flatMap fun tag => ',' :: tagChars tag := by
    rw [List.mem_flatMap]
    rintro ⟨tag, hmem, h⟩
    have hkey := (hkeys tag hmem).2.2
    have hvalue := (hvalues tag hmem).2.2
    simp [tagChars, hkey, hvalue] at h
  have hset : '\n' ∉ [','].intercalate (fields.map fieldChars) := by
    cases fields with
    | nil => exact List.not_mem_nil
    | cons field fields =>
      have hfield : ∀ f ∈ field :: fields, '\n' ∉ fieldChars f := by
        intro f hmem
        simp [fieldChars, (hfields f hmem).2.2, oneLine_integerChars]
      rw [List.map_cons, intercalate_cons_eq_flatMap, List.mem_append, List.mem_flatMap]
      rintro (h | ⟨cs, hcs, h⟩)
      · exact hfield field List.mem_cons_self h
      · obtain ⟨f, hmem, rfl⟩ := List.mem_map.mp hcs
        exact hfield f (List.mem_cons_of_mem _ hmem) (by simpa using h)
  simp [render, hm.2.2, htags, hset]

theorem fields_ne_nil (hne : fields ≠ []) :
    [Symbol.separator ','].intercalate (fields.map fieldSymbols) ≠ [] := by
  obtain ⟨field, fields, rfl⟩ := List.exists_cons_of_ne_nil hne
  rw [List.map_cons, intercalate_cons_eq_flatMap, fieldSymbols]
  simp

theorem space_not_mem_fields :
    Symbol.separator ' ' ∉ [Symbol.separator ','].intercalate (fields.map fieldSymbols) := by
  cases fields with
  | nil => exact List.not_mem_nil
  | cons field fields =>
    rw [List.map_cons, intercalate_cons_eq_flatMap]
    simp [fieldSymbols]

theorem space_not_mem_series : Symbol.separator ' ' ∉ seriesSymbols m tags := by
  rw [seriesSymbols_eq]
  simp [tagSymbols]

/--
**A point written without escapes is read back exactly when every tag value stands for itself and
there is a field.**

The measurement and the keys are names.
-/
theorem parse_render_iff (hm : IsName m) (hkeys : ∀ tag ∈ tags, IsName tag.1)
    (hfields : ∀ field ∈ fields, IsName field.1) :
    parse (render m tags fields)
        = some ⟨m, tags, fields.map fun field => (field.1, (field.2 : Int)), none⟩ ↔
      (∀ tag ∈ tags, IsName tag.2) ∧ fields ≠ [] := by
  have hplain : ∀ tag ∈ tags, Plain tag.1.toList := fun tag hmem => (hkeys tag hmem).2.1
  constructor
  · -- the symbols of the line tell what every value was read as
    intro h
    obtain ⟨hline, hnonempty, hne, body, hsymbols⟩ := symbols_of_parse h
    refine ⟨fun tag hmem => ⟨(hnonempty tag hmem).2, ?_, ?_⟩, by simpa using hne⟩
    · rw [render, symbols_append_of_plain hm.2.1, seriesSymbols_eq, List.append_assoc,
        List.append_cancel_left_eq] at hsymbols
      exact plain_of_symbols_tags hplain ⟨' ', _, isSeparator_space, rfl⟩ hsymbols tag hmem
    · intro hbreak
      refine hline (List.mem_append_right _ (List.mem_append_left _ ?_))
      exact List.mem_flatMap.mpr ⟨tag, hmem, by simp [tagChars, hbreak]⟩
  · rintro ⟨hvalues, hne⟩
    have hseries : series? (seriesSymbols m tags) = some (m, tags) :=
      series?_eq_some_iff.mpr
        ⟨⟨hm.1, fun tag hmem => ⟨(hkeys tag hmem).1, (hvalues tag hmem).1⟩⟩, rfl⟩
    refine parse_of_symbols (oneLine_render hm hkeys hvalues hfields) ?_ space_not_mem_series
      space_not_mem_fields (fields_ne_nil hne) hseries
      (fieldSet?_intercalate hne fun field hmem => (hfields field hmem).1)
    rw [render, symbols_append_of_plain hm.2.1,
      symbols_tags hplain (fun tag hmem => (hvalues tag hmem).2.1),
      symbols_separator_cons isSeparator_space,
      symbols_fields (fun field hmem => (hfields field hmem).2.1), seriesSymbols_eq,
      List.append_assoc]

end OtLab.Lib.LineProtocol
