import Mathlib.Algebra.Order.Ring.Rat
import OtLab.Otdpi.Logfmt

/-!
# The SIEM rules

The DNP3, S7comm and OPC UA rules in `siem/rules`. Their LogQL expressions select the lines of
every job, parse them as logfmt and filter on labels; what is done with the lines that are left is
the same in all of them. Loki is a parameter, with what its documentation says of the stages used.

* `fires_iff` — a rule reads four labels, and never which service a line is about
-/

namespace OtLab.Siem

open Logfmt

/-! ## LogQL -/

/-- The parts of Loki an expression uses: the `logfmt` stage, regular expressions and numbers. -/
structure Loki where
  labels : String → String → Option String
  isMatch : String → String → Bool
  parseFloat : String → Option ℚ

/-- A text without its case. -/
def foldCase (s : String) : List Char := s.toList.map Char.toLower

/-- What the documentation says of words and numbers. -/
structure Loki.Documented (L : Loki) : Prop where
  reads : Reads L.labels
  ignoresCase : ∀ word text, IsWord word → IsWord text →
    L.isMatch ("(?i)^" ++ word ++ "$") text = decide (foldCase text = foldCase word)
  anyText : ∀ text, IsWord text → L.isMatch ".+" text = true
  number : ∀ n : Nat, L.parseFloat (toString n) = some (n : ℚ)

inductive LabelFilter where
  /-- ``label=~`pattern` `` -/
  | regex (label pattern : String)
  /-- `label=n` -/
  | equal (label : String) (n : Nat)
  /-- `label!=n` -/
  | notEqual (label : String) (n : Nat)
deriving DecidableEq

def LabelFilter.label : LabelFilter → String
  | regex label _ => label
  | equal label _ => label
  | notEqual label _ => label

/-- The filter on the value of its label; a value that is no number passes with `__error__`. -/
def LabelFilter.accepts (L : Loki) (text : String) : LabelFilter → Bool
  | regex _ pattern => L.isMatch pattern text
  | equal _ n => (L.parseFloat text).all fun x => x = (n : ℚ)
  | notEqual _ n => (L.parseFloat text).all fun x => x ≠ (n : ℚ)

/-- No filter matches on an absent label. -/
def LabelFilter.eval (L : Loki) (labels : String → Option String) (f : LabelFilter) : Bool :=
  (labels f.label).any fun text => f.accepts L text

/-- A rule by its alert and the filters of its expression, joined by `and`, each by `or`. -/
structure Rule where
  alert : String
  filters : List (List LabelFilter)

/-- The expression of a rule matches a line of a job. -/
def Rule.fires (L : Loki) (r : Rule) (job line : String) : Bool :=
  L.isMatch ".+" job
    && r.filters.all fun alternatives => alternatives.any fun f => f.eval L (L.labels line)

/-! ## The rules -/

/-- Every rule begins with ``direction=~`(?i)^request$` ``. -/
def onRequest (alert : String) (filters : List (List LabelFilter)) : Rule :=
  ⟨alert, [.regex "direction" "(?i)^request$"] :: filters⟩

def functionCodes (codes : List Nat) : List LabelFilter := codes.map (.equal "function_code")

def services (names : List String) : List LabelFilter :=
  names.map fun name => .regex "opcua_service" ("(?i)^" ++ name ++ "$")

def dnp3UnauthorizedControl : Rule :=
  onRequest "DNP3_Control_Operation_From_Unauthorized_Master"
    [functionCodes [3, 4, 5, 6], [.notEqual "link_source" 1], [.notEqual "link_source" 2]]

def dnp3RestartCommand : Rule :=
  onRequest "DNP3_Cold_Or_Warm_Restart_Command" [functionCodes [13, 14]]

def dnp3UnsolicitedDisabled : Rule :=
  onRequest "DNP3_Unsolicited_Responses_Disabled" [functionCodes [21]]

def s7commProgramDownload : Rule :=
  onRequest "S7comm_Program_Download" [functionCodes [26, 27, 28]]

def s7commProgramUpload : Rule :=
  onRequest "S7comm_Program_Upload" [functionCodes [29, 30, 31]]

def s7commChangeOperatingMode : Rule :=
  onRequest "S7comm_PLC_Control_Or_Stop" [functionCodes [40, 41]]

def opcuaBrowseRequest : Rule :=
  onRequest "OPC_UA_Address_Space_Browse" [services ["BrowseRequest", "BrowseNextRequest"]]

def opcuaWriteRequest : Rule :=
  onRequest "OPC_UA_Write_Request" [services ["WriteRequest"]]

def opcuaMethodCall : Rule :=
  onRequest "OPC_UA_Method_Call_Request" [services ["CallRequest"]]

/-- What both the rules and the producers detect. -/
inductive Detection where
  | unauthorizedControl
  | restartCommand
  | unsolicitedDisabled
  | programDownload
  | programUpload
  | changeOperatingMode
  | browseRequest
  | writeRequest
  | methodCall
deriving DecidableEq, Repr

def Detection.rule : Detection → Rule
  | unauthorizedControl => dnp3UnauthorizedControl
  | restartCommand => dnp3RestartCommand
  | unsolicitedDisabled => dnp3UnsolicitedDisabled
  | programDownload => s7commProgramDownload
  | programUpload => s7commProgramUpload
  | changeOperatingMode => s7commChangeOperatingMode
  | browseRequest => opcuaBrowseRequest
  | writeRequest => opcuaWriteRequest
  | methodCall => opcuaMethodCall

/-- The alert type of the evidence log that corresponds to the rule. -/
def Detection.alertType : Detection → String
  | unauthorizedControl => "DNP3_UNAUTHORIZED_CONTROL"
  | restartCommand => "DNP3_RESTART_COMMAND"
  | unsolicitedDisabled => "DNP3_UNSOLICITED_DISABLED"
  | programDownload => "S7COMM_PROGRAM_DOWNLOAD"
  | programUpload => "S7COMM_PROGRAM_UPLOAD"
  | changeOperatingMode => "S7COMM_CHANGE_OPERATING_MODE"
  | browseRequest => "OPCUA_BROWSE_REQUEST"
  | writeRequest => "OPCUA_WRITE_REQUEST"
  | methodCall => "OPCUA_METHOD_CALL"

/-- The service a rule is about, as the producers label their streams. -/
def Detection.service : Detection → String
  | unauthorizedControl | restartCommand | unsolicitedDisabled => "dnp3"
  | programDownload | programUpload | changeOperatingMode => "s7comm"
  | browseRequest | writeRequest | methodCall => "opcua"

theorem Detection.alertType_injective : Function.Injective Detection.alertType := by
  intro a b h
  cases a <;> cases b <;> first | rfl | exact absurd h (by decide)

/-! ## What the rules see of a line -/

/-- The values of the four labels the rules look at. -/
structure Line where
  direction : Option Direction
  functionCode : Option Nat
  linkSource : Option Nat
  service : Option String

/-- The labels that are read carry the values. -/
structure Line.Shows (line : Line) (labels : String → Option String) : Prop where
  direction : labels "direction" = line.direction.map Direction.text
  functionCode : labels "function_code" = line.functionCode.map toString
  linkSource : labels "link_source" = line.linkSource.map toString
  service : labels "opcua_service" = line.service
  isWord : ∀ s ∈ line.service, IsWord s

theorem isWord_text (d : Direction) : IsWord d.text := by
  cases d <;> decide

/-- Loki shows of a record what its four entries say. -/
theorem Line.Shows.of_lookup {L : Loki} (hL : L.Documented) {d : Dict} (hd : PlainKeys d)
    {line : Line}
    (hdirection : (d.lookup "direction").bind Value.text? = line.direction.map Direction.text)
    (hcode : (d.lookup "function_code").bind Value.text? = line.functionCode.map toString)
    (hsource : (d.lookup "link_source").bind Value.text? = line.linkSource.map toString)
    (hservice : (d.lookup "opcua_service").bind Value.text? = line.service)
    (hword : ∀ s ∈ line.service, IsWord s) :
    line.Shows (L.labels (Common.logfmt d)) := by
  have hnumber : ∀ value : Option Nat, ∀ t ∈ value.map toString, IsWord t := by
    intro value t ht
    obtain ⟨n, -, rfl⟩ := Option.mem_map.mp ht
    exact isWord_toString n
  refine ⟨hL.reads.labels_eq hd hdirection fun t ht => ?_,
    hL.reads.labels_eq hd hcode (hnumber _), hL.reads.labels_eq hd hsource (hnumber _),
    hL.reads.labels_eq hd hservice hword, hword⟩
  obtain ⟨direction, -, rfl⟩ := Option.mem_map.mp ht
  exact isWord_text direction

/-- The rule of a detection, in terms of the values. -/
def Line.Triggers (line : Line) (d : Detection) : Prop :=
  line.direction = some .request ∧
    match d with
    | .unauthorizedControl => (∃ code ∈ line.functionCode, code ∈ [3, 4, 5, 6]) ∧
        ∃ source ∈ line.linkSource, source ≠ 1 ∧ source ≠ 2
    | .restartCommand => ∃ code ∈ line.functionCode, code ∈ [13, 14]
    | .unsolicitedDisabled => ∃ code ∈ line.functionCode, code ∈ [21]
    | .programDownload => ∃ code ∈ line.functionCode, code ∈ [26, 27, 28]
    | .programUpload => ∃ code ∈ line.functionCode, code ∈ [29, 30, 31]
    | .changeOperatingMode => ∃ code ∈ line.functionCode, code ∈ [40, 41]
    | .browseRequest => ∃ s ∈ line.service,
        foldCase s = foldCase "BrowseRequest" ∨ foldCase s = foldCase "BrowseNextRequest"
    | .writeRequest => ∃ s ∈ line.service, foldCase s = foldCase "WriteRequest"
    | .methodCall => ∃ s ∈ line.service, foldCase s = foldCase "CallRequest"

variable {L : Loki} {labels : String → Option String} {line : Line}

theorem eval_request (hL : L.Documented) (h : line.Shows labels) :
    (LabelFilter.regex "direction" "(?i)^request$").eval L labels = true ↔
      line.direction = some .request := by
  have hpattern : "(?i)^request$" = "(?i)^" ++ "request" ++ "$" := by decide
  show (labels "direction").any (fun text => L.isMatch "(?i)^request$" text) = true ↔ _
  rw [h.direction, hpattern]
  cases line.direction with
  | none => simp
  | some d =>
    rw [Option.map_some, Option.any_some,
      hL.ignoresCase "request" d.text (by decide) (isWord_text d)]
    cases d <;> decide

theorem eval_equal (hL : L.Documented) {label : String} {value : Option Nat}
    (h : labels label = value.map toString) (n : Nat) :
    (LabelFilter.equal label n).eval L labels = true ↔ value = some n := by
  show (labels label).any (fun text => (L.parseFloat text).all fun x => x = (n : ℚ)) = true ↔ _
  rw [h]
  cases value with
  | none => simp
  | some m =>
    rw [Option.map_some, Option.any_some, hL.number, Option.all_some, decide_eq_true_eq,
      Nat.cast_inj, Option.some.injEq]

theorem eval_notEqual (hL : L.Documented) {label : String} {value : Option Nat}
    (h : labels label = value.map toString) (n : Nat) :
    (LabelFilter.notEqual label n).eval L labels = true ↔ ∃ m ∈ value, m ≠ n := by
  show (labels label).any (fun text => (L.parseFloat text).all fun x => x ≠ (n : ℚ)) = true ↔ _
  rw [h]
  cases value with
  | none => simp
  | some m =>
    rw [Option.map_some, Option.any_some, hL.number, Option.all_some, decide_eq_true_eq,
      ne_eq, Nat.cast_inj]
    simp

theorem eval_service (hL : L.Documented) (h : line.Shows labels) {name : String}
    (hname : IsWord name) :
    (LabelFilter.regex "opcua_service" ("(?i)^" ++ name ++ "$")).eval L labels = true ↔
      ∃ s ∈ line.service, foldCase s = foldCase name := by
  have hword := h.isWord
  show (labels "opcua_service").any (fun text => L.isMatch _ text) = true ↔ _
  rw [h.service]
  cases hs : line.service with
  | none => simp
  | some s => simp [hL.ignoresCase name s hname (hword s hs)]

theorem exists_functionCodes (hL : L.Documented) (h : line.Shows labels) (codes : List Nat) :
    (∃ f ∈ functionCodes codes, f.eval L labels = true) ↔
      ∃ code ∈ line.functionCode, code ∈ codes := by
  constructor
  · rintro ⟨f, hf, he⟩
    obtain ⟨n, hn, rfl⟩ := List.mem_map.mp hf
    exact ⟨n, (eval_equal hL h.functionCode n).mp he, hn⟩
  · rintro ⟨n, hcode, hn⟩
    exact ⟨_, List.mem_map_of_mem hn, (eval_equal hL h.functionCode n).mpr hcode⟩

theorem exists_services (hL : L.Documented) (h : line.Shows labels) {names : List String}
    (hnames : ∀ name ∈ names, IsWord name) :
    (∃ f ∈ services names, f.eval L labels = true) ↔
      ∃ s ∈ line.service, ∃ name ∈ names, foldCase s = foldCase name := by
  constructor
  · rintro ⟨f, hf, he⟩
    obtain ⟨name, hn, rfl⟩ := List.mem_map.mp hf
    obtain ⟨s, hs, heq⟩ := (eval_service hL h (hnames name hn)).mp he
    exact ⟨s, hs, name, hn, heq⟩
  · rintro ⟨s, hs, name, hn, heq⟩
    refine ⟨_, List.mem_map_of_mem hn, ?_⟩
    exact (eval_service hL h (hnames name hn)).mpr ⟨s, hs, heq⟩

/-- A rule on requests. -/
theorem fires_onRequest (hL : L.Documented) {job text : String} (hjob : IsWord job)
    (h : line.Shows (L.labels text)) (alert : String) (filters : List (List LabelFilter)) :
    (onRequest alert filters).fires L job text = true ↔
      line.direction = some .request ∧
        ∀ alternatives ∈ filters, ∃ f ∈ alternatives, f.eval L (L.labels text) = true := by
  unfold Rule.fires onRequest
  simp only [hL.anyText job hjob, Bool.true_and, List.all_cons, Bool.and_eq_true, List.any_cons,
    List.any_nil, Bool.or_false, eval_request hL h, List.all_eq_true, List.any_eq_true]

/-- **A rule fires on what its line shows, whatever service the line is about.** -/
theorem fires_iff (hL : L.Documented) {job text : String} (hjob : IsWord job)
    (h : line.Shows (L.labels text)) (d : Detection) :
    d.rule.fires L job text = true ↔ line.Triggers d := by
  unfold Line.Triggers
  cases d
  case unauthorizedControl =>
    refine (fires_onRequest hL hjob h _ _).trans (and_congr_right fun _ => ?_)
    simp only [List.forall_mem_cons, exists_functionCodes hL h, List.mem_singleton,
      exists_eq_left, forall_eq, eval_notEqual hL h.linkSource]
    cases line.linkSource with
    | none => simp
    | some source => simp
  case browseRequest | writeRequest | methodCall =>
    refine (fires_onRequest hL hjob h _ _).trans (and_congr_right fun _ => ?_)
    rw [List.forall_mem_singleton, exists_services hL h (by decide)]
    simp
  all_goals
    refine (fires_onRequest hL hjob h _ _).trans (and_congr_right fun _ => ?_)
    rw [List.forall_mem_singleton, exists_functionCodes hL h]

end OtLab.Siem
