import Mathlib.Data.List.Basic
import OtLab.Py.Bytes

/-!
# Values, dictionaries and JSON

The records the producers build are flat dictionaries; a line of the alert log can decode to
any JSON value. Dictionaries are association lists, looked up from the front.
-/

namespace OtLab

/-- A value of a flat record. -/
inductive Value where
  | none
  | int (n : Int)
  | str (s : String)
deriving DecidableEq, Repr

/-- A flat record, such as an event or an alert. -/
abbrev Dict := List (String × Value)

/-- A float that `json.loads` can return. -/
inductive Double where
  | finite (value : Rat)
  | infinite (negative : Bool)
  | nan
deriving DecidableEq, Repr

/-- What `json.loads` can return, of texts without lone surrogates. -/
inductive Json where
  | null
  | bool (b : Bool)
  | int (n : Int)
  | float (x : Double)
  | str (s : String)
  | arr (l : List Json)
  | obj (d : List (String × Json))

namespace Json

/-- `d.get(key)` of a decoded object: `None` when the key is missing. -/
def get (d : List (String × Json)) (key : String) : Json := (d.lookup key).getD .null

/-- `bool(value)`. -/
def truthy : Json → Bool
  | null => false
  | bool b => b
  | int n => n != 0
  | float x => x != .finite 0
  | str s => s != ""
  | arr l => !l.isEmpty
  | obj d => !d.isEmpty

end Json

/-- What `json.loads` does with a text: `none` is a `JSONDecodeError`. -/
abbrev Loads := String → Py (Option Json)

def Value.toJson : Value → Json
  | .none => .null
  | .int n => .int n
  | .str s => .str s

/-- The object `json.loads` makes of a record that was dumped. -/
def Dict.toJson (d : Dict) : Json := .obj (d.map fun entry => (entry.1, entry.2.toJson))

/-- An entry of a record that was dumped and read back. -/
theorem get_toJson (d : Dict) (key : String) :
    Json.get (d.map fun entry => (entry.1, entry.2.toJson)) key
      = ((d.lookup key).map Value.toJson).getD .null := by
  unfold Json.get
  congr 1
  induction d with
  | nil => rfl
  | cons entry d ih =>
    rw [List.map_cons, List.lookup_cons, List.lookup_cons, ih]
    split <;> rfl

/-- `c.isspace()`. -/
def isSpace (c : Char) : Bool :=
  let n := c.toNat
  (0x09 ≤ n && n ≤ 0x0D) || (0x1C ≤ n && n ≤ 0x1F) || (0x2000 ≤ n && n ≤ 0x200A) ||
    [0x20, 0x85, 0xA0, 0x1680, 0x2028, 0x2029, 0x202F, 0x205F, 0x3000].contains n

/-- `s.strip()`. -/
def strip (s : String) : String :=
  let trimLeft := s.toList.dropWhile isSpace
  String.ofList (trimLeft.reverse.dropWhile isSpace).reverse

/-- A dictionary key: `True` and `False` are equal to `1` and `0` as keys. -/
inductive Key where
  | int (n : Int)
  | str (s : String)
deriving DecidableEq, Repr

end OtLab
