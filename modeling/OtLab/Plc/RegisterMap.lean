import OtLab.Plc.Intake

/-!
# The register map

`plc/register-map.md`: which holding registers of a controller a Modbus client may write. The
controllers share the events of `OtLab.Plc.Intake`, scans and Modbus writes.
-/

namespace OtLab.RegisterMap

open Intake (Event)

/-- The column "Access" of the map. -/
inductive Access where
  | rw
  | ro
deriving DecidableEq, Repr

/-- The rows of one controller: holding register, name and access. -/
structure Row where
  register : Nat
  name : String
  access : Access
deriving DecidableEq, Repr

/-- Intake, PLC-01. -/
def intake : List Row :=
  [⟨0, "Inlet valve command", .rw⟩, ⟨1, "Intake pump speed", .rw⟩, ⟨5, "Tank level", .ro⟩,
    ⟨6, "Overflow interlock", .ro⟩]

/-- Treatment, PLC-02. -/
def treatment : List Row :=
  [⟨0, "Inlet flow", .ro⟩, ⟨1, "Dosing pump", .rw⟩, ⟨2, "Dosing rate", .rw⟩,
    ⟨5, "Residual chlorine", .ro⟩, ⟨6, "Dosing alarm", .ro⟩]

/-- Distribution, PLC-03. -/
def distribution : List Row :=
  [⟨0, "Distribution pump", .rw⟩, ⟨1, "Discharge pressure", .ro⟩, ⟨2, "Pump speed", .rw⟩,
    ⟨5, "Pump runtime", .ro⟩, ⟨6, "Pressure alarm", .ro⟩]

/-- The map marks the register RW. -/
def Writable (map : List Row) (register : Nat) : Prop :=
  ∃ row ∈ map, row.register = register ∧ row.access = .rw

instance (map : List Row) (register : Nat) : Decidable (Writable map register) :=
  List.decidableBEx _ map

/-- Clients write only what the map marks RW. -/
def Permitted (map : List Row) : Event → Prop
  | .write register _ => Writable map register
  | .scan => True

instance (map : List Row) : DecidablePred (Permitted map)
  | .write register _ => inferInstanceAs (Decidable (Writable map register))
  | .scan => inferInstanceAs (Decidable True)

theorem writable_intake {register : Nat} :
    Writable intake register ↔ register = 0 ∨ register = 1 := by
  simp [Writable, intake, eq_comm]

theorem writable_treatment {register : Nat} :
    Writable treatment register ↔ register = 1 ∨ register = 2 := by
  simp [Writable, treatment, eq_comm]

theorem writable_distribution {register : Nat} :
    Writable distribution register ↔ register = 0 ∨ register = 2 := by
  simp [Writable, distribution, eq_comm]

end OtLab.RegisterMap
