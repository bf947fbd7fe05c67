/-!
# Identifiers

An identifier names one variable of a device. Any 32-bit value may appear on the wire; the
variables most often read have a label for people.
-/

namespace InverterLink

/-- The 32-bit name of a variable of a device. -/
structure Identifier where
  value : UInt32
  deriving DecidableEq

namespace Identifier

/-- The four bytes of an identifier, highest first. -/
def bytes (id : Identifier) : List UInt8 :=
  [(id.value >>> 24).toUInt8, (id.value >>> 16).toUInt8, (id.value >>> 8).toUInt8,
    id.value.toUInt8]

/-- The variable that holds the operating state of the inverter. -/
def inverterState : Identifier := ⟨0x5F33284E⟩

def labels : List (UInt32 × String) := [
  (0xB5317B78, "Solar generator A power [W]"),
  (0xAA9AA253, "Solar generator B power [W]"),
  (0x400F015B, "Battery power [W]"),
  (0xDB2D69AE, "Inverter AC power [W]"),
  (0x4E49AEC5, "Real power [W]"),
  (0x91617C58, "Total grid power [W]"),
  (0x959930BF, "Battery state of charge"),
  (0xB298395D, "Solar generator A voltage [V]"),
  (0x5BB8075A, "Solar generator B voltage [V]"),
  (0xA7FA5C5D, "Battery voltage [V]"),
  (0xB1EF67CE, "Total energy [Wh]"),
  (0xFC724A9E, "Total energy solarGenA [Wh]"),
  (0x68EEFD3D, "Total energy solarGenB [Wh]"),
  (0x5570401B, "Total energy batt in [Wh]"),
  (0xA9033880, "Total energy batt out [Wh]"),
  (0xEFF4B537, "Total energy household [Wh]"),
  (0xA59C8428, "Total energy grid [Wh]"),
  (0x44D4C533, "Total energy grid feed in [Wh]"),
  (0x62FBE7DC, "Total energy grid load [Wh]"),
  (0x5F33284E, "Inverter state"),
  (0xB57B59BD, "Battery capacity [Ah]"),
  (0x902AFAFB, "Battery temperature [°C]"),
  (0x8B9FF008, "Battery SoC target"),
  (0xB84A38AB, "Battery SoC target high"),
  (0xCE266F0F, "Battery SoC target min"),
  (0x8EBF9574, "Battery SoC target min island")]

/-- The label of a well-known variable. -/
def label? (id : Identifier) : Option String := labels.lookup id.value

/-- The label, or a fixed mark for a variable that has none. -/
def caption (id : Identifier) : String := id.label?.getD "#INVALID"

def recordText (id : Identifier) : String := "Identifier(" ++ toString id.value.toNat ++ ")"

end Identifier
end InverterLink
