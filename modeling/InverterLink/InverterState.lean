import InverterLink.LinkError

/-!
# Operating states

The states that an inverter reports, numbered from zero without gaps.
-/

namespace InverterLink

inductive InverterState where
  | standby
  | initialization
  | standby2
  | efficiency
  | insulationCheck
  | islandCheck
  | powerCheck
  | symmetry
  | relayTest
  | gridPassive
  | prepareBattPassive
  | battPassive
  | hwCheck
  | feedIn
  deriving DecidableEq

namespace InverterState

/-- Every state, at the place of its number. -/
def all : List InverterState :=
  [standby, initialization, standby2, efficiency, insulationCheck, islandCheck, powerCheck,
    symmetry, relayTest, gridPassive, prepareBattPassive, battPassive, hwCheck, feedIn]

def number (s : InverterState) : Nat := all.idxOf s

def ofByte (b : UInt8) : LinkResult InverterState :=
  match all[b.toNat]? with
  | some s => .ok s
  | none => .error (.invalidData ("Unknown inverter state: " ++ toString b.toNat))

/-- The description of a state for people. -/
def description : InverterState → String
  | standby => "Standby"
  | initialization => "Initialization"
  | standby2 => "Standby2"
  | efficiency => "Efficiency"
  | insulationCheck => "Insulation check"
  | islandCheck => "Island check"
  | powerCheck => "Power check"
  | symmetry => "Symmetry"
  | relayTest => "Relay test"
  | gridPassive => "Grid passive"
  | prepareBattPassive => "Prepare battery passive"
  | battPassive => "Battery passive"
  | hwCheck => "Hardware check"
  | feedIn => "Feed in"

def name : InverterState → String
  | standby => "Standby"
  | initialization => "Initialization"
  | standby2 => "Standby2"
  | efficiency => "Efficiency"
  | insulationCheck => "InsulationCheck"
  | islandCheck => "IslandCheck"
  | powerCheck => "PowerCheck"
  | symmetry => "Symmetry"
  | relayTest => "RelayTest"
  | gridPassive => "GridPassive"
  | prepareBattPassive => "PrepareBattPassive"
  | battPassive => "BattPassive"
  | hwCheck => "HwCheck"
  | feedIn => "FeedIn"

end InverterState
end InverterLink
