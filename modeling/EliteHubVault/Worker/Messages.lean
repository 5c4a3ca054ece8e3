import EliteHubVault.Platform.Json
import EliteHubVault.Database.Schema

/-!
# The journal messages

The properties of the messages that the worker reads, under their own names with a
small first letter. `SystemMessage` has what a `FSDJump` and a `Location` message share;
a `Location` message adds what it says about the station when the player is docked.
-/

set_option autoImplicit false

namespace EliteHubVault

section Messages

variable (K : Type)

structure FactionElement where
  name : String
  government : String
  allegiance : String
  happiness : String
  influence : K
  activeStates : Option (List (StateEntry K))
  pendingStates : Option (List (StateEntry K))
  recoveringStates : Option (List (StateEntry K))

structure FactionInConflict where
  name : String
  stake : String
  wonDays : K

structure Conflict where
  faction1 : FactionInConflict K
  faction2 : FactionInConflict K
  status : String
  warType : String

/-- An entry of `PowerplayConflictProgress`. -/
structure PowerplayConflictProgress where
  power : String
  conflictProgress : K

structure StationEconomy where
  name : String
  proportion : K

/-- What a `FSDJump` and a `Location` message share. -/
structure SystemMessage where
  starSystem : String
  systemAddress : K
  starPos : List K
  population : K
  systemGovernment : String
  systemAllegiance : String
  systemEconomy : String
  systemSecondEconomy : String
  systemSecurity : String
  systemFaction : Option String
  factions : Option (List (FactionElement K))
  conflicts : Option (List (Conflict K))
  powers : Option (List String)
  controllingPower : Option String
  powerplayState : Option String
  powerplayStateControlProgress : Option K
  powerplayStateReinforcement : Option K
  powerplayStateUndermining : Option K
  powerplayConflictProgress : Option (List (PowerplayConflictProgress K))

structure LocationMessage extends SystemMessage K where
  docked : Bool
  distFromStarLS : Option K
  marketId : Option K
  stationName : Option String
  stationType : Option String
  stationFaction : Option String
  stationGovernment : Option String
  stationAllegiance : Option String
  stationEconomy : Option String
  stationEconomies : Option (List (StationEconomy K))
  stationServices : Option (List String)

structure LandingPads where
  small : K
  medium : K
  large : K

structure DockedMessage where
  starSystem : String
  systemAddress : K
  starPos : List K
  distFromStarLS : K
  marketId : K
  landingPads : LandingPads K
  stationName : String
  stationType : String
  stationFaction : String
  stationGovernment : String
  stationAllegiance : Option String
  stationEconomy : String
  stationEconomies : List (StationEconomy K)
  stationServices : List String

/-- A message that describes a whole system. -/
inductive FullSystemMessage where
  | fsdJump (message : SystemMessage K)
  | location (message : LocationMessage K)

/-- A message of the queue. -/
inductive JournalMessage where
  | fsdJump (message : SystemMessage K)
  | location (message : LocationMessage K)
  | docked (message : DockedMessage K)

end Messages

/-- The shared part of a message. -/
def FullSystemMessage.system {K : Type} : FullSystemMessage K → SystemMessage K
  | .fsdJump message => message
  | .location message => message.toSystemMessage

/-- `!!text`. -/
def truthy (text : Option String) : Bool := text.any fun text => text ≠ ""

end EliteHubVault
