import EliteHubVault.Database.Schema

/-!
# The worker's lookup tables

The journal's names of governments, economies and the like, lowered, and what the
database calls them. `none` in a table is the literal `null`. A name that is missing
from a message is looked up as `undefined`, which no table has.
-/

set_option autoImplicit false

namespace EliteHubVault

/-! ## The tables -/

def systemSecurityMap : List (String × Option SystemSecurity) :=
  [("$galaxy_map_info_state_anarchy;", some .anarchy), ("anarchy", some .anarchy),
    ("$galaxy_map_info_state_lawless;", some .anarchy), ("lawless", some .anarchy),
    ("$system_security_high;", some .high), ("high", some .high),
    ("$system_security_medium;", some .medium), ("medium", some .medium),
    ("$system_security_low;", some .low), ("low", some .low)]

def factionStateMap : List (String × Option FactionState) :=
  [("null", none), ("none", none), ("boom", some .boom), ("bust", some .bust),
    ("civilunrest", some .civilUnrest), ("civilwar", some .civilWar),
    ("civilliberty", some .civilLiberty), ("election", some .election),
    ("expansion", some .expansion), ("famine", some .famine), ("investment", some .investment),
    ("lockdown", some .lockdown), ("outbreak", some .outbreak),
    ("pirateattack", some .pirateAttack), ("retreat", some .retreat), ("war", some .war),
    ("blight", some .blight), ("drought", some .drought),
    ("infrastructurefailure", some .infrastructureFailure),
    ("naturaldisaster", some .naturalDisaster), ("publicholiday", some .publicHoliday),
    ("terrorism", some .terroristAttack)]

def allegianceMap : List (String × Option Allegiance) :=
  [("alliance", some .alliance), ("empire", some .empire), ("federation", some .federation),
    ("independent", some .independent), ("none", none), ("$pirate", some .pirate),
    ("pilotsfederation", some .pilotsFederation), ("thargoid", some .thargoids),
    ("guardian", some .guardians)]

def economyMap : List (String × Option Economy) :=
  [("$economy_agri;", some .agriculture), ("agri", some .agriculture),
    ("agriculture", some .agriculture), ("$economy_colony;", some .colony),
    ("colony", some .colony), ("$economy_extraction;", some .extraction),
    ("extraction", some .extraction), ("$economy_hightech;", some .highTech),
    ("hightech", some .highTech), ("high tech", some .highTech),
    ("$economy_industrial;", some .industrial), ("industrial", some .industrial),
    ("$economy_military;", some .military), ("military", some .military),
    ("$economy_none;", none), ("none", none), ("$economy_refinery;", some .refinery),
    ("refinery", some .refinery), ("$economy_service;", some .service),
    ("service", some .service), ("$economy_terraforming;", some .terraforming),
    ("terraforming", some .terraforming), ("$economy_tourism;", some .tourism),
    ("tourism", some .tourism), ("$economy_repair;", some .repair), ("repair", some .repair),
    ("$economy_rescue;", some .rescue), ("rescue", some .rescue),
    ("$economy_damaged;", some .damaged), ("damaged", some .damaged)]

def factionGovernmentMap : List (String × Option FactionGovernment) :=
  [("$government_anarchy;", some .anarchy), ("anarchy", some .anarchy),
    ("$government_communism;", some .communism), ("communism", some .communism),
    ("$government_confederacy;", some .confederacy), ("confederacy", some .confederacy),
    ("$government_cooperative;", some .cooperative), ("cooperative", some .cooperative),
    ("$government_corporate;", some .corporate), ("corporate", some .corporate),
    ("$government_democracy;", some .democracy), ("democracy", some .democracy),
    ("$government_dictatorship;", some .dictatorship), ("dictatorship", some .dictatorship),
    ("$government_feudal;", some .feudal), ("feudal", some .feudal),
    ("$government_imperial;", some .imperial), ("imperial", some .imperial),
    ("$government_none;", none), ("none", none), ("$government_patronage;", some .patronage),
    ("patronage", some .patronage), ("$government_prison;", some .prison),
    ("prison", some .prison), ("$government_prisoncolony;", some .prisonColony),
    ("prisoncolony", some .prisonColony), ("prison colony", some .prisonColony),
    ("$government_theocracy;", some .theocracy), ("theocracy", some .theocracy),
    ("$government_engineer;", some .workshop), ("engineer", some .workshop)]

def stationTypeMap : List (String × Option StationType) :=
  [("coriolis", some .coriolis), ("coriolis starport", some .coriolis), ("dodec", some .dodec),
    ("bernal", some .ocellus), ("ocellus", some .ocellus), ("ocellus starport", some .ocellus),
    ("orbis", some .orbis), ("orbis starport", some .orbis), ("outpost", some .outpost),
    ("civilian outpost", some .outpost), ("commercial outpost", some .outpost),
    ("industrial outpost", some .outpost), ("military outpost", some .outpost),
    ("mining outpost", some .outpost), ("scientific outpost", some .outpost),
    ("outpostscientific", some .outpost), ("surfacestation", some .planetaryOutpost),
    ("crateroutpost", some .planetaryOutpost), ("planetary outpost", some .planetaryOutpost),
    ("planetary port", some .planetaryPort), ("craterport", some .planetaryPort),
    ("asteroidbase", some .asteroidBase), ("megaship", some .megaShip),
    ("onfootsettlement", some .onFootSettlement)]

def factionHappinessMap : List (String × Option FactionHappiness) :=
  [("$faction_happinessband1;", some .elated), ("happinessband1", some .elated),
    ("$faction_happinessband2;", some .happy), ("happinessband2", some .happy),
    ("$faction_happinessband3;", some .discontented), ("happinessband3", some .discontented),
    ("$faction_happinessband4;", some .unhappy), ("happinessband4", some .unhappy),
    ("$faction_happinessband5;", some .despondent), ("happinessband5", some .despondent),
    ("none", none)]

def factionConflictTypeMap : List (String × Option FactionConflictType) :=
  [("civilwar", some .civilWar), ("election", some .election), ("war", some .war)]

def factionConflictStatusMap : List (String × Option FactionConflictStatus) :=
  [("pending", some .pending), ("active", some .active), ("", some .concluded)]

def powerplayStateMap : List (String × Option PowerplayState) :=
  [("unoccupied", some .unoccupied), ("stronghold", some .stronghold),
    ("exploited", some .exploited), ("fortified", some .fortified)]

/-- `PowerplayPowersFromLowercaseMap`. -/
def powerplayPowersFromLowercaseMap : List (String × String) :=
  [("a. lavigny-duval", "A. Lavigny-Duval"), ("aisling duval", "Aisling Duval"),
    ("archon delaine", "Archon Delaine"), ("denton patreus", "Denton Patreus"),
    ("edmund mahon", "Edmund Mahon"), ("felicia winters", "Felicia Winters"),
    ("jerome archer", "Jerome Archer"), ("li yong-rui", "Li Yong-Rui"),
    ("nakato kaine", "Nakato Kaine"), ("pranav antal", "Pranav Antal"),
    ("yuri grom", "Yuri Grom"), ("zemina torval", "Zemina Torval")]
/-- `ValidPowerplayPowersLowercased`. -/
def validPowerplayPowersLowercased (toLowerCase : String → String) : List String :=
  powerplayPowersFromLowercaseMap.map fun entry => toLowerCase entry.1

/-- `EXCLUDED_STATION_GOVERNMENTS`. -/
def excludedStationGovernments : List String :=
  ["$government_megaconstruction;", "megaconstruction", "$government_carrier;", "carrier"]

/-! ## Lookups -/

section Lookups

variable {K : Type} (P : Platform K)

/-- `Map?.[value?.toLowerCase()]`. -/
def mapValue {α : Type} (entries : List (String × Option α)) (value : Option String) :
    JsLookup α :=
  jsLookup entries (match value with
    | some text => P.toLowerCase text
    | none => "undefined")

def mapGovernment (value : Option String) : JsLookup FactionGovernment :=
  mapValue P factionGovernmentMap value

def mapAllegiance (value : Option String) : JsLookup Allegiance := mapValue P allegianceMap value

def mapEconomy (value : Option String) : JsLookup Economy := mapValue P economyMap value

def mapSecurity (value : Option String) : JsLookup SystemSecurity :=
  mapValue P systemSecurityMap value

def mapPowerplayState (value : Option String) : JsLookup PowerplayState :=
  mapValue P powerplayStateMap value

/-- A happiness that no entry has is null. -/
def mapHappiness (value : Option String) : JsLookup FactionHappiness :=
  match mapValue P factionHappinessMap value with
  | .undefined => .null
  | found => found

def mapStationType (value : Option String) : JsLookup StationType :=
  mapValue P stationTypeMap value

def mapFactionState (value : Option String) : JsLookup FactionState :=
  mapValue P factionStateMap value

def mapFactionConflictType (value : Option String) : JsLookup FactionConflictType :=
  mapValue P factionConflictTypeMap value

def mapFactionConflictStatus (value : Option String) : JsLookup FactionConflictStatus :=
  mapValue P factionConflictStatusMap value

/-- `EXCLUDED_STATION_GOVERNMENTS.has(stationGovernment?.toLowerCase() ?? '')`. -/
def hasExcludedStationGovernment (stationGovernment : Option String) : Bool :=
  (match stationGovernment with
    | some text => P.toLowerCase text
    | none => "") ∈ excludedStationGovernments

end Lookups

/-! ## What the insert schemas accept -/

namespace JsLookup

variable {α : Type}

/-- A column that may not be null and has no default. -/
def required : JsLookup α → Option α
  | .value a => some a
  | _ => none

/-- A nullable column: left out, null or a value. -/
def nullish : JsLookup α → Option (Option (Option α))
  | .undefined => some none
  | .null => some (some none)
  | .value a => some (some (some a))
  | .inherited => none

/-- A nullable column of which the code never leaves out the value. -/
def nullable : JsLookup α → Option (Option α)
  | .null => some none
  | .value a => some (some a)
  | _ => none

end JsLookup

end EliteHubVault
