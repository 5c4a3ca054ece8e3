import EliteHubVault.Worker.Stations

/-!
# The events of the journal

Each message is processed in one transaction (`process`), which is rolled back when it
fails. `workerStep` is the step function of the worker: from a database and a message
with its environment to the database that the transaction leaves.
-/

set_option autoImplicit false

namespace EliteHubVault

open Library

variable {K : Type} [Field K] [LinearOrder K] {P : Platform K}

def processFSDJumpEvent (env : TxEnv) (message : SystemMessage K) (db : Db P) :
    Except TxError (Db P) :=
  let systemData := buildFullSystemData P message
  if shouldUpsertSystem P (.fsdJump message) systemData then do
    let (db, system) ← upsertSystem env systemData db
    let db ← processPowerplayData env message system.id db
    processFactionsData env message system.id db
  else
    pure db

def processLocationEvent (env : TxEnv) (message : LocationMessage K) (db : Db P) :
    Except TxError (Db P) :=
  let systemData := buildFullSystemData P message.toSystemMessage
  if shouldUpsertSystem P (.location message) systemData then do
    let (db, system) ← upsertSystem env systemData db
    let db ← processPowerplayData env message.toSystemMessage system.id db
    let db ← processFactionsData env message.toSystemMessage system.id db
    upsertStationFromLocation env message system.id db
  else
    pure db

def processDockedEvent (env : TxEnv) (message : DockedMessage K) (db : Db P) :
    Except TxError (Db P) :=
  if shouldUpsertSystemFromDocked P message then do
    let (db, system) ← upsertSystem env (buildPartialSystemData message) db
    upsertStationFromDocked env message system.id db
  else
    pure db

/-- The worker's switch over the event of a message. -/
def processMessage (env : TxEnv) : JournalMessage K → Db P → Except TxError (Db P)
  | .fsdJump message => processFSDJumpEvent env message
  | .location message => processLocationEvent env message
  | .docked message => processDockedEvent env message

/-- A message that describes a whole system. -/
def FullSystemMessage.toJournal : FullSystemMessage K → JournalMessage K
  | .fsdJump message => .fsdJump message
  | .location message => .location message

/-- One transaction of the worker. A failed one leaves the database as it was. -/
def workerStep (db : Db P) (job : TxEnv × JournalMessage K) : Option (Db P) :=
  some (committed db (processMessage job.1 job.2 db))

/-- The databases that worker transactions can leave, from empty tables. -/
def WorkerReachable (db : Db P) : Prop := Reachable workerStep Db.empty db

end EliteHubVault
