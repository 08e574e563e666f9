import DoubleEntry.Text.Basic

/-!
# Configuration

The configuration comes from named variables: the store to use with its settings, and the settings
of outbox streams. A number or truth value that cannot be read counts as not set. A log is written
for machines unless the readable form is asked for by name.
-/

namespace DoubleEntry

/-- Settings of outbox streams. -/
structure OutboxConfig where
  /-- How long a stream that has caught up waits before it reads again, in milliseconds. -/
  pollMs : UInt64
  batchSize : UInt64
  /-- How many records wait for the consumer. -/
  buffer : UInt64
deriving DecidableEq, Repr

/-- The settings of streams that are not set otherwise. -/
def OutboxConfig.default : OutboxConfig := ⟨500, 100, 256⟩

/-- Where the ledger is kept. -/
inductive StoreBackend where
  | memory
  | postgres (databaseUrl : String) (maxConnections : UInt32) (runMigrations : Bool)
deriving DecidableEq, Repr

/-- The configuration of a ledger. -/
structure LedgerConfig where
  store : StoreBackend
  outbox : OutboxConfig
deriving DecidableEq, Repr

/-- Why there is no configuration. -/
inductive ConfigError where
  | missingVar (name : String)
  | unknownBackend (name : String)
deriving DecidableEq, Repr

def ConfigError.message : ConfigError → String
  | .missingVar name => s!"{name} must be set"
  | .unknownBackend name =>
    s!"unknown store backend '{name}' (expected 'memory' or 'postgres')"

def ConfigError.kind : ConfigError → String
  | .missingVar _ => "MissingVar"
  | .unknownBackend _ => "UnknownBackend"

namespace LedgerConfig

/-- How many connections to a database are kept at most. -/
def defaultMaxConnections : UInt32 := 10

def inMemory : LedgerConfig := ⟨.memory, .default⟩

/-- A ledger in the database at an address. -/
def postgres (databaseUrl : String) : LedgerConfig :=
  ⟨.postgres databaseUrl defaultMaxConnections true, .default⟩

/-! ## Reading variables -/

/-- The value of a variable read by `read`, blanks around it apart; the default where it is not set
or cannot be read. -/
def parseOr {α : Type} (lookup : String → Option String) (name : String)
    (read : List Char → Option α) (default : α) : α :=
  match lookup name with
  | none => default
  | some raw => (read (Text.trimChars raw.toList)).getD default

def readWord32 (cs : List Char) : Option UInt32 :=
  (Text.readWord 32 cs).toOption.map UInt32.ofNat

def readWord64 (cs : List Char) : Option UInt64 :=
  (Text.readWord 64 cs).toOption.map UInt64.ofNat

def readBool (cs : List Char) : Option Bool :=
  if cs = "true".toList then some true
  else if cs = "false".toList then some false
  else none

/-- The address of the database, which has to be set. -/
def databaseUrl (lookup : String → Option String) : Except ConfigError String :=
  match lookup "DATABASE_URL" with
  | some url =>
    if (Text.trim url).isEmpty then .error (.missingVar "DATABASE_URL") else .ok url
  | none => .error (.missingVar "DATABASE_URL")

def storeFromLookup (lookup : String → Option String) : Except ConfigError StoreBackend :=
  let name := Text.lowerAscii (Text.trim ((lookup "TALLY_STORE").getD "memory"))
  if name = "memory" ∨ name = "in-memory" ∨ name = "" then .ok .memory
  else if name = "postgres" ∨ name = "postgresql" then
    (databaseUrl lookup).map fun url =>
      .postgres url
        (parseOr lookup "TALLY_DB_MAX_CONNECTIONS" readWord32 defaultMaxConnections)
        (parseOr lookup "TALLY_DB_RUN_MIGRATIONS" readBool true)
  else .error (.unknownBackend name)

/-- The settings of streams that the variables select. -/
def outboxFromLookup (lookup : String → Option String) : OutboxConfig where
  pollMs := parseOr lookup "TALLY_OUTBOX_POLL_MS" readWord64 OutboxConfig.default.pollMs
  batchSize := parseOr lookup "TALLY_OUTBOX_BATCH_SIZE" readWord64 OutboxConfig.default.batchSize
  buffer := parseOr lookup "TALLY_OUTBOX_BUFFER" readWord64 OutboxConfig.default.buffer

def fromLookup (lookup : String → Option String) : Except ConfigError LedgerConfig :=
  (storeFromLookup lookup).map fun store => ⟨store, outboxFromLookup lookup⟩

end LedgerConfig

/-! ## The form of the log -/

/-- The form of log lines. -/
inductive LogFormat where
  | json
  | pretty
deriving DecidableEq, Repr

/-- The form asked for: `pretty` in any case, and JSON for anything else. -/
def LogFormat.ofString (value : Option String) : LogFormat :=
  match value with
  | none => .json
  | some text => if Text.lowerAscii (Text.trim text) = "pretty" then .pretty else .json

def LogFormat.name : LogFormat → String
  | .json => "json"
  | .pretty => "pretty"

end DoubleEntry
