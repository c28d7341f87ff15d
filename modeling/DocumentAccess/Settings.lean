import DocumentAccess.Error
import DocumentAccess.Settings.Coercion
import DocumentAccess.Text.LetterCase
import DocumentAccess.Text.Percent
import DocumentAccess.Metrics.Monitor

/-!
# Settings

The settings of a connection, of its pool, of a monitor and of migrations. Each is read from a
document of dynamic values, where a missing entry takes its default, or, for a connection, from
named variables. All entries that cannot be read are reported together, in the order in which
the settings are declared. A connection's settings make the address and the options of the
client.
-/

namespace DocumentAccess

/-! ## Reading -/

/-- Reads an entry of a document; a missing one takes the default. -/
def readSetting {α : Type} (d : Document) (name : String) (default : Option α)
    (read : Value → Option α) : Option α :=
  match d.field? name with
  | some v => read v
  | none => default

/-- Refuses a document with a key that is no text. -/
def checkNames (d : Document) : Except Error Unit :=
  if d.all fun e => e.1.text?.isSome then .ok () else .error (.mismatch .argumentName)

/-- The names of the settings that could not be read. -/
def unreadable (settings : List (String × Bool)) : List String :=
  (settings.filter fun s => !s.2).map (·.1)

/-! ## The pool -/

/-- How a client pools its connections. -/
structure PoolSettings where
  maxPoolSize : Int
  minPoolSize : Int
  maxIdleTime : Option Int
  connectTimeout : Int
  socketTimeout : Option Int
  serverSelectionTimeout : Int
  heartbeatFrequency : Int
  retryWrites : Bool
  retryReads : Bool
deriving DecidableEq, Inhabited

namespace PoolSettings

/-- The settings that are used unless others are given; times are in milliseconds. -/
def standard : PoolSettings := ⟨100, 0, none, 20000, none, 30000, 10000, true, true⟩

/-- Reads pool settings. -/
def ofDocument? (d : Document) : Option PoolSettings := do
  let maxPoolSize ← readSetting d "max_pool_size" (some standard.maxPoolSize) Coercion.int?
  let minPoolSize ← readSetting d "min_pool_size" (some standard.minPoolSize) Coercion.int?
  let maxIdleTime ← readSetting d "max_idle_time_ms" (some none) (Coercion.optional? Coercion.int?)
  let connectTimeout ←
    readSetting d "connect_timeout_ms" (some standard.connectTimeout) Coercion.int?
  let socketTimeout ←
    readSetting d "socket_timeout_ms" (some none) (Coercion.optional? Coercion.int?)
  let serverSelectionTimeout ←
    readSetting d "server_selection_timeout_ms" (some standard.serverSelectionTimeout) Coercion.int?
  let heartbeatFrequency ←
    readSetting d "heartbeat_frequency_ms" (some standard.heartbeatFrequency) Coercion.int?
  let retryWrites ← readSetting d "retry_writes" (some standard.retryWrites) Coercion.bool?
  let retryReads ← readSetting d "retry_reads" (some standard.retryReads) Coercion.bool?
  return ⟨maxPoolSize, minPoolSize, maxIdleTime, connectTimeout, socketTimeout,
    serverSelectionTimeout, heartbeatFrequency, retryWrites, retryReads⟩

/-- Reads pool settings from a value. -/
def ofValue? : Value → Option PoolSettings
  | .doc d => ofDocument? d
  | _ => none

/-- The client options of a pool; times without a value are left out. -/
def clientOptions (p : PoolSettings) : Document :=
  let optional (name : String) (n : Option Int) : List (String × Value) :=
    (n.map fun n => (name, .int n)).toList
  .ofFields <|
    [("maxPoolSize", .int p.maxPoolSize), ("minPoolSize", .int p.minPoolSize),
      ("connectTimeoutMS", .int p.connectTimeout),
      ("serverSelectionTimeoutMS", .int p.serverSelectionTimeout),
      ("heartbeatFrequencyMS", .int p.heartbeatFrequency), ("retryWrites", .bool p.retryWrites),
      ("retryReads", .bool p.retryReads)] ++
    optional "maxIdleTimeMS" p.maxIdleTime ++ optional "socketTimeoutMS" p.socketTimeout

end PoolSettings

/-! ## The connection -/

/-- A port, as a number or as a text. -/
inductive Port where
  | number (n : Int)
  | text (s : String)
deriving DecidableEq, Inhabited

namespace Port

/-- Reads a port: a whole number or a text as it is, another value as a number if it can be one. -/
def ofValue? (v : Value) : Option Port :=
  match v with
  | .int n => some (number n)
  | .str s => some (text s)
  | v => ((Coercion.int? v).map number).orElse fun _ => (Coercion.text? v).map text

/-- The text of a port in an address. -/
def plain : Port → String
  | number n => toString n
  | text s => s

/-- A port as a value. -/
def toValue : Port → Value
  | number n => .int n
  | text s => .str s

end Port

/-- How to reach a store. -/
structure Settings where
  database : String
  hosts : List String
  ports : List Port
  user : Option String
  password : Option String
  authMechanism : Option String
  authSource : Option String
  ssl : Bool
  replicaSet : Option String
  srv : Bool
  pool : PoolSettings
deriving DecidableEq, Inhabited

namespace Settings

/-- Reads settings. -/
def ofDocument (d : Document) : Except Error Settings := do
  checkNames d
  let optionalText (name : String) :=
    readSetting d name (some none) (Coercion.optional? Coercion.text?)
  let database := readSetting d "database" none Coercion.text?
  let hosts := readSetting d "hosts" (some ["localhost"]) (Coercion.list? Coercion.text?)
  let ports := readSetting d "ports" (some [.text "27017"]) (Coercion.list? Port.ofValue?)
  let user := optionalText "user"
  let password := optionalText "password"
  let authMechanism := optionalText "auth_mechanism"
  let authSource := optionalText "auth_source"
  let ssl := readSetting d "ssl" (some false) Coercion.bool?
  let replicaSet := optionalText "replica_set"
  let srv := readSetting d "srv" (some false) Coercion.bool?
  let pool := readSetting d "connection_pool" (some .standard) PoolSettings.ofValue?
  let all : Option Settings := do
    return ⟨← database, ← hosts, ← ports, ← user, ← password, ← authMechanism, ← authSource,
      ← ssl, ← replicaSet, ← srv, ← pool⟩
  match all with
  | some s => .ok s
  | none =>
    .error <| .settings <| unreadable
      [("database", database.isSome), ("hosts", hosts.isSome), ("ports", ports.isSome),
        ("user", user.isSome), ("password", password.isSome),
        ("auth_mechanism", authMechanism.isSome), ("auth_source", authSource.isSome),
        ("ssl", ssl.isSome), ("replica_set", replicaSet.isSome), ("srv", srv.isSome),
        ("connection_pool", pool.isSome)]

/-- A text setting as a value. -/
def optionalValue (s : Option String) : Value := (s.map Value.str).getD .null

/-- The settings other than the pool's, as a document. -/
def toDocument (s : Settings) : Document :=
  .ofFields
    [("database", .str s.database), ("hosts", .list (s.hosts.map .str)),
      ("ports", .list (s.ports.map Port.toValue)), ("user", optionalValue s.user),
      ("password", optionalValue s.password),
      ("auth_mechanism", optionalValue s.authMechanism),
      ("auth_source", optionalValue s.authSource),
      ("ssl", .bool s.ssl), ("replica_set", optionalValue s.replicaSet), ("srv", .bool s.srv)]

/-! ## The address -/

/-- A text that counts only if it is not empty. -/
def filled (s : Option String) : Option String := s.filter fun t => !t.isEmpty

/-- The user and password, if both are there. -/
def credentials? (s : Settings) : Option (String × String) := do
  return (← filled s.user, ← filled s.password)

/-- The hosts to reach; there is always one. -/
def hostNames (s : Settings) : List String := if s.hosts.isEmpty then ["localhost"] else s.hosts

/-- The text of the port of a place: the first port stands in for missing ones. -/
def portAt (s : Settings) (i : Nat) : String :=
  match s.ports[i]?.or s.ports.head? with
  | some p => p.plain
  | none => "27017"

/-- The hosts of the address, each with its port unless the address is a service record. -/
def hostTexts (s : Settings) : List String :=
  if s.srv then s.hostNames
  else s.hostNames.mapIdx fun i host => host ++ ":" ++ s.portAt i

/-- The options of the address, in order. -/
def urlOptions (s : Settings) : List (String × String) :=
  let text (name : String) (v : Option String) : List (String × String) :=
    ((filled v).map (name, ·)).toList
  (if s.credentials?.isSome
      then [("authMechanism", (filled s.authMechanism).getD "DEFAULT")] else []) ++
    (if s.ssl then [("ssl", "true")] else []) ++
    text "authSource" s.authSource ++ text "replicaSet" s.replicaSet

/-- The address of the store. User and password are encoded. -/
def url (s : Settings) : String :=
  let scheme := if s.srv then "mongodb+srv://" else "mongodb://"
  let authority := match s.credentials? with
    | some (user, password) => Text.percentEncode user ++ ":" ++ Text.percentEncode password ++ "@"
    | none => ""
  let options := s.urlOptions
  let query := if options.isEmpty then "" else
    "/?" ++ "&".intercalate (options.map fun (name, v) => name ++ "=" ++ v)
  scheme ++ authority ++ ",".intercalate s.hostTexts ++ query

/-- The options of the client. -/
def clientOptions (s : Settings) : Document := s.pool.clientOptions

/-! ## Named variables -/

/-- The start of the names of variables: in capitals, and closed by an underscore unless it is
empty. -/
def variablePrefix (name : String) : String :=
  let p := Text.uppercase name
  if p.isEmpty || p.endsWith "_" then p else p ++ "_"

/-- The value of a variable; an empty one counts as missing. -/
def namedValue? (given : List (String × String)) (name : String) : Option String :=
  filled (given.lookup name)

/-- The items of a variable between commas, trimmed, empty ones left out. -/
def listItems (s : String) : List String :=
  ((Text.splitChars ',' s.toList).filter Text.hasInk).map fun cs =>
    String.ofList (Text.trimChars cs)

/-- The words that switch a variable on. -/
def onWords : List String := ["1", "true", "yes", "on"]

/-- Reads settings from variables, the last of equal names counting. -/
def ofVariables (start : String) (given : List (String × String)) : Except Error Settings :=
  let get (name : String) : Option String :=
    namedValue? given.reverse (variablePrefix start ++ "MONGO_" ++ name)
  let switch (name : String) : Value :=
    .bool (onWords.contains (Text.lowercase ((get name).getD "")))
  let items (key name : String) : List (String × Value) :=
    match listItems ((get name).getD "") with
    | [] => []
    | texts => [(key, .list (texts.map .str))]
  ofDocument <| .ofFields <|
    [("database", optionalValue (get "DB_NAME")), ("user", optionalValue (get "USER")),
      ("password", optionalValue (get "PASSWORD")),
      ("auth_mechanism", optionalValue (get "AUTH_MECHANISM")),
      ("auth_source", optionalValue (get "AUTH_SOURCE")),
      ("replica_set", optionalValue (get "REPLICA_SET")),
      ("ssl", switch "SSL"), ("srv", switch "SRV")] ++
    items "hosts" "HOSTS" ++ items "ports" "PORTS"

end Settings

/-! ## Monitors -/

/-- Reads the settings of a monitor. No value can stand for a collector. -/
def MonitorSettings.ofDocument (d : Document) : Except Error MonitorSettings := do
  checkNames d
  let enabled := readSetting d "enabled" (some standard.enabled) Coercion.bool?
  let detailed := readSetting d "detailed" (some standard.detailed) Coercion.bool?
  let threshold := readSetting d "slow_query_threshold" (some standard.slowThreshold) fun v =>
    (Coercion.float? v).filter fun x => !x.lt (.zero false)
  let maxMetrics := readSetting d "max_metrics" (some (standard.maxMetrics : Int)) fun v =>
    (Coercion.int? v).filter fun n => 0 < n
  let collector := readSetting d "metrics_collector" (some ()) fun v =>
    if v matches .null then some () else none
  let all : Option MonitorSettings := do
    let _ ← collector
    return ⟨← enabled, ← detailed, ← threshold, (← maxMetrics).toNat⟩
  match all with
  | some s => .ok s
  | none =>
    .error <| .settings <| unreadable
      [("enabled", enabled.isSome), ("detailed", detailed.isSome),
        ("slow_query_threshold", threshold.isSome), ("max_metrics", maxMetrics.isSome),
        ("metrics_collector", collector.isSome)]

/-! ## Migrations -/

/-- How many migrations a batch may have: one at least. -/
abbrev BatchSize := { n : Nat // 0 < n }

namespace BatchSize

instance : Inhabited BatchSize := ⟨⟨1, Nat.one_pos⟩⟩

instance (n : Nat) : OfNat BatchSize (n + 1) := ⟨⟨n + 1, n.succ_pos⟩⟩

/-- The size that an integer gives, if it is positive. -/
def ofInt? (n : Int) : Option BatchSize :=
  if h : 0 < n then some ⟨n.toNat, by omega⟩ else none

end BatchSize

/-- How migrations are run. -/
structure MigrationSettings where
  collection : String
  validateBeforeRun : Bool
  maxBatchSize : BatchSize
deriving DecidableEq, Inhabited

namespace MigrationSettings

/-- The settings that are used unless others are given. -/
def standard : MigrationSettings := ⟨"migrations", true, 10⟩

/-- Reads the settings of migrations. -/
def ofDocument (d : Document) : Except Error MigrationSettings := do
  checkNames d
  let collection := readSetting d "collection_name" (some standard.collection) Coercion.text?
  let validate :=
    readSetting d "validate_before_run" (some standard.validateBeforeRun) Coercion.bool?
  let batch := readSetting d "max_batch_size" (some standard.maxBatchSize) fun v =>
    (Coercion.int? v).bind BatchSize.ofInt?
  let all : Option MigrationSettings := do return ⟨← collection, ← validate, ← batch⟩
  match all with
  | some s => .ok s
  | none =>
    .error <| .settings <| unreadable
      [("collection_name", collection.isSome), ("validate_before_run", validate.isSome),
        ("max_batch_size", batch.isSome)]

end MigrationSettings

end DocumentAccess
