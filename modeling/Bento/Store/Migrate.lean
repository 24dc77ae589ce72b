import Bento.Library.Programs
import Bento.Store.Basic
import Bento.Store.Schema

/-! The numbered migrations, and how a process applies those that its database does not
have. The version is read once; each migration is a transaction of its own. -/

namespace Bento.Store.Migrate
open Library.Sql Library.Sql.Statement Library.Programs Library.Transactions Library.Decimal Schema

def ensureColumn (table : TableName) (column : SqlColumn) : Sql Unit := do
  unless ← hasColumn table column.name do addColumn table column

def imageSourceColumns : Sql Unit := do
  ensureColumn .images imageKind
  ensureColumn .imageVersions (nullable .sourceDigest)
  unless ← hasColumn .imageVersions .kind do
    addColumn .imageVersions imageKind
    update .imageVersions [(.kind, literal "oci")] fun row => row.get .sourceDigest ≠ .null
  let built ← select .imageVersions fun row => row.get .sourceDigest ≠ .null
  built.forM fun row => insertRowOrIgnore .imageSourceVersions
    ([.imageName, .sourceDigest, .checksum].map fun column => (column, row.get column))

def hostMachineId : Sql Unit := do
  ensureColumn .hosts (nullable .machineId)
  -- Instances move first: they reference the rows that go.
  if let some keep ← minimum .hosts .id then
    update .instances [(.hostId, .integer keep)] fun row => row.get .hostId ≠ .null && row.get .hostId ≠ .integer keep
    delete .hosts fun row => row.get .id ≠ .null && row.get .id ≠ .integer keep
  createIndexIfNotExists .hosts ⟨.hostsMachineId, [.machineId], true, some .machineId⟩

def slotOwnerTrigger (name : IndexName) (event : Event) : Trigger TableName ColumnName IndexName :=
  ⟨name, event, .instances, .slot, .runnerSlots, [(.slot, .slot), (.ownerHostId, .hostId)]⟩

def runnersAndSlots : Sql Unit := do
  ensureColumn .hosts (nullable .endpoint)
  ensureColumn .hosts ((required .enabled).defaults (.integer 1))
  ensureColumn .hosts (((required .placement).defaults (literal "active")).oneOf ["active", "draining", "removed"])
  ensureColumn .instances ((nullable .slot).to .runnerSlots .slot false)
  if let some host ← minimum .hosts .id then
    insertRowOrIgnore .runnerSlots [(.slot, .integer 0), (.ownerHostId, .integer host)]
    update .instances [(.slot, .integer 0)] fun row => row.get .slot = .null
  createTriggerIfNotExists (slotOwnerTrigger .slotOwnerInsert .insert)
  createTriggerIfNotExists (slotOwnerTrigger .slotOwnerUpdate .update)

def addHostObservations : Sql Unit := createTableIfNotExists .hostObservations hostObservations

def addHostImages : Sql Unit := createTableIfNotExists .hostImages hostImages

def hostUnderlay : Sql Unit := ensureColumn .hosts (nullable .underlay)

def dispatchGenerations : Sql Unit := createTableIfNotExists .dispatchGenerations {
  columns := [nullable .objectId, required .generation]
  keys := [[.objectId]] }

def contested (keys : List (Row ColumnName)) : List Value :=
  (keys.map (·.get .fingerprint)).dedup.filter fun fingerprint =>
    1 < ((keys.filter (·.get .fingerprint = fingerprint)).map (·.get .userId)).dedup.length

def oldest (keys : List (Row ColumnName)) : List Int :=
  (keys.map (·.get .fingerprint)).dedup.filterMap fun fingerprint =>
    ((keys.filter (·.get .fingerprint = fingerprint)).filterMap fun row => (row.get .id).integer?).min?

def uniqueSshKeyFingerprints : Sql Unit := do
  unless ← hasUniqueIndex .sshKeys .sshKeysFingerprint do
    let keys ← select .sshKeys fun _ => true
    (contested keys).forM fun fingerprint => delete .sshKeys fun row => row.get .fingerprint = fingerprint
    let left ← select .sshKeys fun _ => true
    delete .sshKeys fun row => !(oldest left).any fun id => row.get .id = .integer id
    dropIndexIfExists .sshKeysFingerprint
    createIndex .sshKeys ⟨.sshKeysFingerprint, [.fingerprint], true, none⟩

def nullableTokenExpiry : Sql Unit := do
  if ← isNotNull .tokens .expiresAt then
    createTable .tokensNew {
      columns := [required .id, (required .userId).to .users .id true, required .hash, nullable .expiresAt]
      keys := [[.id], [.hash]] }
    let rows ← select .tokens fun _ => true
    rows.forM fun row => insertRow .tokensNew ([.id, .userId, .hash, .expiresAt].map fun column =>
      (column, row.get column))
    dropTable .tokens
    renameTable .tokensNew .tokens
  update .tokens [(.expiresAt, .null)] fun row => row.get .expiresAt = literal "1970-01-01T00:00:00Z"

structure Migration where
  version : Int
  name : String
  run : Sql Unit

def migrations : List Migration := [
  ⟨1, "image_source_columns", imageSourceColumns⟩,
  ⟨2, "host_machine_id", hostMachineId⟩,
  ⟨3, "runners_and_slots", runnersAndSlots⟩,
  ⟨4, "host_observations", addHostObservations⟩,
  ⟨5, "host_images", addHostImages⟩,
  ⟨6, "host_underlay", hostUnderlay⟩,
  ⟨7, "dispatch_generations", dispatchGenerations⟩,
  ⟨8, "unique_ssh_key_fingerprints", uniqueSshKeyFingerprints⟩,
  ⟨9, "nullable_token_expiry", nullableTokenExpiry⟩]

structure Applied where
  version : Int
  name : String
  appliedAt : Text

structure Versioned where
  content : Content
  schemaMigrations : Option (List Applied)

inductive MigrateCall where
  | createMigrations
  | currentVersion
  | migrate (migration : Migration)

abbrev MigrateCall.Result : MigrateCall → Type
  | .createMigrations | .migrate _ => Unit
  | .currentVersion => Int

abbrev MigrateCall.Answer (call : MigrateCall) : Type := Except Error call.Result

abbrev MigrateProgram := Program MigrateCall.Answer

abbrev MigrateM := ExceptT Error MigrateProgram

def connection (call : MigrateCall) : MigrateM call.Result := ExceptT.mk (.request call .pure)

def applyEach : List Migration → MigrateM Unit
  | [] => return
  | migration :: rest => do
    connection (.migrate migration)
    applyEach rest

def apply : MigrateM Unit := do
  connection .createMigrations
  let current ← connection .currentVersion
  applyEach (migrations.filter (current < ·.version))

def currentVersion (recorded : List Applied) : Int := ((recorded.map (·.version)).max?).getD 0

def Migration.performed (migration : Migration) (content : Content) : Except Error Content :=
  match migration.run.run content with
  | .ok (_, content) => .ok content
  | .error _ => .error .sqlite

def Migration.record (migration : Migration) (now : Int) : Tx Error Versioned Unit := do
  let store ← get
  let content ← migration.performed store.content
  let appliedAt ← formatTime now
  match store.schemaMigrations with
  | none => throw .sqlite
  | some recorded =>
    refuseIf (migration.version ∈ recorded.map (·.version)) .sqlite
    set (Versioned.mk content (some (recorded ++ [⟨migration.version, migration.name, appliedAt⟩])))

def serve (now : Int) : (call : MigrateCall) → Versioned → call.Answer × Versioned
  | .createMigrations, store => (.ok (), { store with schemaMigrations := some (store.schemaMigrations.getD []) })
  | .currentVersion, store =>
    match store.schemaMigrations with
    | none => (.error .sqlite, store)
    | some recorded => (.ok (currentVersion recorded), store)
  | .migrate migration, store => withTx (migration.record now) store

end Bento.Store.Migrate
