import Bento.Library.Sql

/-! The tables, columns and indexes of the database, and the script that makes those that are
missing. -/

namespace Bento.Store.Schema
open Library.Sql Statement

inductive TableName where
  | users
  | sshKeys
  | hosts
  | runnerSlots
  | hostObservations
  | hostImages
  | images
  | imageVersions
  | imageSourceVersions
  | instances
  | tokens
  | tokensNew
  | dispatchGenerations
deriving DecidableEq

inductive ColumnName where
  | id
  | name
  | email
  | oidcSubject
  | subnet
  | createdAt
  | userId
  | publicKey
  | fingerprint
  | comment
  | machineId
  | libvirtUri
  | endpoint
  | enabled
  | placement
  | underlay
  | slot
  | state
  | ownerHostId
  | ownershipEpoch
  | sourceHostId
  | destinationHostId
  | operationId
  | hostId
  | health
  | lastContactAt
  | acceptedEpoch
  | arch
  | cpuCount
  | memoryTotalMib
  | storageTotalGib
  | storageAvailableGib
  | hypervisorVersion
  | lastError
  | imageName
  | checksum
  | verifiedAt
  | url
  | kind
  | pinnedChecksum
  | currentChecksum
  | path
  | size
  | sourceDigest
  | fetchedAt
  | uuid
  | ownerId
  | baseChecksum
  | desiredState
  | address
  | mac
  | vcpu
  | memory
  | disk
  | nested
  | ksm
  | httpPort
  | visibility
  | lastSeenAt
  | hash
  | expiresAt
  | objectId
  | generation
deriving DecidableEq

inductive IndexName where
  | sshKeysFingerprint
  | hostsMachineId
  | instancesName
  | instancesOwner
  | slotOwnerInsert
  | slotOwnerUpdate
deriving DecidableEq

abbrev SqlColumn := Column TableName ColumnName

abbrev SqlTable := Table TableName ColumnName IndexName

abbrev Content := Database TableName ColumnName IndexName

abbrev Sql := Statement TableName ColumnName IndexName

def nullable (column : ColumnName) : SqlColumn := { name := column }

def required (column : ColumnName) : SqlColumn := { name := column, notNull := true }

def SqlColumn.defaults (column : SqlColumn) (default : Value) : SqlColumn := { column with default }

def SqlColumn.oneOf (column : SqlColumn) (values : List String) :
    SqlColumn := { column with allowed := some (values.map literal) }

def SqlColumn.to (column : SqlColumn) (table : TableName) (key : ColumnName) (cascades : Bool) : SqlColumn :=
  { column with references := some ⟨table, key, cascades⟩ }

def imageKind : SqlColumn := ((required .kind).defaults (literal "qcow2")).oneOf ["qcow2", "oci"]

def users : SqlTable := {
  columns := [required .id, required .name, required .email, nullable .oidcSubject,
    required .subnet, required .createdAt]
  keys := [[.id], [.name], [.oidcSubject], [.subnet]] }

def sshKeys : SqlTable := {
  columns := [required .id, (required .userId).to .users .id true, required .publicKey, required .fingerprint,
    (required .comment).defaults (literal ""), required .createdAt]
  keys := [[.id]] }

def hosts : SqlTable := {
  columns := [required .id, nullable .machineId, required .name, required .libvirtUri, required .createdAt]
  keys := [[.id], [.name]] }

def runnerSlots : SqlTable := {
  columns := [required .slot, ((required .state).defaults (literal "active")).oneOf ["active", "draining", "moving"],
    (required .ownerHostId).to .hosts .id false, (required .ownershipEpoch).defaults (.integer 0),
    (nullable .sourceHostId).to .hosts .id false, (nullable .destinationHostId).to .hosts .id false,
      nullable .operationId]
  keys := [[.slot]] }

def hostObservations : SqlTable := {
  columns := [(required .hostId).to .hosts .id true,
    ((required .health).defaults (literal "unknown")).oneOf ["unknown", "ok", "unreachable", "mismatched"],
    nullable .lastContactAt, (required .acceptedEpoch).defaults (.integer 0), nullable .arch, nullable .cpuCount,
    nullable .memoryTotalMib, nullable .storageTotalGib, nullable .storageAvailableGib, nullable .hypervisorVersion,
    nullable .lastError]
  keys := [[.hostId]] }

def hostImages : SqlTable := {
  columns := [(required .hostId).to .hosts .id true, required .imageName, required .checksum, required .verifiedAt]
  keys := [[.hostId, .imageName, .checksum]] }

def images : SqlTable := {
  columns := [nullable .name, required .url, imageKind, nullable .pinnedChecksum,
    (nullable .currentChecksum).to .imageVersions .checksum false]
  keys := [[.name]] }

def imageVersions : SqlTable := {
  columns := [nullable .checksum, (required .imageName).to .images .name false, required .path,
    required .size, imageKind,
    nullable .sourceDigest, required .fetchedAt]
  keys := [[.checksum], [.path]] }

def imageSourceVersions : SqlTable := {
  columns := [(required .imageName).to .images .name true, required .sourceDigest,
    (required .checksum).to .imageVersions .checksum true]
  keys := [[.imageName, .sourceDigest]] }

def instances : SqlTable := {
  columns := [nullable .uuid, required .name, (required .ownerId).to .users .id false,
    (required .hostId).to .hosts .id false,
    (required .imageName).to .images .name false, (required .baseChecksum).to .imageVersions .checksum false,
    ((required .state).defaults (literal "stopped")).oneOf ["running", "stopped", "starting"],
    ((required .desiredState).defaults (literal "running")).oneOf ["running", "stopped"],
    required .address, required .mac, required .vcpu, required .memory, required .disk,
    (required .nested).defaults (.integer 0), (required .ksm).defaults (.integer 1),
      (required .httpPort).defaults (.integer 80),
    ((required .visibility).defaults (literal "off")).oneOf ["off", "private", "public"],
    required .createdAt, nullable .lastSeenAt]
  keys := [[.uuid], [.address], [.mac]] }

def tokens : SqlTable := {
  columns := [required .id, (required .userId).to .users .id true, required .hash, required .expiresAt]
  keys := [[.id], [.hash]] }

def schemaSql : Sql Unit := do
  createTableIfNotExists .users users
  createTableIfNotExists .sshKeys sshKeys
  createIndexIfNotExists .sshKeys ⟨.sshKeysFingerprint, [.fingerprint], false, none⟩
  createTableIfNotExists .hosts hosts
  createTableIfNotExists .runnerSlots runnerSlots
  createTableIfNotExists .hostObservations hostObservations
  createTableIfNotExists .hostImages hostImages
  createTableIfNotExists .images images
  createTableIfNotExists .imageVersions imageVersions
  createTableIfNotExists .imageSourceVersions imageSourceVersions
  createTableIfNotExists .instances instances
  createIndexIfNotExists .instances ⟨.instancesName, [.name], true, none⟩
  createIndexIfNotExists .instances ⟨.instancesOwner, [.ownerId], false, none⟩
  createTableIfNotExists .tokens tokens

end Bento.Store.Schema
