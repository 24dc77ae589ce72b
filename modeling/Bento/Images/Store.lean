import Bento.Library.Decimal
import Bento.Library.Programs
import Bento.Store.Basic

/-! The content-addressed image store. Versions are recorded in the database and kept as files
in the image directory, one at the path of its checksum. Every database and file operation is a
call of its own; a lock file guards what creates and deletes versions. -/

namespace Bento.Images
open Library.Programs Library.Decimal

abbrev Bytes := List UInt8

inductive ImageKind where
  | qcow2
  | oci
deriving DecidableEq

structure Image where
  name : String
  currentChecksum : Option String

structure ImageVersion where
  checksum : String
  imageName : String
  path : String
  size : Nat
  kind : ImageKind
  sourceDigest : Option String

structure ImageSource where
  imageName : String
  sourceDigest : String
  checksum : String

structure InstanceRow where
  uuid : String
  imageName : String
  baseChecksum : String

inductive Error where
  | invalidChecksum (checksum : String)
  | dependency (context : String)
  | io (context : String)
  | invalid (message : String)
  | command (context : String)
  | multiple (errors : List Error)

def joined : List Error → Except Error Unit
  | [] => .ok ()
  | [error] => .error error
  | errors => .error (.multiple errors)

structure Store where
  dir : String
  sha256 : Bytes → String

def Store.pathNormalized (store : Store) (checksum : String) : String := store.dir ++ "/sha256-" ++ checksum ++ ".qcow2"

@[irreducible] def normalizeChecksum (checksum : String) : Except Error String :=
  let lowercase := (trim checksum.toList).map Char.toLower
  let bare := if "sha256:".toList.isPrefixOf lowercase ||
    "sha256-".toList.isPrefixOf lowercase then lowercase.drop 7 else lowercase
  if bare.length ≠ 64 || !bare.all isHexDigit then .error (.invalidChecksum checksum) else .ok (String.ofList bare)

structure Shared (ι : Type) where
  images : List Image
  versions : List ImageVersion
  sources : List ImageSource
  instances : List InstanceRow
  files : String → Option Bytes
  lock : Option ι
  guard : Option String

namespace Shared
variable {ι : Type} (shared : Shared ι)

def hasImage (name : String) : Prop := name ∈ shared.images.map (·.name)

def hasVersion (checksum : String) : Prop := checksum ∈ shared.versions.map (·.checksum)

def named (checksum : String) : Prop :=
  some checksum ∈ shared.images.map (·.currentChecksum) ∨ checksum ∈ shared.instances.map (·.baseChecksum)

instance (name : String) : Decidable (shared.hasImage name) := inferInstanceAs (Decidable (_ ∈ _))

instance (checksum : String) : Decidable (shared.hasVersion checksum) := inferInstanceAs (Decidable (_ ∈ _))

instance (checksum : String) : Decidable (shared.named checksum) := inferInstanceAs (Decidable (_ ∨ _))

end Shared

inductive ImageCall where
  | acquireLock
  | releaseLock
  -- What the database is asked and told.
  | images
  | image (name : String)
  | imageVersions
  | imageVersion (checksum : String)
  | hasImageVersion (checksum : String)
  | imageVersionForSource (name digest : String)
  | checksumInUse (checksum : String)
  | instance (uuid : String)
  | insertImageVersion (version : ImageVersion)
  | setCurrentChecksum (name checksum : String)
  | recordImageSource (name digest checksum : String)
  | deleteImageVersion (checksum : String)
  | createInstance (row : InstanceRow)
  | deleteInstance (uuid : String)
  -- What is done with files.
  | metadata (path : String)
  | hashFile (path : String)
  | persist (path : String) (content : Bytes)
  | disarm
  | unwind
  | removeFile (path : String)
  | qemuImg (command : String)

abbrev ImageCall.Result : ImageCall → Type
  | .images => List Image
  | .image _ => Option Image
  | .imageVersions => List ImageVersion
  | .imageVersion _ | .imageVersionForSource _ _ => Option ImageVersion
  | .hasImageVersion _ | .checksumInUse _ | .metadata _ => Bool
  | .instance _ => Option InstanceRow
  | .hashFile _ => String
  | _ => Unit

abbrev ImageCall.Answer (call : ImageCall) : Type := Except Unit call.Result

def Shared.refuses {ι : Type} (shared : Shared ι) : ImageCall → Bool
  | .insertImageVersion version => shared.hasVersion version.checksum ∨ version.path ∈ shared.versions.map (·.path) ∨
      ¬ shared.hasImage version.imageName ∨ Bento.Store.maxInteger < version.size
  | .setCurrentChecksum name checksum | .recordImageSource name _ checksum => ¬ shared.hasImage name ∨
    ¬ shared.hasVersion checksum
  | .deleteImageVersion checksum => ¬ shared.hasVersion checksum ∨ shared.named checksum
  | .createInstance row => row.uuid ∈ shared.instances.map (·.uuid) ∨ ¬ shared.hasImage row.imageName ∨
    ¬ shared.hasVersion row.baseChecksum
  | .deleteInstance uuid => uuid ∉ shared.instances.map (·.uuid)
  | .hashFile path => (shared.files path).isNone
  | _ => false

def ImageCall.mayFail : ImageCall → Bool
  | .acquireLock | .releaseLock | .metadata _ | .hashFile _ | .persist _ _ | .disarm | .unwind | .removeFile _ => false
  | _ => true

section
variable {ι : Type}

def perform (store : Store) (i : ι) (shared : Shared ι) : (call : ImageCall) → call.Result × Shared ι
  | .acquireLock => ((), { shared with lock := some i })
  | .releaseLock => ((), { shared with lock := none })
  | .images => (shared.images, shared)
  | .image name => (shared.images.find? (·.name = name), shared)
  | .imageVersions => (shared.versions, shared)
  | .imageVersion checksum => (shared.versions.find? (·.checksum = checksum), shared)
  | .hasImageVersion checksum => (decide (shared.hasVersion checksum), shared)
  | .imageVersionForSource name digest =>
    ((shared.sources.find? fun source => source.imageName = name ∧ source.sourceDigest = digest).bind fun source =>
      shared.versions.find? (·.checksum = source.checksum), shared)
  | .checksumInUse checksum => (decide (checksum ∈ shared.instances.map (·.baseChecksum)), shared)
  | .instance uuid => (shared.instances.find? (·.uuid = uuid), shared)
  | .insertImageVersion version => ((), { shared with versions := shared.versions ++ [version] })
  | .setCurrentChecksum name checksum => ((), { shared with
      images := shared.images.map fun image =>
        if image.name = name then { image with currentChecksum := some checksum } else image })
  | .recordImageSource name digest checksum => ((), { shared with
      sources := (shared.sources.filter fun source => ¬ (source.imageName = name ∧ source.sourceDigest = digest)) ++
        [⟨name, digest, checksum⟩] })
  | .deleteImageVersion checksum => ((), { shared with
      versions := shared.versions.filter (·.checksum ≠ checksum)
      sources := shared.sources.filter (·.checksum ≠ checksum) })
  | .createInstance row => ((), { shared with instances := shared.instances ++ [row] })
  | .deleteInstance uuid => ((), { shared with instances := shared.instances.filter (·.uuid ≠ uuid) })
  | .metadata path => ((shared.files path).isSome, shared)
  | .hashFile path => (((shared.files path).map store.sha256).getD "", shared)
  | .persist path content =>
    ((), { shared with files := Function.update shared.files path (some content), guard := some path })
  | .disarm => ((), { shared with guard := none })
  | .unwind =>
    match shared.guard with
    | none => ((), shared)
    | some path => ((), { shared with files := Function.update shared.files path none, guard := none })
  | .removeFile path => ((), { shared with files := Function.update shared.files path none })
  | .qemuImg _ => ((), shared)

def serve (store : Store) (i : ι) (fails : Bool) (call : ImageCall) (shared : Shared ι) : call.Answer × Shared ι :=
  if (call.mayFail && fails) || shared.refuses call then (.error (), shared)
  else (.ok (perform store i shared call).1, (perform store i shared call).2)

end

abbrev ImageProgram := Program ImageCall.Answer

abbrev ImageM := ExceptT Error ImageProgram

def checked (call : ImageCall) (error : Error) : ImageM call.Result :=
  ExceptT.mk (.request call fun answer => .pure (answer.mapError fun _ => error))

def locked (body : ImageM Unit) : ImageM Unit := do
  checked .acquireLock (.io "flock")
  let result ← ExceptT.lift body.run
  checked .unwind (.io "")
  checked .releaseLock (.io "")
  ExceptT.mk (pure result)

def orDelete (uuid : String) (body : ImageM Unit) : ImageM Unit := do
  match ← ExceptT.lift body.run with
  | .ok () => return
  | .error error =>
    let _ ← ExceptT.lift (Program.ask (.deleteInstance uuid))
    throw error

namespace Store
variable (store : Store)

def commitDownload (image : String) (temporary : Bytes) (checksum : String) (size : Nat) : ImageM Unit := locked do
  let path := store.pathNormalized checksum
  if ← checked (.hasImageVersion checksum) (.dependency "check existing version") then
    if ← checked (.metadata path) (.io "") then
      checked (.setCurrentChecksum image checksum) (.dependency "mark existing version current")
    else
      checked (.persist path temporary) (.io ("store at " ++ path))
      checked (.setCurrentChecksum image checksum) (.dependency "mark repaired version current")
      checked .disarm (.io "")
  else
    checked (.persist path temporary) (.io ("store at " ++ path))
    checked (.insertImageVersion ⟨checksum, image, path, size, .qcow2, none⟩) (.dependency "insert image version")
    checked (.setCurrentChecksum image checksum) (.dependency "mark current")
    checked .disarm (.io "")

def commitGenerated (image : String) (disk : Bytes) (checksum : String) (size : Nat) (sourceDigest : String) :
    ImageM Unit := locked do
  let known ← checked (.hasImageVersion checksum) (.dependency "check existing generated version")
  let path := store.pathNormalized checksum
  let fileExists ← checked (.metadata path) (.io "")
  if !known && fileExists then
    let storedChecksum ← checked (.hashFile path) (.io "open generated qcow2")
    if storedChecksum ≠ checksum then
      throw (.invalid ("orphaned image file " ++ path ++ " does not match its content-addressed checksum"))
  if !fileExists then checked (.persist path disk) (.io ("store at " ++ path))
  if !known then
    checked (.insertImageVersion ⟨checksum, image, path, size, .oci, some sourceDigest⟩)
      (.dependency "insert generated image version")
  checked (.recordImageSource image sourceDigest checksum) (.dependency "record OCI source digest")
  checked (.setCurrentChecksum image checksum) (.dependency "mark generated version current")
  checked .disarm (.io "")

/-- From the digest on: a disk that was built before is the cache, and another is committed.
The lock of the pipeline, which keeps two of these apart, is left out. -/
def fetchOci (image digest : String) (disk : Bytes) : ImageM Unit := do
  let build := store.commitGenerated image disk (store.sha256 disk) disk.length digest
  match ← checked (.imageVersionForSource image digest) (.dependency "find OCI source version") with
  | none => build
  | some version =>
    if ← checked (.metadata version.path) (.io "") then
      checked (.setCurrentChecksum image version.checksum) (.dependency "mark cached OCI build current")
    else build

def collectVersion (current : List String) (version : ImageVersion) : ImageProgram (Option Error) :=
  if version.checksum ∈ current then pure none
  else do
    match ← Program.ask (.checksumInUse version.checksum) with
    | .error _ => pure (some (.dependency ("collect " ++ version.checksum)))
    | .ok true => pure none
    | .ok false =>
      match ← Program.ask (.deleteImageVersion version.checksum) with
      | .error _ => pure (some (.dependency ("collect " ++ version.checksum ++ ": delete row")))
      | .ok _ =>
        match ← Program.ask (.removeFile (store.pathNormalized version.checksum)) with
        | .error _ => pure (some (.io ("collect " ++ version.checksum ++ ": delete file")))
        | .ok _ => pure none

def collectVersions (current : List String) : List ImageVersion → ImageProgram (List Error)
  | [] => pure []
  | version :: versions => do
    let error ← store.collectVersion current version
    let errors ← collectVersions current versions
    return error.toList ++ errors

def collect : ImageM Unit := locked do
  let images ← checked .images (.dependency "collect: list allowlist")
  let current := images.filterMap (·.currentChecksum)
  let versions ← checked .imageVersions (.dependency "collect: list versions")
  let errors ← ExceptT.lift (store.collectVersions current versions)
  ExceptT.mk (pure (joined errors))

def createOverlay (checksum overlayPath : String) (diskGib : Nat) : ImageM Unit := do
  let checksum ← ExceptT.mk (pure (normalizeChecksum checksum))
  if diskGib = 0 then throw (.invalid "overlay disk size must be positive, got 0 GiB")
  locked do
    let backing := store.pathNormalized checksum
    if ← checked (.metadata backing) (.io "stat backing file") then
      checked (.qemuImg ("create -f qcow2 -F qcow2 -b " ++ backing ++ " " ++ overlayPath)) (.command "qemu-img create")
      checked (.qemuImg ("resize " ++ overlayPath ++ " " ++ toString diskGib ++ "G")) (.command "qemu-img resize")
    else throw (.invalid ("image version " ++ checksum ++ " is not in the store (expected " ++ backing ++ ")"))

def newInstance (uuid imageName overlayPath : String) (diskGib : Nat) : ImageM Unit := do
  let image ← checked (.image imageName) (.dependency "image")
  match (image.bind (·.currentChecksum)).filter (· ≠ "") with
  | none => throw (.invalid "no image version")
  | some checksum =>
    match ← checked (.imageVersion checksum) (.dependency "image version") with
    | none => throw (.dependency "image version")
    | some _ =>
      checked (.createInstance ⟨uuid, imageName, checksum⟩) (.dependency "create instance")
      orDelete uuid (store.createOverlay checksum overlayPath diskGib)

end Store

def copyInstance (sourceUuid uuid : String) : ImageM Unit := do
  match ← checked (.instance sourceUuid) (.dependency "instance") with
  | none => throw (.dependency "instance")
  | some source =>
    match ← checked (.imageVersion source.baseChecksum) (.dependency "image version") with
    | none => throw (.dependency "image version")
    | some _ =>
      checked (.createInstance ⟨uuid, source.imageName, source.baseChecksum⟩) (.dependency "create instance")
      orDelete uuid (checked (.qemuImg "resize") (.command "qemu-img resize"))

inductive Operation where
  | download (image : String) (content : Bytes)
  | fetchOci (image digest : String) (disk : Bytes)
  | collect
  | new (uuid imageName overlayPath : String) (diskGib : Nat)
  | copy (sourceUuid uuid : String)
  | overlay (checksum overlayPath : String) (diskGib : Nat)

def Operation.program (store : Store) : Operation → ImageM Unit
  | .download image content => store.commitDownload image content (store.sha256 content) content.length
  | .fetchOci image digest disk => store.fetchOci image digest disk
  | .collect => store.collect
  | .new uuid imageName overlayPath diskGib => store.newInstance uuid imageName overlayPath diskGib
  | .copy sourceUuid uuid => copyInstance sourceUuid uuid
  | .overlay checksum overlayPath diskGib => store.createOverlay checksum overlayPath diskGib

end Bento.Images
