import Bento.Bentod.AddKeys
import Bento.Proofs.PairingRuns

/-! The seed of a create and the keys of its owner. What a request hands in is stored as it
came, or without the white space around it, and the seed takes it only as a single line. -/

namespace Bento.Bentod
open Library.Decimal Library.Transactions Library.Programs Http Store Api Cloudinit Lifecycle Network List

/-- The text that an event hands in for an owner, or for whoever uses the link. -/
def KeyEvent.Gives (site : Site) (owner : Int) (text : Text) : KeyEvent → Prop
  | .api user _ body => user.id = owner ∧ ∃ request, site.decoders.addSshKeyRequest body = .ok request ∧
      (site.fromOpenssh request.publicKey).isSome ∧ text = request.publicKey
  | .page user _ headers body => user.id = owner ∧ ∃ form, site.decoders.keyForm headers body = .ok form ∧
      (site.fromOpenssh (trim form.publicKey)).isSome ∧ text = trim form.publicKey
  | .offer _ _ line _ _ => text = trim line
  | .link .. => False

/-- A key that the owner hands in has no control character: to the interface as it is sent, on
the page apart from the white space around it. -/
def KeyEvent.Clean (site : Site) (owner : Int) : KeyEvent → Prop
  | .api user _ body => user.id = owner → ∀ request, site.decoders.addSshKeyRequest body = .ok request →
      (site.fromOpenssh request.publicKey).isSome → SingleLine request.publicKey
  | .page user _ headers body => user.id = owner → ∀ form, site.decoders.keyForm headers body = .ok form →
      (site.fromOpenssh (trim form.publicKey)).isSome → SingleLine (trim form.publicKey)
  | .offer .. | .link .. => True

structure AllKeys (owner : Int) (good : Text → Prop) (tables : Tables) : Prop where
  keys : ∀ row ∈ tables.sshKeys, row.userId = owner → good row.publicKey.toList
  pairings : ∀ row ∈ tables.pairings, good row.publicKey.toList

section
variable {owner : Int} {good : Text → Prop} {tables : Tables} {service : KeyService} {userId now : Int}

theorem AllKeys.insert (all : AllKeys owner good tables) {publicKey : Text} {fingerprint comment : String}
    (fine : userId = owner → good publicKey) :
    AllKeys owner good (withTx (insertSshKey userId (String.ofList publicKey) fingerprint comment now) tables).2 := by
  cases ended : withTx (insertSshKey userId (String.ofList publicKey) fingerprint comment now) tables with
  | mk result =>
    cases result with
    | error => exact withTx_error ended ▸ all
    | ok =>
      obtain ⟨created, -, -, -, -, rfl⟩ := insertSshKey_ok.mp (withTx_ok.mp ended)
      refine ⟨fun row listed mine => ?_, all.pairings⟩
      rcases List.mem_append.mp listed with earlier | last
      · exact all.keys row earlier mine
      · cases List.mem_singleton.mp last
        simpa using fine mine

theorem AllKeys.pair (all : AllKeys owner good tables) {expiresAt : Int} {line : Text}
    {tokenHash fingerprint comment : String} (fine : good line) :
    AllKeys owner good (withTx
      (createPairing now tokenHash (String.ofList line) fingerprint comment expiresAt) tables).2 := by
  cases ended : withTx (createPairing now tokenHash (String.ofList line) fingerprint comment expiresAt) tables with
  | mk result =>
    cases result with
    | error => exact withTx_error ended ▸ all
    | ok =>
      have ran := withTx_ok.mp ended
      unfold createPairing at ran
      simp only [run_bind_ok, run_lift_ok, run_get_ok, run_refuseIf_ok, run_set_ok, run_modify_ok, run_pure_ok] at ran
      obtain ⟨current, _, ⟨-, rfl⟩, _, _, rfl, expires, _, ⟨-, rfl⟩, _, _, ⟨rfl, rfl⟩, _, _, ⟨-, rfl⟩, _,
        _, rfl, -, rfl⟩ := ran
      refine ⟨all.keys, fun row listed => ?_⟩
      rcases List.mem_append.mp listed with earlier | last
      · exact all.pairings row (mem_of_mem_filter earlier)
      · cases List.mem_singleton.mp last
        simpa using fine

theorem AllKeys.link (all : AllKeys owner good tables) {later id : Int} :
    AllKeys owner good (withTx (linkPairing now later id userId) tables).2 := by
  cases ended : withTx (linkPairing now later id userId) tables with
  | mk result =>
    cases result with
    | error => exact withTx_error ended ▸ all
    | ok =>
      have ran := withTx_ok.mp ended
      unfold linkPairing at ran
      simp only [run_bind_ok, run_lift_ok, run_get_ok, run_refuseIf_ok, run_set_ok, run_pairingById_ok,
        insertSshKey_ok] at ran
      obtain ⟨current, _, ⟨-, rfl⟩, _, _, ⟨rfl, rfl⟩, _, _, ⟨-, rfl⟩, _, _, rfl, _, _, ⟨-, rfl⟩, row, _, ⟨found, rfl⟩,
        created, -, -, -, -, rfl⟩ := ran
      have claimed (row : PairingRow) (listed : row ∈ tables.pairings.map (claim id userId current)) :
          good row.publicKey.toList := by
        obtain ⟨before, known, rfl⟩ := List.mem_map.mp listed
        have same : (claim id userId current before).publicKey = before.publicKey := by
          unfold claim
          split <;> rfl
        rw [same]
        exact all.pairings before known
      refine ⟨fun key listed mine => ?_, claimed⟩
      rcases List.mem_append.mp listed with earlier | last
      · exact all.keys key earlier mine
      · cases List.mem_singleton.mp last
        exact claimed row (mem_of_find?_eq_some found)

theorem execute_addSshKey {α : Type} {publicKey fingerprint comment : Text}
    (next : Except Failure Int → Handling α) (quiet : ∀ answer, ∃ value, next answer = .pure value) :
    ((perform (.addSshKey userId publicKey fingerprint comment) >>= next).execute (service.serve now) tables).2 =
      (withTx (insertSshKey userId (String.ofList publicKey) (String.ofList fingerprint) (String.ofList comment) now)
        tables).2 := by
  show ((next (service.serve now (.write (.addSshKey userId publicKey fingerprint comment)) tables).1).execute
    (service.serve now)
    (service.serve now (.write (.addSshKey userId publicKey fingerprint comment)) tables).2).2 = _
  obtain ⟨value, ends⟩ := quiet (service.serve now (.write (.addSshKey userId publicKey fingerprint comment)) tables).1
  rw [ends]
  rfl

theorem AllKeys.api (all : AllKeys owner good tables) {user : Auth.User} {body : Text}
    (fine : ∀ text, (KeyEvent.api user now body).Gives service.site owner text → good text) :
    AllKeys owner good ((addSshKey service.site user body).execute (service.serve now) tables).2 := by
  unfold addSshKey
  cases decoded : service.site.decoders.addSshKeyRequest body with
  | error => exact all
  | ok request =>
    cases parsed : service.site.fromOpenssh request.publicKey with
    | none =>
      simp only [orReply, decodeJson, bind, pure, Program.bind, parsed]
      exact all
    | some =>
      have given (mine : user.id = owner) : good request.publicKey :=
        fine _ ⟨mine, request, decoded, by rw [parsed]; rfl, rfl⟩
      simp only [orReply, decodeJson, pure, bind, Program.bind, parsed]
      refine (execute_addSshKey _ ?_).symm ▸ all.insert given
      intro answer
      cases answer <;> exact ⟨_, rfl⟩

theorem AllKeys.page (all : AllKeys owner good tables) {user : Auth.User} {headers : HeaderMap} {body : Text}
    (fine : ∀ text, (KeyEvent.page user now headers body).Gives service.site owner text → good text) :
    AllKeys owner good ((addKey service.site user headers body).execute (service.serve now) tables).2 := by
  unfold addKey
  cases decoded : service.site.decoders.keyForm headers body with
  | error => exact all
  | ok form =>
    cases parsed : service.site.fromOpenssh (trim form.publicKey) with
    | none =>
      simp only [orReply, decodeForm, bind, pure, Program.bind, parsed]
      exact all
    | some =>
      have given (mine : user.id = owner) : good (trim form.publicKey) :=
        fine _ ⟨mine, form, decoded, by rw [parsed]; rfl, rfl⟩
      simp only [orReply, decodeForm, pure, bind, Program.bind, parsed]
      refine (execute_addSshKey _ ?_).symm ▸ all.insert given
      intro answer
      cases answer <;> exact ⟨_, rfl⟩

theorem AllKeys.step (all : AllKeys owner good tables) {event : KeyEvent}
    (fine : ∀ text, event.Gives service.site owner text → good text) :
    AllKeys owner good (event.perform service tables) := by
  cases event with
  | api => exact all.api fine
  | page => exact all.page fine
  | offer => exact all.pair (fine _ rfl)
  | link => exact all.link

theorem AllKeys.run (all : AllKeys owner good tables) {events : List KeyEvent}
    (fine : ∀ event ∈ events, ∀ text, event.Gives service.site owner text → good text) :
    AllKeys owner good (keyRun service tables events) := by
  induction events generalizing tables with
  | nil => exact all
  | cons event events ih =>
    exact ih (all.step (fine event mem_cons_self)) fun other listed => fine other (mem_cons_of_mem event listed)

end

variable {text : Text}

theorem trim_eq_nil_iff : trim text = [] ↔ ∀ char ∈ text, isWhitespace char = true := by
  rw [trim, rdropWhile_eq_nil_iff]
  constructor
  · intro rest char listed
    rw [← takeWhile_append_dropWhile (p := isWhitespace) (l := text)] at listed
    rcases List.mem_append.mp listed with first | last
    · exact mem_takeWhile_imp first
    · exact rest char last
  · intro blank char listed
    exact blank char ((dropWhile_sublist _).subset listed)

theorem trim_trim_ne_nil (some : trim text ≠ []) : trim (trim text) ≠ [] := by
  intro blank
  have last := rdropWhile_last_not isWhitespace _ some
  exact last (trim_eq_nil_iff.mp blank _ (getLast_mem some))

theorem mem_requestKeys {tables : Tables} {owner : Int} {frontendKey key : Text} (given : frontendKey ≠ []) :
    key ∈ requestKeys tables owner frontendKey ↔ key = frontendKey ∨ ∃ row ∈ tables.sshKeys, row.userId = owner ∧
      row.publicKey.toList = key := by
  simp only [requestKeys, if_neg given, sshKeysForUser, mem_append, mem_map, mem_insertionSort, mem_filter,
    mem_singleton, decide_eq_true_eq, and_assoc]
  exact or_comm

section
variable (service : KeyService) (quote : Text → Text) (ipv6 : Ipv6) (sha256 : Text → Fin 32 → UInt8)

/-- A create can be built after every run in which the keys that its owner handed in were
free of control characters. The parser takes no blank text, the lines that the library writes
are single lines with something in them, and so is the key of the frontend. -/
theorem seed_valid (users : List Int) (events : List KeyEvent) (frontendKey : Text)
    (blank : ∀ text, trim text = [] → service.site.fromOpenssh text = none)
    (lines : ∀ now tokenHash line fingerprint expiresAt,
      KeyEvent.offer now tokenHash line fingerprint expiresAt ∈ events →
      trim line ≠ [] ∧ SingleLine (trim line))
    (frontend : trim frontendKey ≠ [] ∧ SingleLine frontendKey) (owner : Int)
    (clean : ∀ event ∈ events, event.Clean service.site owner) (name : Text) (named : validName name = true)
    (bytes : Fin 16 → UInt8) (subnet : Ipv4Prefix) (address : Ipv4Addr) (dns : Option (List IpAddr))
    (guest : GuestNetwork) (network : GuestNetwork.new subnet address dns = .ok guest)
    (installGuestAgent : Bool) (made : Seed) (built : seed ipv6 (randomUuid bytes) (mac sha256 (randomUuid bytes)) name
      (requestKeys (keyRun service ⟨users, [], []⟩ events) owner frontendKey) guest installGuestAgent = some made) :
    made.validate quote ipv6 = .ok () := by
  have given : frontendKey ≠ [] := by
    rintro rfl
    exact frontend.1 rfl
  have written {text : Text} (parsed : (service.site.fromOpenssh text).isSome) : trim text ≠ [] := by
    intro none
    rw [blank _ none] at parsed
    cases parsed
  obtain ⟨sound, keys⟩ := seed_sound named network built
  have stored : AllKeys owner (fun text => trim text ≠ [] ∧ SingleLine text)
    (keyRun service ⟨users, [], []⟩ events) := by
    apply AllKeys.run ⟨fun _ listed => absurd listed not_mem_nil, fun _ listed => absurd listed not_mem_nil⟩
    intro event listed text gives
    have fine := clean event listed
    cases event with
    | api =>
      obtain ⟨mine, request, decoded, parsed, rfl⟩ := gives
      exact ⟨written parsed, fine mine request decoded parsed⟩
    | page =>
      obtain ⟨mine, form, decoded, parsed, rfl⟩ := gives
      exact ⟨written parsed, fine mine form decoded parsed⟩
    | offer =>
      cases gives
      obtain ⟨some, single⟩ := lines _ _ _ _ _ listed
      exact ⟨trim_trim_ne_nil some, single⟩
    | link => cases gives
  rw [Seed.validate_ok, keys]
  refine ⟨sound, ne_nil_of_mem ((mem_requestKeys given).mpr (.inl rfl)), fun key listed => ?_⟩
  rcases (mem_requestKeys given).mp listed with rfl | ⟨row, known, mine, rfl⟩
  · exact frontend
  · exact stored.keys row known mine

end

def readKey (text : Text) : Option PublicKey :=
  (splitOnce ' ' (text.rdropWhile isWhitespace)).map fun (_, rest) =>
    match splitOnce ' ' rest with
    | some (blob, comment) => ⟨comment, blob⟩
    | none => ⟨[], rest⟩

theorem readKey_blank (blank : trim text = []) : readKey text = none := by
  have none : text.rdropWhile isWhitespace = [] := List.rdropWhile_eq_nil_iff.mpr (trim_eq_nil_iff.mp blank)
  rw [readKey, none]
  rfl

def keySite : Site where
  baseDomain := "bento.example.org".toList
  reservedNames := []
  operator := none
  imageAdmin := false
  pairings := true
  now := 0
  quote := id
  hashToken := id
  fromOpenssh := readKey
  decoders :=
    { createRequest := fun _ => .error [], renameRequest := fun _ => .error [], resizeRequest := fun _ => .error []
      portRequest := fun _ => .error [], visibilityRequest := fun _ => .error [], shareRequest := fun _ => .error []
      addImageRequest := fun _ => .error [], addSshKeyRequest := fun body => .ok ⟨body, []⟩, newForm :=
        fun _ _ => .error (422, [])
      settingsForm := fun _ _ => .error (422, []), shareForm := fun _ _ => .error (422, [])
      deleteForm := fun _ _ => .error (422, []), imageForm := fun _ _ => .error (422, [])
      keyForm := fun _ body => .ok ⟨body, []⟩ }

def unasked : (call : Api.Call) → call.Answer
  | .read (.session _) => none
  | .read (.token _) => .error ()
  | .read (.userById _) | .read (.userByName _) => .error .notFound
  | .read (.instanceByUuid _) => .error .notFound
  | .read (.sharesFor _) => .error .notFound
  | .read (.loginUser _) => .ok none
  | .read (.pairingByTokenHash _) => .ok none
  | .write (.addSshKey ..) => .error .notFound
  | .write (.linkPairing ..) => .error ()
  | .write (.create ..) => .error .notFound
  | .write (.deleteSshKey ..) | .write (.addShare ..) | .write (.removeShare ..) |
      .write (.addOciImage ..) | .write (.delete _)
  | .write (.act ..) | .write (.rename ..) | .write (.resize ..) | .write (.setHttpPort ..) |
      .write (.setVisibility ..) => .error .notFound

def keyService : KeyService := ⟨keySite, fun _ => .sshKeyTaken, unasked⟩

def tallied : Ipv6 where
  format address := List.replicate address.toNat '|'
  parse text := some (.ofNat 128 text.length)
  parse_format address := by simp

def homeGuest : GuestNetwork := ⟨⟨0x0a640007, 24⟩, 0x0a640001, defaultDns⟩

def homeSeed (events : List KeyEvent) : Option Seed :=
  seed tallied (randomUuid fun _ => 0) (mac (fun _ _ => 0) (randomUuid fun _ => 0)) "web".toList
    (requestKeys (keyRun keyService ⟨[7], [], []⟩ events) 7 "ssh-ed25519 FFFF bento-frontend".toList) homeGuest true

def ada : Auth.User := ⟨7, "ada".toList⟩

def homeKeys : List KeyEvent :=
  [.api ada 0 "ssh-ed25519 AAAA ada".toList, .page ada 0 .empty " ssh-ed25519 BBBB ada\n".toList,
    .offer 0 "t".toList "ssh-ed25519 CCCC\n".toList "CCCC".toList 180000000000, .link 1 1 1 7]

theorem seed_valid_three_keys :
    (keyRun keyService ⟨[7], [], []⟩ homeKeys).sshKeys.map (fun row => (row.userId, row.publicKey)) =
      [(7, "ssh-ed25519 AAAA ada"), (7, "ssh-ed25519 BBBB ada"), (7, "ssh-ed25519 CCCC")] ∧
    ∃ made, homeSeed homeKeys = some made ∧ made.validate id tallied = .ok () := by
  refine ⟨by decide +kernel, _, rfl, seed_valid keyService id tallied (fun _ _ => 0) [7] homeKeys
    "ssh-ed25519 FFFF bento-frontend".toList (fun _ => readKey_blank) ?_ (by decide) 7 ?_ "web".toList (by decide) _
    ⟨0x0a640000, 24⟩ 0x0a640007 none homeGuest rfl true _ rfl⟩
  · intro now tokenHash line fingerprint expiresAt listed
    simp only [homeKeys, mem_cons, reduceCtorEq, KeyEvent.offer.injEq, not_mem_nil, or_false, false_or] at listed
    obtain ⟨-, -, rfl, -⟩ := listed
    decide +kernel
  · simp only [homeKeys, forall_mem_cons, KeyEvent.Clean]
    refine ⟨?_, ?_, trivial, trivial, fun _ listed => absurd listed not_mem_nil⟩
    · rintro - request decoded -
      cases decoded
      decide
    · rintro - form decoded -
      cases decoded
      decide +kernel

/-- A line end behind a key that the interface was given, or a tab in the comment of one that
the page was given. -/
theorem accepted_key_blocks_create :
    (homeSeed [.api ada 0 "ssh-ed25519 AAAA ada\n".toList]).map (·.validate id tallied) =
        some (.error (.invalid "authorized key contains a control character".toList)) ∧
      (homeSeed [.page ada 0 .empty "ssh-ed25519 AAAA ada\tlaptop\n".toList]).map (·.validate id tallied) =
        some (.error (.invalid "authorized key contains a control character".toList)) := by
  decide +kernel

end Bento.Bentod
