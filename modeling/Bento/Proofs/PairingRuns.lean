import Bento.Store.Pairings
import Bento.Proofs.StoredTimes

/-! Pairings over whole runs. A pairing is used at most once, whatever the clocks read,
because the claim and the key are one transaction; when a pairing expires is a question
of texts. -/

namespace Bento.Store
open Library.Rfc3339 Library.Decimal Library.Runs Library.Transactions List

section
variable {now later id userId keyId : Int} {tables after : Tables}

variable {row : PairingRow} {current : Text}

theorem run_pairingById_ok : (pairingById id).run tables = .ok (row, after) ↔
    tables.pairings.find? (·.id = id) = some row ∧ tables = after := by
  unfold pairingById
  rw [run_bind_ok]
  constructor
  · rintro ⟨read, same, got, ended⟩
    obtain ⟨rfl, rfl⟩ := run_get_ok.mp got
    split at ended
    next first found =>
      obtain ⟨rfl, rfl⟩ := run_pure_ok.mp ended
      exact ⟨found, rfl⟩
    next => cases ended
  · rintro ⟨found, rfl⟩
    refine ⟨tables, tables, run_get_ok.mpr ⟨rfl, rfl⟩, ?_⟩
    rw [found]
    exact run_pure_ok.mpr ⟨rfl, rfl⟩

theorem insertSshKey_ok {publicKey fingerprint comment : String} :
    (insertSshKey userId publicKey fingerprint comment now).run tables = .ok (keyId, after) ↔
      ∃ created, format now = some created ∧ (∀ key ∈ tables.sshKeys, key.fingerprint ≠ fingerprint) ∧
        userId ∈ tables.users ∧ keyId = nextRowid (tables.sshKeys.map SshKeyRow.id) ∧ after = { tables with
          sshKeys := tables.sshKeys ++ [⟨keyId, userId, publicKey, fingerprint, comment, created⟩] } := by
  unfold insertSshKey
  simp only [run_bind_ok, run_lift_ok, run_get_ok, run_refuseIf_ok, run_set_ok, run_pure_ok, formatTime_ok]
  constructor
  · rintro ⟨created, _, ⟨written, rfl⟩, _, _, ⟨rfl, rfl⟩, _, _, ⟨free, rfl⟩, _, _, ⟨known, rfl⟩, _, _, rfl, rfl, rfl⟩
    exact ⟨created, written, fun key member same => free ⟨key, member, same⟩, not_not.mp known, rfl, rfl⟩
  · rintro ⟨created, written, free, known, rfl, rfl⟩
    exact ⟨created, tables, ⟨written, rfl⟩, tables, tables, ⟨rfl, rfl⟩, (), tables,
      ⟨fun ⟨key, member, same⟩ => free key member same, rfl⟩, (), tables, ⟨not_not.mpr known, rfl⟩,
        (), _, rfl, rfl, rfl⟩

def Tables.Keyed (tables : Tables) : Prop := (tables.pairings.map PairingRow.id).Nodup

theorem find_id {rows : List PairingRow} (keyed : (rows.map PairingRow.id).Nodup) (member : row ∈ rows) :
    rows.find? (·.id = row.id) = some row := by
  induction rows with
  | nil => cases member
  | cons first rest ih =>
    obtain ⟨apart, keyed⟩ := List.nodup_cons.mp keyed
    cases List.mem_cons.mp member with
    | inl same =>
      subst same
      simp
    | inr later =>
      have differ : first.id ≠ row.id := fun same => apart (same ▸ mem_map_of_mem later)
      rw [List.find?_cons_of_neg (by simpa using differ)]
      exact ih keyed later

theorem Tables.Keyed.eq {first last : PairingRow} (keyed : tables.Keyed) (left : first ∈ tables.pairings)
    (right : last ∈ tables.pairings) (same : first.id = last.id) : first = last := by
  have found := find_id keyed right
  rw [← same, find_id keyed left] at found
  exact Option.some.inj found

@[simp] theorem claim_id (current : Text) (row : PairingRow) : (claim id userId current row).id = row.id := by
  unfold claim
  split <;> rfl

theorem map_claim_id (current : Text) (rows : List PairingRow) :
    (rows.map (claim id userId current)).map PairingRow.id = rows.map PairingRow.id := by
  rw [map_map]
  exact map_congr_left fun row _ => claim_id current row

theorem claims_iff : claims id current row = true ↔
    row.id = id ∧ row.linkedUserId = none ∧ current < row.expiresAt := by
  simp [claims]

theorem find_claim (keyed : tables.Keyed) (member : row ∈ tables.pairings) (chosen : claims row.id current row) :
    (tables.pairings.map (claim row.id userId current)).find? (·.id = row.id) =
      some { row with linkedUserId := some userId } := by
  have claimed : claim row.id userId current row = { row with linkedUserId := some userId } := if_pos chosen
  have keptIds : ((tables.pairings.map (claim row.id userId current)).map PairingRow.id).Nodup := by
    rw [map_claim_id]
    exact keyed
  have found := find_id keptIds (mem_map_of_mem member)
  rw [claimed] at found
  exact found

def linkedTables (tables : Tables) (userId : Int) (current created : Text) (row : PairingRow) : Tables where
  users := tables.users
  pairings := tables.pairings.map (claim row.id userId current)
  sshKeys := tables.sshKeys ++ [⟨nextRowid (tables.sshKeys.map SshKeyRow.id), userId, row.publicKey, row.fingerprint,
    row.comment, created⟩]

structure Tables.Usable (tables : Tables) (userId : Int) (row : PairingRow) : Prop where
  member : row ∈ tables.pairings
  unused : row.linkedUserId = none
  known : userId ∈ tables.users
  free : ∀ key ∈ tables.sshKeys, key.fingerprint ≠ row.fingerprint

theorem linkPairing_ok (keyed : tables.Keyed) : (linkPairing now later id userId).run tables = .ok (keyId, after) ↔
      ∃ current created row, format now = some current ∧ format later = some created ∧ tables.Usable userId row ∧
        row.id = id ∧ current < row.expiresAt ∧ keyId = nextRowid (tables.sshKeys.map SshKeyRow.id) ∧
        after = linkedTables tables userId current created row := by
  unfold linkPairing
  simp only [run_bind_ok, run_lift_ok, run_get_ok, run_refuseIf_ok, run_set_ok, run_pairingById_ok, insertSshKey_ok,
    formatTime_ok]
  constructor
  · rintro ⟨current, _, ⟨written, rfl⟩, _, _, ⟨rfl, rfl⟩, _, _, ⟨known, rfl⟩, _, _, rfl, _, _, ⟨some, rfl⟩,
      found, _, ⟨sought, rfl⟩, created, stamped, free, _, rfl, rfl⟩
    obtain ⟨row, claimed⟩ := exists_mem_of_ne_nil _ some
    obtain ⟨member, chosen⟩ := List.mem_filter.mp claimed
    obtain ⟨rfl, unused, running⟩ := claims_iff.mp chosen
    rw [find_claim keyed member chosen] at sought
    cases sought
    exact ⟨current, created, row, written, stamped,
      ⟨member, unused, by_contra fun absent => known ⟨some, absent⟩, free⟩,
      rfl, running, rfl, rfl⟩
  · rintro ⟨current, created, row, written, stamped, usable, rfl, running, rfl, rfl⟩
    have chosen : claims row.id current row := claims_iff.mpr ⟨rfl, usable.unused, running⟩
    have some : tables.pairings.filter (claims row.id current) ≠ [] :=
      ne_nil_of_mem (List.mem_filter.mpr ⟨usable.member, chosen⟩)
    exact ⟨current, tables, ⟨written, rfl⟩, tables, tables, ⟨rfl, rfl⟩, (), tables,
      ⟨fun both => both.2 usable.known, rfl⟩,
      (), _, rfl, (), _, ⟨some, rfl⟩, _, _, ⟨find_claim keyed usable.member chosen, rfl⟩, created, stamped,
      usable.free, usable.known, rfl, rfl⟩

theorem createPairing_ok {tokenHash publicKey fingerprint comment : String} {expiresAt : Int} {pairing : Pairing}
    (created : (createPairing now tokenHash publicKey fingerprint comment expiresAt).run tables =
      .ok (pairing, after)) :
    ∃ current row, (∃ text, format expiresAt = some text ∧ row.expiresAt = text) ∧ row.linkedUserId = none ∧
      row.id = nextRowid ((sweep current tables.pairings).map PairingRow.id) ∧
      after = { tables with pairings := sweep current tables.pairings ++ [row] } := by
  unfold createPairing at created
  simp only [run_bind_ok, run_lift_ok, run_get_ok, run_refuseIf_ok, run_set_ok, run_modify_ok, run_pure_ok,
    formatTime_ok] at created
  obtain ⟨current, _, ⟨written, rfl⟩, _, _, rfl, expires, _, ⟨stamped, rfl⟩, _, _, ⟨rfl, rfl⟩, _, _, ⟨_, rfl⟩,
    _, _, rfl, rfl, rfl⟩ := created
  exact ⟨current, _, ⟨expires, stamped, rfl⟩, rfl, rfl, rfl⟩

theorem lt_nextRowid {ids : List Int} {id : Int} (member : id ∈ ids) : id < nextRowid ids := by
  unfold nextRowid
  induction ids with
  | nil => cases member
  | cons first rest ih =>
    rw [foldr_cons]
    cases List.mem_cons.mp member with
    | inl same =>
      subst same
      omega
    | inr later =>
      have below := ih later
      omega

structure Tables.Valid (tables : Tables) : Prop where
  keyed : tables.Keyed
  written : ∀ row ∈ tables.pairings, ∃ expires, format expires = some row.expiresAt

def Tables.Keeps (before after : Tables) : Prop :=
  ∀ row ∈ before.pairings, row.linkedUserId ≠ none → row ∈ after.pairings

theorem mem_sweep {rows : List PairingRow} : row ∈ sweep current rows ↔
    row ∈ rows ∧ ¬ (row.linkedUserId = none ∧ ¬ current < row.expiresAt) := by
  rw [sweep, mem_filter, decide_eq_true_iff]

theorem create_keeps (valid : tables.Valid) (written : ∃ expires, format expires = some row.expiresAt)
    (fresh : row.id = nextRowid ((sweep current tables.pairings).map PairingRow.id)) :
    Tables.Valid { tables with pairings := sweep current tables.pairings ++ [row] } ∧
      tables.Keeps { tables with pairings := sweep current tables.pairings ++ [row] } := by
  refine ⟨⟨?_, ?_⟩, ?_⟩
  · have kept : ((sweep current tables.pairings).map PairingRow.id).Nodup :=
      valid.keyed.sublist (List.filter_sublist.map PairingRow.id)
    simp only [Tables.Keyed, map_append, map_cons, map_nil]
    refine List.nodup_append.mpr ⟨kept, pairwise_singleton _ _, ?_⟩
    intro old listed new single same
    rw [List.mem_singleton.mp single, fresh] at same
    exact absurd same (Int.ne_of_lt (lt_nextRowid listed))
  · intro other member
    obtain old | new := List.mem_append.mp member
    · exact valid.written other (mem_sweep.mp old).1
    · rw [List.mem_singleton.mp new]
      exact written
  · intro other member used
    exact mem_append_left _ (mem_sweep.mpr ⟨member, fun both => used both.1⟩)

theorem link_keeps (valid : tables.Valid) (current created : Text) (row : PairingRow) :
    (linkedTables tables userId current created row).Valid ∧
      tables.Keeps (linkedTables tables userId current created row) := by
  refine ⟨⟨?_, ?_⟩, ?_⟩
  · unfold Tables.Keyed linkedTables
    rw [map_claim_id]
    exact valid.keyed
  · intro other member
    obtain ⟨origin, listed, rfl⟩ := List.mem_map.mp member
    have same : (claim row.id userId current origin).expiresAt = origin.expiresAt := by
      unfold claim
      split <;> rfl
    rw [same]
    exact valid.written origin listed
  · intro other member used
    refine List.mem_map.mpr ⟨other, member, if_neg fun chosen => ?_⟩
    exact used (claims_iff.mp chosen).2.1

theorem PairingCall.perform_cases (valid : tables.Valid) (call : PairingCall) : call.perform tables = (none, tables) ∨
    (∃ current row, (∃ expires, format expires = some row.expiresAt) ∧
      row.id = nextRowid ((sweep current tables.pairings).map PairingRow.id) ∧
      (∀ now later id userId, call ≠ .link now later id userId) ∧
      call.perform tables = (none, { tables with pairings := sweep current tables.pairings ++ [row] })) ∨
    ∃ userId current created row, tables.Usable userId row ∧ current < row.expiresAt ∧
      call.perform tables = (some ⟨row.id, userId, nextRowid (tables.sshKeys.map SshKeyRow.id)⟩,
        linkedTables tables userId current created row) := by
  cases call with
  | create now tokenHash publicKey fingerprint comment expiresAt =>
    simp only [perform]
    cases ended : withTx (createPairing now tokenHash publicKey fingerprint comment expiresAt) tables with
    | mk result =>
      cases result with
      | error =>
        rw [withTx_error ended]
        exact .inl rfl
      | ok =>
        obtain ⟨current, row, ⟨text, written, same⟩, _, fresh, rfl⟩ := createPairing_ok (withTx_ok.mp ended)
        exact .inr (.inl ⟨current, row, ⟨expiresAt, same ▸ written⟩, fresh, nofun, rfl⟩)
  | link now later id userId =>
    simp only [perform]
    cases ended : withTx (linkPairing now later id userId) tables with
    | mk result =>
      cases result with
      | error =>
        rw [withTx_error ended]
        exact .inl rfl
      | ok =>
        obtain ⟨current, created, row, _, _, usable, rfl, running, rfl, rfl⟩ :=
          (linkPairing_ok valid.keyed).mp (withTx_ok.mp ended)
        exact .inr (.inr ⟨userId, current, created, row, usable, running, rfl⟩)

theorem perform_keeps (valid : tables.Valid) (call : PairingCall) :
    (call.perform tables).2.Valid ∧ tables.Keeps (call.perform tables).2 := by
  obtain same | ⟨current, row, written, fresh, _, same⟩ | ⟨userId, current, created, row, _, _, same⟩ :=
    call.perform_cases valid
  · rw [same]
    exact ⟨valid, fun _ member _ => member⟩
  · rw [same]
    exact create_keeps valid written fresh
  · rw [same]
    exact link_keeps valid current created row

theorem pairingRun_follows (calls : List PairingCall) : Follows (fun tables (call : PairingCall) =>
    ((⟨call, tables, (call.perform tables).1, (call.perform tables).2⟩ : PairingStep), (call.perform tables).2)) calls
      fun before after => before.Valid → after.Valid ∧ before.Keeps after where
  refl _ valid := ⟨valid, fun _ member _ => member⟩
  trans first last valid := by
    obtain ⟨middle, kept⟩ := first valid
    obtain ⟨final, left⟩ := last middle
    exact ⟨final, fun row member used => left row (kept row member used) used⟩
  moves _ call _ valid := perform_keeps valid call

def Attaches (step : PairingStep) (link : Link) : Prop :=
  ∃ row created, step.before.Usable link.userId row ∧ row.id = link.pairingId ∧
    { row with linkedUserId := some link.userId } ∈ step.after.pairings ∧
    step.after.sshKeys = step.before.sshKeys ++
      [⟨link.keyId, link.userId, row.publicKey, row.fingerprint, row.comment, created⟩]

theorem perform_attaches (valid : tables.Valid) (call : PairingCall) {link : Link}
    (linked : (call.perform tables).1 = some link) :
    Attaches ⟨call, tables, (call.perform tables).1, (call.perform tables).2⟩ link := by
  obtain same | ⟨_, _, _, _, _, same⟩ | ⟨userId, current, created, row, usable, running, same⟩ :=
    call.perform_cases valid
  · rw [same] at linked
    cases linked
  · rw [same] at linked
    cases linked
  · rw [same] at linked ⊢
    cases linked
    refine ⟨row, created, usable, rfl, ?_, rfl⟩
    exact List.mem_map.mpr ⟨row, usable.member, if_pos (claims_iff.mpr ⟨rfl, usable.unused, running⟩)⟩

theorem pairingRun_once (valid : tables.Valid) (calls : List PairingCall) :
    (pairingRun tables calls).Pairwise fun first last =>
      ∀ early ∈ first.linked, ∀ late ∈ last.linked, early.pairingId ≠ late.pairingId := by
  refine ((pairingRun_follows calls).pairwise tables).imp ?_
  rintro _ _ ⟨before, call, middle, next, start, rfl, follows, rfl⟩ early linked late again same
  have valid := (start valid).1
  obtain ⟨row, _, _, firstId, used, _⟩ := perform_attaches valid call linked
  obtain ⟨validMiddle, keeps⟩ := follows (perform_keeps valid call).1
  obtain ⟨other, _, usable, lastId, _, _⟩ := perform_attaches validMiddle next again
  -- The used row is still there, and it is the only one with its id.
  have still := keeps _ used (Option.some_ne_none _)
  have unused := usable.unused
  rw [← validMiddle.keyed.eq still usable.member (firstId.trans (same.trans lastId.symm))] at unused
  cases unused

def Tables.Links (tables : Tables) (now later id userId : Int) : Prop :=
  ∃ keyId after, withTx (linkPairing now later id userId) tables = (.ok keyId, after)

/-- A link succeeds only before the pairing expires, and before that it does succeed when
the pairing waits and its fingerprint is free. -/
def Tables.LinksInTime (tables : Tables) (now later id userId : Int) : Prop :=
  (tables.Links now later id userId →
    ∃ row ∈ tables.pairings, row.id = id ∧ ∃ expires, parse row.expiresAt = some expires ∧ now < expires) ∧
  ∀ row expires, tables.Usable userId row → row.id = id → parse row.expiresAt = some expires → now < expires →
    tables.Links now later id userId

def Tables.SweepsExpired (tables : Tables) (now : Int) : Prop :=
  ∀ current, format now = some current → ∀ row ∈ tables.pairings, row ∉ sweep current tables.pairings →
    row.linkedUserId = none ∧ ∀ expires, parse row.expiresAt = some expires → expires ≤ now

theorem links_iff (valid : tables.Valid) {expires : Int} (usable : tables.Usable userId row)
    (written : format expires = some row.expiresAt) :
    tables.Links now later row.id userId ↔ Passes now later expires := by
  unfold Tables.Links Passes
  simp only [withTx_ok, linkPairing_ok valid.keyed]
  constructor
  · rintro ⟨_, _, current, created, other, clock, stamped, usable', same, running, _, _⟩
    rw [valid.keyed.eq usable'.member usable.member same] at running
    exact ⟨⟨(format_eq_some.mp clock).1, (format_eq_some.mp stamped).1⟩, (format_lt clock written).mp running⟩
  · rintro ⟨⟨nowWritable, laterWritable⟩, order⟩
    have clock := format_eq_some.mpr ⟨nowWritable, rfl⟩
    have stamped := format_eq_some.mpr ⟨laterWritable, rfl⟩
    exact ⟨_, _, _, _, row, clock, stamped, usable, rfl, (format_lt clock written).mpr order, rfl, rfl⟩

theorem linksInTime_iff (valid : tables.Valid) : tables.LinksInTime now later id userId ↔
    ∀ row expires, tables.Usable userId row → row.id = id → parse row.expiresAt = some expires →
      Comparable now later expires := by
  constructor
  · rintro ⟨sound, complete⟩ row expires usable rfl stored
    obtain ⟨instant, written⟩ := valid.written row usable.member
    obtain rfl := Option.some.inj ((parse_format written).symm.trans stored)
    rw [← passes_iff_comparable, ← links_iff valid usable written]
    refine ⟨fun links => ?_, complete row instant usable rfl stored⟩
    obtain ⟨other, member, same, expires, found, running⟩ := sound links
    rw [valid.keyed.eq member usable.member same, stored] at found
    cases found
    exact running
  · intro comparable
    refine ⟨fun links => ?_, ?_⟩
    · obtain ⟨keyId, after, ended⟩ := links
      obtain ⟨_, _, row, _, _, usable, rfl, _⟩ := (linkPairing_ok valid.keyed).mp (withTx_ok.mp ended)
      obtain ⟨expires, written⟩ := valid.written row usable.member
      have passes := (links_iff valid usable written).mp ⟨keyId, after, ended⟩
      have stored := parse_format written
      exact ⟨row, usable.member, rfl, expires, stored,
        (passes_iff_comparable.mpr (comparable row expires usable rfl stored)).mp passes⟩
    · rintro row expires usable rfl stored running
      obtain ⟨instant, written⟩ := valid.written row usable.member
      obtain rfl := Option.some.inj ((parse_format written).symm.trans stored)
      rw [links_iff valid usable written]
      exact (passes_iff_comparable.mpr (comparable row instant usable rfl stored)).mpr running

theorem sweepsExpired_iff (valid : tables.Valid) : tables.SweepsExpired now ↔
    (Writable now → ∀ row ∈ tables.pairings, row.linkedUserId = none → ∀ expires, parse row.expiresAt = some expires →
      ¬ (Clash now expires ∧ now < expires)) := by
  have swept : ∀ current, format now = some current → ∀ row ∈ tables.pairings, ∀ expires,
      parse row.expiresAt = some expires →
      (¬ current < row.expiresAt ↔ ¬ if Clash now expires then expires < now else now < expires) := by
    intro current clock row member expires stored
    obtain ⟨instant, written⟩ := valid.written row member
    obtain rfl := Option.some.inj ((parse_format written).symm.trans stored)
    rw [← format_lt clock written]
  constructor
  · rintro sweeps writable row member unused expires stored ⟨clash, running⟩
    have clock := format_eq_some.mpr ⟨writable, rfl⟩
    have gone : row ∉ sweep _ tables.pairings := fun kept => (mem_sweep.mp kept).2 ⟨unused,
      (swept _ clock row member expires stored).mpr (by rw [if_pos clash]; omega)⟩
    have past := (sweeps _ clock row member gone).2 expires stored
    omega
  · intro apart current clock row member gone
    have both := not_not.mp fun kept => gone (mem_sweep.mpr ⟨member, kept⟩)
    refine ⟨both.1, fun expires stored => ?_⟩
    have order := (swept current clock row member expires stored).mp both.2
    have clear := apart (format_eq_some.mp clock).1 row member both.1 expires stored
    by_cases clash : Clash now expires
    · by_contra running
      exact clear ⟨clash, Int.not_le.mp running⟩
    · rw [if_neg clash] at order
      exact Int.not_lt.mp order

end

theorem pairings_contract (users : List Int) (keys : List SshKeyRow) (calls : List PairingCall) :
    (pairingRun ⟨users, [], keys⟩ calls).Pairwise (fun first last =>
      ∀ early ∈ first.linked, ∀ late ∈ last.linked, early.pairingId ≠ late.pairingId) ∧
        ∀ step ∈ pairingRun ⟨users, [], keys⟩ calls,
      (∀ link ∈ step.linked, Attaches step link) ∧ (step.linked = none → step.after.sshKeys = step.before.sshKeys) ∧
      (∀ now later id userId, step.call = .link now later id userId → step.linked = none → step.after = step.before) ∧
      (∀ now later id userId, step.after.LinksInTime now later id userId ↔
        ∀ row expires, step.after.Usable userId row → row.id = id → parse row.expiresAt = some expires →
          Comparable now later expires) ∧
      ∀ now, step.after.SweepsExpired now ↔
        (Writable now → ∀ row ∈ step.after.pairings, row.linkedUserId = none → ∀ expires,
          parse row.expiresAt = some expires → ¬ (Clash now expires ∧ now < expires)) := by
  have valid : Tables.Valid ⟨users, [], keys⟩ := ⟨nodup_nil, fun _ member => absurd member not_mem_nil⟩
  refine ⟨pairingRun_once valid calls, fun step member => ?_⟩
  obtain ⟨before, follows, call, _, rfl⟩ := (pairingRun_follows calls).member member
  have validBefore := (follows valid).1
  have validAfter := (perform_keeps validBefore call).1
  refine ⟨fun link linked => perform_attaches validBefore call linked, ?_, ?_,
    fun now later id userId => linksInTime_iff validAfter, fun now => sweepsExpired_iff validAfter⟩
  · intro none
    obtain same | ⟨_, _, _, _, _, same⟩ | ⟨_, _, _, _, _, _, same⟩ := call.perform_cases validBefore
    · exact congrArg (fun ended => ended.2.sshKeys) same
    · exact congrArg (fun ended => ended.2.sshKeys) same
    · rw [same] at none
      cases none
  · rintro now later id userId linking none
    obtain same | ⟨_, _, _, _, other, _⟩ | ⟨_, _, _, _, _, _, same⟩ := call.perform_cases validBefore
    · exact congrArg Prod.snd same
    · exact absurd linking (other now later id userId)
    · rw [same] at none
      cases none

def waitingTables (expiresAt : String) : Tables :=
  ⟨[1], [⟨1, "t", "k", "f", "c", "1970-01-01T00:00:00Z".toList, expiresAt.toList, none⟩], []⟩

theorem waitingTables_usable (expiresAt : String) :
    (waitingTables expiresAt).Usable 1 ⟨1, "t", "k", "f", "c", "1970-01-01T00:00:00Z".toList, expiresAt.toList, none⟩ :=
  ⟨mem_cons_self, rfl, mem_cons_self, fun _ member => absurd member not_mem_nil⟩

/-- A pairing that runs until half a second past :30 is refused at :30 and swept then; one
that ran until :30 is still linked half a second later. -/
theorem pairings_clash : (pairingRun ⟨[1], [], []⟩ [.create 0 "t" "k" "f" "c" 30500000000]).map PairingStep.after =
      [waitingTables "1970-01-01T00:00:30.5Z"] ∧
        ¬ (waitingTables "1970-01-01T00:00:30.5Z").LinksInTime 30000000000 30000000000 1 1 ∧
    ¬ (waitingTables "1970-01-01T00:00:30.5Z").SweepsExpired 30000000000 ∧
    (pairingRun ⟨[1], [], []⟩ [.create 0 "t" "k" "f" "c" 30000000000]).map PairingStep.after =
      [waitingTables "1970-01-01T00:00:30Z"] ∧
        ¬ (waitingTables "1970-01-01T00:00:30Z").LinksInTime 30500000000 30500000000 1 1 := by
  refine ⟨by decide, ?_, ?_, by decide, ?_⟩
  · rintro ⟨_, complete⟩
    obtain ⟨keyId, after, ended⟩ := complete _ 30500000000 (waitingTables_usable _) rfl (by decide) (by decide)
    have refused : (withTx (linkPairing 30000000000 30000000000 1 1) (waitingTables "1970-01-01T00:00:30.5Z")).1 =
      .error .notFound := by decide
    rw [ended] at refused
    cases refused
  · intro sweeps
    have past := (sweeps "1970-01-01T00:00:30Z".toList (by decide) _ mem_cons_self (by decide)).2
      30500000000 (by decide)
    exact absurd past (by decide)
  · rintro ⟨sound, _⟩
    have linked : (withTx (linkPairing 30500000000 30500000000 1 1) (waitingTables "1970-01-01T00:00:30Z")).1 =
      .ok 1 := by decide
    obtain ⟨row, member, _, expires, stored, running⟩ := sound ⟨1, _, Prod.ext linked rfl⟩
    rw [List.mem_singleton.mp member] at stored
    have instant : parse "1970-01-01T00:00:30Z".toList = some 30000000000 := by decide
    cases instant.symm.trans stored
    exact absurd running (by decide)

end Bento.Store
