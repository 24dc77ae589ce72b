import Bento.Tlscert.Order

/-! Where an order publishes its challenges. Every name of the certificate has an authorization
of its own, but all records are made under the base domain. -/

namespace Bento.Tlscert
open Library.Decimal Library.Programs.Program Http List

def OrderCall.published : OrderCall → List Text
  | .createRecord _ name _ => [name]
  | _ => []

def watch (answers : (call : OrderCall) → call.Answer) (call : OrderCall) (names : List Text) :
    call.Answer × List Text :=
  (answers call, names ++ call.published)

abbrev Watched {α : Type} (program : OrderM α) (inputs : List ((call : OrderCall) → call.Answer))
    (names : List Text) (result : α) (after : List Text) : Prop :=
  Ran watch (fun _ _ => True) program inputs names result after

def pending (authorizations : List Authorization) : List Authorization := authorizations.filter (·.status = .pending)

def RightlyPublished (authorizations : List Authorization) (names : List Text) : Prop :=
  names <+: (pending authorizations).map fun authorization => challengeName authorization.identifier

/-- At most so many challenge records came to the names there were. -/
def Shown (manager : Manager) (limit : Nat) (names after : List Text) : Prop :=
  ∃ count ≤ limit, after = names ++ List.replicate count (challengeName manager.baseDomain)

def stripWildcard : Text → Text
  | '*' :: '.' :: domain => domain
  | domain => domain

def OrderFor (domains : List Text) (authorizations : List Authorization) : Prop :=
  (authorizations.map Authorization.identifier).Perm (domains.map stripWildcard)

section
variable {manager : Manager} {inputs : List ((call : OrderCall) → call.Answer)} {names after : List Text}

variable {α : Type} {call : OrderCall} {authorizations : List Authorization}

theorem unpublished {program : OrderM α} {result : α} (only : program.Only fun call => call.published = [])
    (ran : Watched program inputs names result after) : after = names := by
  apply only.invariant (fun later => later = names) (fun answers call state quiet same => ?_) ran rfl
  rw [watch, quiet, append_nil, same]

theorem watched_ask {next : call.Answer → OrderM α} {result : α}
    (ran : Watched (askOrder call >>= next) inputs names result after) :
    ∃ answer rest, Watched (next answer) rest (names ++ call.published) result after := by
  obtain ⟨first, rest, answer, middle, -, asked, ended⟩ := ran_bind.mp ran
  obtain ⟨answers, -, -, -, rfl⟩ := ran_ask.mp asked
  exact ⟨answer, rest, ended⟩

theorem watched_quiet {next : call.Answer → OrderM α} {result : α} (quiet : call.published = [])
    (ran : Watched (askOrder call >>= next) inputs names result after) :
    ∃ answer rest, Watched (next answer) rest names result after := by
  obtain ⟨answer, rest, ended⟩ := watched_ask ran
  rw [quiet, append_nil] at ended
  exact ⟨answer, rest, ended⟩

theorem firstZone_only (baseDomain : Text) (candidates : List Text) :
    (firstZone baseDomain candidates).Only fun call => call.published = [] := by
  induction candidates with
  | nil => exact only_pure
  | cons candidate rest ih =>
    refine ⟨rfl, fun answer => ?_⟩
    match answer with
    | .error error => exact only_pure
    | .ok (some zone) => exact only_pure
    | .ok none => exact ih

theorem present_published {baseDomain name value : Text} {result : Except Text DnsRecord}
    (ran : Watched (present baseDomain name value) inputs names result after) :
    after = names ∨ after = names ++ [name] := by
  obtain ⟨first, rest, zone, middle, -, found, made⟩ := ran_bind.mp ran
  have same : middle = names := unpublished (firstZone_only _ _) found
  subst same
  cases zone with
  | error =>
    obtain ⟨-, -, rfl⟩ := ran_pure.mp made
    exact .inl rfl
  | ok =>
    obtain ⟨answer, rest, ended⟩ := watched_ask made
    right
    cases answer with
    | error | ok => exact (ran_pure.mp ended).2.2

theorem Shown.refl {limit : Nat} (names : List Text) : Shown manager limit names names :=
  ⟨0, Nat.zero_le limit, (append_nil names).symm⟩

theorem Shown.mono {limit larger : Nat} (shown : Shown manager limit names after) (grown : limit ≤ larger) :
    Shown manager larger names after := by
  obtain ⟨count, bounded, same⟩ := shown
  exact ⟨count, bounded.trans grown, same⟩

theorem Shown.trans {early late : Nat} {middle : List Text} (first : Shown manager early names middle)
    (second : Shown manager late middle after) : Shown manager (late + early) names after := by
  obtain ⟨one, few, rfl⟩ := first
  obtain ⟨more, bounded, rfl⟩ := second
  refine ⟨one + more, by omega, ?_⟩
  rw [append_assoc, replicate_append_replicate]

theorem present_shown {value : Text} {result : Except Text DnsRecord}
    (ran : Watched (present manager.baseDomain (challengeName manager.baseDomain) value) inputs names result after) :
    Shown manager 1 names after := by
  rcases present_published ran with rfl | same
  · exact .refl _
  · exact ⟨1, Nat.le_refl 1, same⟩

theorem stopped_shown {result stopped : List DnsRecord × Except Error Unit} {limit : Nat}
    (ran : Watched (Pure.pure stopped) inputs names result after) : Shown manager limit names after := by
  obtain ⟨-, -, rfl⟩ := ran_pure.mp ran
  exact .refl _

theorem presentAll_published {records : List DnsRecord} {result : List DnsRecord × Except Error Unit}
    (ran : Watched (manager.presentAll authorizations records) inputs names result after) :
    Shown manager (pending authorizations).length names after := by
  induction authorizations generalizing inputs names records with
  | nil => exact stopped_shown ran
  | cons authorization rest ih =>
    obtain ⟨fetched, _, ran⟩ := watched_quiet rfl ran
    cases fetched with
    | error => exact stopped_shown ran
    | ok =>
      dsimp only at ran
      split at ran
      next => exact (ih ran).mono (Sublist.filter _ (sublist_cons_self authorization rest)).length_le
      next waits =>
        split at ran
        next => exact stopped_shown ran
        next value _ =>
          have longer : (pending (authorization :: rest)).length = (pending rest).length + 1 := by
            simp [pending, waits]
          rw [longer]
          obtain ⟨first, others, presented, middle, -, made, went⟩ := ran_bind.mp ran
          -- The record is in, whatever becomes of the rest of the round.
          apply (present_shown made).trans
          cases presented with
          | error => exact stopped_shown went
          | ok =>
            obtain ⟨waited, others, went⟩ := watched_quiet rfl went
            cases waited with
            | error => exact stopped_shown went
            | ok =>
              obtain ⟨told, others, went⟩ := watched_quiet rfl went
              cases told with
              | error => exact stopped_shown went
              | ok => exact ih went
      next => exact stopped_shown ran

theorem finishOrder_only (manager : Manager) : manager.finishOrder.Only fun call => call.published = [] := by
  refine only_bind (only_ask rfl) fun answer => ?_
  match answer with
  | .error error => exact only_pure
  | .ok .ready =>
    refine only_bind (only_ask rfl) fun issued => ?_
    cases issued with
    | error | ok => exact only_pure
  | .ok .pending | .ok .processing | .ok .valid | .ok .invalid => exact only_pure

theorem completeOrder_published {result : List DnsRecord × Except Error (Certificate × Nat)}
    (ran : Watched (manager.completeOrder authorizations) inputs names result after) :
    Shown manager (pending authorizations).length names after := by
  obtain ⟨first, rest, ⟨records, presented⟩, middle, -, made, went⟩ := ran_bind.mp ran
  have same : after = middle := by
    cases presented with
    | error => exact (ran_pure.mp went).2.2
    | ok => exact unpublished (only_bind (finishOrder_only manager) fun _ => only_pure) went
  rw [same]
  exact presentAll_published made

def agreeable : (call : OrderCall) → call.Answer
  | .zone _ => .ok (some [])
  | .createRecord _ _ _ => .ok []
  | .authorization _ | .waitForPropagation _ _ | .deleteRecord _ | .setReady _ => .ok ()
  | .pollReady => .ok .ready
  | .finalize names => .ok (⟨names, 0, 0⟩, 0)

theorem asked_agreeable {next : call.Answer → OrderM α} {result : α}
    (ran : Watched (next (agreeable call)) inputs (names ++ call.published) result after) :
    Watched (askOrder call >>= next) (agreeable :: inputs) names result after :=
  ran_bind.mpr ⟨[agreeable], inputs, agreeable call, names ++ call.published, rfl,
    ran_ask.mpr ⟨agreeable, rfl, trivial, rfl, rfl⟩, ran⟩

theorem quiet_agreeable {next : call.Answer → OrderM α} {result : α} (quiet : call.published = [])
    (ran : Watched (next (agreeable call)) inputs names result after) :
    Watched (askOrder call >>= next) (agreeable :: inputs) names result after := by
  apply asked_agreeable
  rwa [quiet, append_nil]

theorem present_agreeable (baseDomain name value : Text) :
    Watched (present baseDomain name value) [agreeable, agreeable] names (.ok ⟨[], [], name, value⟩)
      (names ++ [name]) := by
  refine ran_bind.mpr ⟨[agreeable], [agreeable], .ok [], names, rfl, ?_, ?_⟩
  · exact quiet_agreeable rfl (ran_pure.mpr ⟨rfl, rfl, rfl⟩)
  · exact asked_agreeable (ran_pure.mpr ⟨rfl, rfl, rfl⟩)

theorem presentAll_agreeable {records : List DnsRecord}
    (offered : ∀ authorization ∈ authorizations, authorization.status = .pending ∧ authorization.dns01 = some []) :
    ∃ inputs made, Watched (manager.presentAll authorizations records) inputs names (made, .ok ())
      (names ++ List.replicate authorizations.length (challengeName manager.baseDomain)) := by
  induction authorizations generalizing names records with
  | nil =>
    rw [length_nil, replicate_zero, append_nil]
    exact ⟨[], records, ran_pure.mpr ⟨rfl, rfl, rfl⟩⟩
  | cons authorization rest ih =>
    obtain ⟨waits, value⟩ := offered authorization mem_cons_self
    let record : DnsRecord := ⟨[], [], challengeName manager.baseDomain, []⟩
    obtain ⟨inputs, made, went⟩ := @ih (names ++ [record.name]) (records ++ [record])
      fun other listed => offered other (mem_cons_of_mem _ listed)
    rw [append_assoc] at went
    refine ⟨agreeable :: ([agreeable, agreeable] ++ agreeable :: agreeable :: inputs), made, ?_⟩
    apply quiet_agreeable rfl
    simp only [agreeable, waits, value]
    refine ran_bind.mpr ⟨[agreeable, agreeable], _, .ok record, names ++ [record.name], rfl,
      present_agreeable _ _ _, ?_⟩
    exact quiet_agreeable rfl (quiet_agreeable rfl went)

theorem completeOrder_agreeable
    (offered : ∀ authorization ∈ authorizations, authorization.status = .pending ∧ authorization.dns01 = some []) :
    ∃ inputs result, Watched (manager.completeOrder authorizations) inputs [] result
      (List.replicate authorizations.length (challengeName manager.baseDomain)) := by
  obtain ⟨inputs, made, went⟩ := presentAll_agreeable offered
  let issued : Certificate × Nat := (⟨manager.domains, 0, 0⟩, 0)
  refine ⟨inputs ++ [agreeable, agreeable], (made, .ok issued),
    ran_bind.mpr ⟨inputs, [agreeable, agreeable], _, _, rfl, went, ?_⟩⟩
  refine ran_bind.mpr ⟨[agreeable, agreeable], [], .ok issued, _, rfl, ?_, ran_pure.mpr ⟨rfl, rfl, rfl⟩⟩
  exact quiet_agreeable rfl (quiet_agreeable rfl (ran_pure.mpr ⟨rfl, rfl, rfl⟩))

end

section
variable {quote : Text → Text} {production : Text} {config : Config} {dir : StorageDir} {manager : Manager}

theorem stripWildcard_bare {domain : Text} (bare : isBare domain = true) : stripWildcard domain = domain := by
  unfold stripWildcard
  split
  next rest => simp [isBare] at bare
  next => rfl

theorem domains_same (domain : Text) : domains domain domain = [domain, wildcard domain] := by
  simp [domains]

theorem replicate_published {authorizations : List Authorization} {domain : Text} {count : Nat}
    (alike : ∀ authorization ∈ authorizations, authorization.identifier = domain)
    (bounded : count ≤ (pending authorizations).length) :
    RightlyPublished authorizations (List.replicate count (challengeName domain)) := by
  have same : (pending authorizations).map (fun authorization => challengeName authorization.identifier) =
      List.replicate (pending authorizations).length (challengeName domain) := by
    apply List.eq_replicate_iff.mpr
    refine ⟨length_map _, fun name listed => ?_⟩
    obtain ⟨authorization, waits, rfl⟩ := List.mem_map.mp listed
    rw [alike authorization (mem_of_mem_filter waits)]
  unfold RightlyPublished
  rw [same]
  refine ⟨List.replicate ((pending authorizations).length - count) (challengeName domain), ?_⟩
  rw [replicate_append_replicate, Nat.add_sub_cancel' bounded]

/-- Every name of the certificate waits for its challenge, and the order goes through. -/
theorem exists_offered (manager : Manager) : ∃ authorizations inputs result names,
    OrderFor manager.domains authorizations ∧ Watched (manager.completeOrder authorizations) inputs [] result names ∧
    (RightlyPublished authorizations names →
      ∀ domain, wildcard domain ∈ manager.domains → domain = manager.baseDomain) := by
  let authorizations := manager.domains.map fun domain => (⟨stripWildcard domain, .pending, some []⟩ : Authorization)
  have all : pending authorizations = authorizations := by simp [pending, authorizations]
  obtain ⟨inputs, result, ran⟩ := @completeOrder_agreeable manager authorizations (by simp [authorizations])
  refine ⟨authorizations, inputs, result, _, ?_, ran, ?_⟩
  · unfold OrderFor
    rw [map_map]
    exact List.Perm.refl _
  · intro shown domain subject
    unfold RightlyPublished at shown
    rw [all] at shown
    have same := shown.eq_of_length (by simp)
    have listed : challengeName domain ∈ authorizations.map fun authorization =>
        challengeName authorization.identifier := by
      rw [map_map]
      exact List.mem_map.mpr ⟨wildcard domain, subject, rfl⟩
    rw [← same] at listed
    exact append_cancel_left (eq_of_mem_replicate listed)

/-- Every order is published where the authority looks exactly when the instance domain is
the base domain. -/
theorem challenges_published (quote : Text → Text) (production : Text) (config : Config)
    (dir : StorageDir) (manager : Manager) (made : Manager.new quote production config dir = .ok manager) :
    (∀ authorizations, OrderFor manager.domains authorizations → ∀ inputs result names,
      Watched (manager.completeOrder authorizations) inputs [] result names → RightlyPublished authorizations names) ↔
    normalHost config.instanceDomain = [] ∨ normalHost config.instanceDomain = normalHost config.baseDomain := by
  obtain ⟨base, bare, subjects⟩ := Manager.new_domains made
  constructor
  · intro published
    by_contra other
    rw [not_or] at other
    rw [if_neg other.1] at subjects
    obtain ⟨authorizations, inputs, result, names, order, ran, alike⟩ := exists_offered manager
    apply other.2
    rw [← base]
    apply alike (published authorizations order inputs result names ran)
    rw [subjects]
    exact wildcard_mem_domains _ _
  · intro alike authorizations order inputs result names ran
    have single : manager.domains = [manager.baseDomain, wildcard manager.baseDomain] := by
      rw [subjects, ← domains_same]
      split
      next => rfl
      next given => rw [alike.resolve_left given, ← base]
    obtain ⟨count, bounded, rfl⟩ := completeOrder_published ran
    apply replicate_published _ bounded
    intro authorization listed
    have identified := order.subset (mem_map_of_mem listed)
    rw [single] at identified
    simp only [map_cons, map_nil, stripWildcard_bare bare, mem_cons, not_mem_nil, or_false] at identified
    exact identified.elim id id

end

def exampleConfig (instanceDomain : Text) : Config :=
  ⟨instanceDomain, "bento.example.org".toList, [], true, "acme".toList, [], 0⟩

def exampleManager (instanceDomain : Text) : Manager :=
  .ofLoaded [] (exampleConfig instanceDomain) "bento.example.org".toList instanceDomain none

theorem challenges_published_single :
    Manager.new id [] (exampleConfig "bento.example.org".toList) .empty =
      .ok (exampleManager "bento.example.org".toList) ∧
      ∀ authorizations, OrderFor (exampleManager "bento.example.org".toList).domains authorizations →
        ∀ inputs result names,
        Watched ((exampleManager "bento.example.org".toList).completeOrder authorizations) inputs [] result names →
        RightlyPublished authorizations names := by
  have made : Manager.new id [] (exampleConfig "bento.example.org".toList) .empty =
    .ok (exampleManager "bento.example.org".toList) :=
    Manager.new_ok.mpr ⟨_, _, none, rfl, rfl, rfl, rfl, rfl⟩
  exact ⟨made, (challenges_published id [] _ .empty _ made).mpr (.inr rfl)⟩

/-- The wildcard of another domain is asked for at the base domain. -/
theorem challenge_published_elsewhere :
    Manager.new id [] (exampleConfig "example.org".toList) .empty = .ok (exampleManager "example.org".toList) ∧
      ∃ authorizations, OrderFor (exampleManager "example.org".toList).domains authorizations ∧ ∃ inputs result names,
        Watched ((exampleManager "example.org".toList).completeOrder authorizations) inputs [] result names ∧
        ¬ RightlyPublished authorizations names := by
  let authorizations : List Authorization :=
    [⟨"bento.example.org".toList, .pending, some []⟩, ⟨"example.org".toList, .pending, some []⟩]
  refine ⟨Manager.new_ok.mpr ⟨_, _, none, rfl, rfl, rfl, rfl, rfl⟩, authorizations, ?_, ?_⟩
  · unfold OrderFor
    decide
  · obtain ⟨inputs, result, ran⟩ :=
      @completeOrder_agreeable (exampleManager "example.org".toList) authorizations (by simp [authorizations])
    refine ⟨inputs, result, _, ran, ?_⟩
    unfold RightlyPublished
    decide

end Bento.Tlscert
