import Bento.Store.Migrate
import Bento.Library.Results

/-! Several processes that migrate one database. The version is read before the first
transaction, so a process that reads while another is at work does the other's migrations
again, and the second row of one version is refused. -/

namespace Bento.Store.Migrate
open Library.Programs Library.Runs Library.Transactions Library.Decimal Schema List

def Versioned.rows (store : Versioned) : List (Int × String) :=
  (store.schemaMigrations.getD []).map fun row => (row.version, row.name)

def Versioned.untimed (store : Versioned) : Content × Option (List (Int × String)) :=
  (store.content, store.schemaMigrations.map (·.map fun row => (row.version, row.name)))

def Versioned.pending (store : Versioned) : List Migration :=
  migrations.filter (currentVersion (store.schemaMigrations.getD []) < ·.version)

def finish : List Migration → Content → List (Int × String) → Except Error Unit × Content × List (Int × String)
  | [], content, rows => (.ok (), content, rows)
  | migration :: rest, content, rows =>
    match migration.performed content with
    | .ok after => finish rest after (rows ++ [(migration.version, migration.name)])
    | .error error => (.error error, content, rows)

def Versioned.outcome (store : Versioned) : Except Error Unit × Content × List (Int × String) :=
  finish store.pending store.content store.rows

theorem le_currentVersion {recorded : List Applied} {row : Applied} (listed : row ∈ recorded) :
    row.version ≤ currentVersion recorded := by
  unfold currentVersion
  cases largest : (recorded.map (·.version)).max? with
  | none =>
    rw [List.max?_eq_none_iff, map_eq_nil_iff] at largest
    rw [largest] at listed
    cases listed
  | some version => exact (List.max?_eq_some_iff.mp largest).2 row.version (mem_map_of_mem listed)

theorem currentVersion_append {recorded : List Applied} {row : Applied}
    (above : currentVersion recorded < row.version) :
    currentVersion (recorded ++ [row]) = row.version := by
  have largest : ((recorded ++ [row]).map (·.version)).max? = some row.version := by
    rw [List.max?_eq_some_iff]
    constructor
    · simp
    · intro version listed
      simp only [map_append, map_cons, map_nil, mem_append, mem_map, mem_singleton] at listed
      rcases listed with ⟨other, known, rfl⟩ | rfl
      · exact Int.le_trans (le_currentVersion known) (Int.le_of_lt above)
      · exact Int.le_refl _
  rw [currentVersion, largest]
  rfl

theorem migrations_sorted : migrations.Pairwise (·.version < ·.version) := by
  simp [migrations]

theorem filter_above {known rest : List Migration} {version : Int} {migration : Migration}
    (sorted : known.Pairwise (·.version < ·.version)) (left : known.filter (version < ·.version) = migration :: rest) :
    known.filter (migration.version < ·.version) = rest := by
  have newer : version < migration.version := by
    have listed : migration ∈ known.filter (version < ·.version) := left ▸ mem_cons_self
    simpa using (List.mem_filter.mp listed).2
  have order : (migration :: rest).Pairwise (·.version < ·.version) := left ▸ sorted.filter _
  calc known.filter (migration.version < ·.version)
    _ = (known.filter (version < ·.version)).filter (migration.version < ·.version) := by
      rw [filter_filter]
      apply filter_congr
      intro other _
      rw [Bool.eq_iff_iff]
      simp only [Bool.and_eq_true, decide_eq_true_eq]
      omega
    _ = (migration :: rest).filter (migration.version < ·.version) := by rw [left]
    _ = rest := by
      rw [filter_cons_of_neg (by simp), filter_eq_self]
      exact fun other listed => decide_eq_true ((List.pairwise_cons.mp order).1 other listed)

def Readable (now : Int) : Prop := ∃ text, formatTime now = .ok text

def reading : MigrateM Unit := do
  let current ← connection .currentVersion
  applyEach (migrations.filter (current < ·.version))

inductive At (store : Versioned) (program : MigrateProgram (Except Error Unit)) : Prop where
  | opening (same : program = apply.run)
  | created (opened : store.schemaMigrations.isSome) (same : program = reading.run)
  | applying (opened : store.schemaMigrations.isSome) (same : program = (applyEach store.pending).run)
  | failed (opened : store.schemaMigrations.isSome) (migration : Migration) (rest : List Migration) (error : Error)
      (next : store.pending = migration :: rest) (fails : migration.performed store.content = .error error)
      (same : program = .pure (.error error))

section
variable {store : Versioned} {now : Int} {migration : Migration} {rest : List Migration}

theorem serve_failed {error : Error} (fails : migration.performed store.content = .error error) :
    serve now (.migrate migration) store = (.error error, store) := by
  have refused : (migration.record now).run store = .error error := by
    unfold Migration.record
    rw [run_get_bind, fails]
    rfl
  show withTx _ store = _
  rw [withTx, refused]

variable {recorded : List Applied} {content : Content} {text : Text}

theorem serve_recorded (opened : store.schemaMigrations = some recorded)
    (newer : currentVersion recorded < migration.version) (done : migration.performed store.content = .ok content)
    (clock : formatTime now = .ok text) : serve now (.migrate migration) store =
      (.ok (), ⟨content, some (recorded ++ [⟨migration.version, migration.name, text⟩])⟩) := by
  have absent : migration.version ∉ recorded.map (·.version) := by
    intro listed
    obtain ⟨row, known, same⟩ := List.mem_map.mp listed
    have below := le_currentVersion known
    omega
  apply withTx_ok.mpr
  unfold Migration.record
  rw [run_get_bind, done, clock, opened]
  show (refuseIf _ _ >>= fun _ => set _ : Tx Error Versioned Unit).run store = _
  rw [run_refuseIf_bind, if_neg absent]
  rfl

theorem pending_newer (opened : store.schemaMigrations = some recorded) (next : store.pending = migration :: rest) :
    currentVersion recorded < migration.version := by
  have listed : migration ∈ store.pending := next ▸ mem_cons_self
  unfold Versioned.pending at listed
  rw [opened] at listed
  simpa using (List.mem_filter.mp listed).2

theorem pending_recorded (opened : store.schemaMigrations = some recorded) (next : store.pending = migration :: rest) :
    (Versioned.mk content (some (recorded ++ [⟨migration.version, migration.name, text⟩]))).pending = rest := by
  have newer := pending_newer opened next
  unfold Versioned.pending at next ⊢
  rw [opened] at next
  rw [Option.getD_some, currentVersion_append newer]
  exact filter_above migrations_sorted next

theorem outcome_recorded (opened : store.schemaMigrations = some recorded)
    (next : store.pending = migration :: rest) (done : migration.performed store.content = .ok content) :
    (Versioned.mk content (some (recorded ++ [⟨migration.version, migration.name, text⟩]))).outcome =
      store.outcome := by
  unfold Versioned.outcome
  rw [pending_recorded opened next, next, finish, done]
  simp [Versioned.rows, opened]

theorem At.ended {result : Except Error Unit} (at_ : At store (.pure result)) :
    store.outcome = (result, store.content, store.rows) ∧ store.schemaMigrations.isSome := by
  cases at_ with
  | opening same => cases same
  | created opened same => cases same
  | applying opened same =>
    cases left : store.pending with
    | nil =>
      rw [left] at same
      cases same
      exact ⟨by rw [Versioned.outcome, left, finish], opened⟩
    | cons =>
      rw [left] at same
      cases same
  | failed opened migration rest error next fails same =>
    cases same
    exact ⟨by rw [Versioned.outcome, next, finish, fails], opened⟩

inductive Serves (store : Versioned) : (call : MigrateCall) → call.Answer × Versioned → Prop where
  | created : Serves store .createMigrations
      (.ok (), { store with schemaMigrations := some (store.schemaMigrations.getD []) })
  | read (recorded : List Applied) (opened : store.schemaMigrations = some recorded) :
      Serves store .currentVersion (.ok (currentVersion recorded), store)
  | failed (migration : Migration) (rest : List Migration) (error : Error) (next : store.pending = migration :: rest)
      (fails : migration.performed store.content = .error error) :
      Serves store (.migrate migration) (.error error, store)
  | recorded (migration : Migration) (rest : List Migration) (recorded : List Applied) (content : Content) (text : Text)
      (opened : store.schemaMigrations = some recorded) (next : store.pending = migration :: rest)
      (done : migration.performed store.content = .ok content) :
      Serves store (.migrate migration)
        (.ok (), ⟨content, some (recorded ++ [⟨migration.version, migration.name, text⟩])⟩)

section
variable {call : MigrateCall} {next : call.Answer → MigrateProgram (Except Error Unit)}
  {served : call.Answer × Versioned}

theorem At.serves (stands : At store (.request call next)) (clock : Readable now) :
    Serves store call (serve now call store) := by
  cases stands with
  | opening same =>
    cases same
    exact .created
  | created opened same =>
    cases same
    obtain ⟨recorded, known⟩ := Option.isSome_iff_exists.mp opened
    have reads : serve now .currentVersion store = (.ok (currentVersion recorded), store) := by simp [serve, known]
    rw [reads]
    exact .read recorded known
  | applying opened same =>
    obtain ⟨recorded, known⟩ := Option.isSome_iff_exists.mp opened
    obtain ⟨text, read⟩ := clock
    cases left : store.pending with
    | nil =>
      rw [left] at same
      cases same
    | cons migration rest =>
      rw [left] at same
      cases same
      cases performed : migration.performed store.content with
      | error error =>
        rw [serve_failed performed]
        exact .failed migration rest error left performed
      | ok content =>
        rw [serve_recorded known (pending_newer known left) performed read]
        exact .recorded migration rest recorded content text known left performed
  | failed opened migration rest error next fails same => cases same

theorem Serves.outcome (serves : Serves store call served) : served.2.outcome = store.outcome := by
  cases serves with
  | created => rfl
  | read => rfl
  | failed => rfl
  | recorded migration rest recorded content text opened next done => exact outcome_recorded opened next done

theorem At.moves (stands : At store (.request call next)) (serves : Serves store call served) :
    At served.2 (next served.1) := by
  cases stands with
  | opening same =>
    cases same
    cases serves
    exact .created rfl rfl
  | created opened same =>
    cases same
    cases serves with
    | read recorded known =>
      apply At.applying opened
      rw [Versioned.pending, known]
      rfl
  | applying opened same =>
    cases left : store.pending with
    | nil =>
      rw [left] at same
      cases same
    | cons migration =>
      rw [left] at same
      cases same
      cases serves with
      | failed _ others error next fails => exact .failed opened migration others error next fails rfl
      | recorded _ others recorded content text known =>
        apply At.applying rfl
        rw [pending_recorded known left]
        rfl
  | failed opened migration rest error next fails same => cases same

def Migrating (program : MigrateProgram (Except Error Unit)) :
    Prop := ∃ migration, program.waiting = some (.migrate migration)

theorem At.frame {other : MigrateProgram (Except Error Unit)} (stands : At store other)
    (serves : Serves store call served) (apart : ∀ migration, call = .migrate migration → ¬ Migrating other) :
    At served.2 other := by
  cases serves with
  | created =>
    cases stands with
    | opening same => exact .opening same
    | created opened same => exact .created rfl same
    | applying opened same => exact .applying rfl same
    | failed opened migration rest error next fails same => exact .failed rfl migration rest error next fails same
  | read | failed => exact stands
  | recorded migration rest recorded content text opened next done =>
    cases stands with
    | opening same => exact .opening same
    | created opened same => exact .created rfl same
    | applying opened same =>
      rw [next] at same
      exact (apart migration rfl ⟨migration, by rw [same]; rfl⟩).elim
    | failed opened first others error known fails =>
      cases next.symm.trans known
      cases done.symm.trans fails

end

theorem perform_outcome {clocks : List Int} {result : Except Error Unit} {alone : Versioned}
    (single : apply.run.perform serve clocks store = some (result, alone)) (clock : ∀ now ∈ clocks, Readable now) :
    store.outcome = (result, alone.content, alone.rows) ∧ alone.schemaMigrations.isSome := by
  have ended : At alone (.pure result) ∧ alone.outcome = store.outcome := by
    apply Program.perform_invariant (fun program state => At state program ∧
      state.outcome = store.outcome) ?_ single clock
    · exact ⟨.opening rfl, rfl⟩
    · intro now call next state readable stands
      have serves := stands.1.serves readable
      exact ⟨stands.1.moves serves, serves.outcome.trans stands.2⟩
  rw [← ended.2]
  exact ended.1.ended

theorem untimed_eq {other : Versioned} (opened : store.schemaMigrations.isSome) (known : other.schemaMigrations.isSome)
    (content : store.content = other.content) (rows : store.rows = other.rows) : store.untimed = other.untimed := by
  obtain ⟨recorded, found⟩ := Option.isSome_iff_exists.mp opened
  obtain ⟨others, there⟩ := Option.isSome_iff_exists.mp known
  unfold Versioned.rows at rows
  rw [found, there] at rows
  simp only [Versioned.untimed, content, found, there, Option.map_some]
  exact congrArg _ (congrArg some rows)

end

section
variable {ι : Type} [DecidableEq ι]

abbrev Processes (ι : Type) := Pool MigrateCall.Answer ι Versioned (Except Error Unit)

def starting (store : Versioned) : Processes ι := ⟨store, fun _ => some apply.run⟩

/-- A migration is recorded only while no other process is between its reading of the version
and its last migration. -/
def Exclusive (pool : Processes ι) : PoolEvent ι Int → Prop
  | .step i now => Readable now ∧ ∀ program, pool.thread i = some program → Migrating program →
      ∀ j other, j ≠ i → pool.thread j = some other → ¬ Migrating other
  | .drop _ => True

theorem exclusive_step {store : Versioned} (pool : Processes ι) (event : PoolEvent ι Int) (after : Processes ι)
    (allowed : Exclusive pool event) (moved : pool.step (fun _ => serve) event = some after)
    (stands : pool.shared.outcome = store.outcome ∧ ∀ i program, pool.thread i = some program →
      At pool.shared program) :
    after.shared.outcome = store.outcome ∧ ∀ i program, after.thread i = some program → At after.shared program := by
  obtain ⟨same, each⟩ := stands
  obtain ⟨i, now, program, rest, shared, rfl, found, resumed, rfl⟩ | ⟨i, call, rest, rfl, found, rfl⟩ :=
    Pool.step_cases moved
  · cases program with
    | pure => cases resumed
    | request =>
      cases resumed
      have serves := (each i _ found).serves allowed.1
      refine ⟨serves.outcome.trans same, fun j other standing => ?_⟩
      rcases update_eq_some standing with ⟨rfl, now⟩ | ⟨apart, before⟩
      · cases now
        exact (each j _ found).moves serves
      · apply (each j other before).frame serves
        rintro migration rfl
        exact allowed.2 _ found ⟨migration, rfl⟩ j other apart before
  · refine ⟨same, fun j other standing => ?_⟩
    rcases update_eq_some standing with ⟨-, gone⟩ | ⟨-, before⟩
    · cases gone
    · exact each j other before

/-- Every process that was not killed returns what one uninterrupted `apply` returns, and leaves
what it leaves. -/
theorem processes_apply_as_one (store alone : Versioned) (clocks : List Int) (result : Except Error Unit)
    (single : apply.run.perform serve clocks store = some (result, alone)) (clock : ∀ now ∈ clocks, Readable now)
    (events : List (PoolEvent ι Int)) (pool : Processes ι)
    (ran : exec (Pool.step fun _ => serve) (starting store) events = some pool)
    (obeyed : Obeys (Pool.step fun _ => serve) Exclusive (starting store) events) (i : ι) (value : Except Error Unit)
    (returned : pool.thread i = some (.pure value)) : value = result ∧ pool.shared.untimed = alone.untimed := by
  have stands : pool.shared.outcome = store.outcome ∧ ∀ i program, pool.thread i = some program →
    At pool.shared program := by
    apply invariant exclusive_step ran obeyed
    refine ⟨rfl, fun j program standing => ?_⟩
    cases standing
    exact .opening rfl
  obtain ⟨ended, opened⟩ := (stands.2 i _ returned).ended
  obtain ⟨finished, known⟩ := perform_outcome single clock
  have whole := stands.1
  rw [ended, finished] at whole
  simp only [Prod.mk.injEq] at whole
  exact ⟨whole.1, untimed_eq opened known whole.2.1 whole.2.2⟩

end

def empty : Content := ⟨⟨[], []⟩, rfl⟩

def fresh : Versioned := ⟨((schemaSql.run empty).toOption.map (·.2)).getD empty, none⟩

instance : DecidablePred Readable := fun now =>
  match read : formatTime now with
  | .ok text => .isTrue ⟨text, read⟩
  | .error _ => .isFalse fun ⟨_, other⟩ => by cases read.symm.trans other

instance : DecidablePred Migrating
  | .pure _ | .request .createMigrations _ | .request .currentVersion _ => .isFalse (by rintro ⟨_, ⟨⟩⟩)
  | .request (.migrate migration) _ => .isTrue ⟨migration, rfl⟩

instance (pool : Processes (Fin 2)) : DecidablePred (Exclusive pool)
  | .step i now => decidable_of_iff (Readable now ∧ ∀ program ∈ pool.thread i, Migrating program →
      ∀ j, j ≠ i → ∀ other ∈ pool.thread j, ¬ Migrating other) (by simp only [Exclusive, Option.mem_def]; grind)
  | .drop _ => .isTrue trivial

/-- The second process has made the table when the first applies all migrations, and then
finds nothing left to do. -/
def inTurn : List (PoolEvent (Fin 2) Int) := .step 1 0 :: List.replicate 11 (.step 0 0) ++ [.step 1 0]

theorem processes_apply_as_one_fresh :
    ∃ alone pool, apply.run.perform serve (List.replicate 11 0) fresh = some (.ok (), alone) ∧
    exec (Pool.step fun _ => serve) (starting fresh) inTurn = some pool ∧ pool.thread 1 = some (.pure (.ok ())) ∧
    pool.shared.untimed = alone.untimed := by
  have ends : (apply.run.perform serve (List.replicate 11 0) fresh).map (·.1) = some (.ok ()) := by decide +kernel
  have obeyed : Obeys (Pool.step fun _ => serve) Exclusive (starting fresh) inTurn := by decide +kernel
  have both : ((exec (Pool.step fun _ => serve) (starting fresh) inTurn).bind fun pool =>
    (pool.thread 1).bind Program.ended).isSome := by
    decide +kernel
  obtain ⟨⟨result, alone⟩, single, rfl⟩ := Option.map_eq_some_iff.mp ends
  obtain ⟨value, found⟩ := Option.isSome_iff_exists.mp both
  obtain ⟨pool, ran, ended⟩ := Option.bind_eq_some_iff.mp found
  obtain ⟨program, standing, stopped⟩ := Option.bind_eq_some_iff.mp ended
  rw [Program.ended_eq_some] at stopped
  subst stopped
  obtain ⟨rfl, same⟩ := processes_apply_as_one fresh alone _ _ single (by decide) inTurn pool ran
    obeyed 1 value standing
  exact ⟨alone, pool, single, ran, standing, same⟩

/-- Both processes read version 0, and the second cannot record the first migration again. -/
theorem second_process_fails : ∃ pool, exec (Pool.step fun _ => serve) (starting fresh : Processes (Fin 2))
        [.step 0 0, .step 0 0, .step 1 0, .step 1 0, .step 0 0, .step 1 0] = some pool ∧
          pool.thread 1 = some (.pure (.error .sqlite)) ∧
      (apply.run.perform serve (List.replicate 11 0) fresh).map (·.1) = some (.ok ()) := by
  have ends : ((exec (Pool.step fun _ => serve) (starting fresh : Processes (Fin 2))
      [.step 0 0, .step 0 0, .step 1 0, .step 1 0, .step 0 0, .step 1 0]).bind fun pool =>
        (pool.thread 1).bind Program.ended) =
      some (.error .sqlite) := by decide +kernel
  obtain ⟨pool, ran, ended⟩ := Option.bind_eq_some_iff.mp ends
  obtain ⟨program, standing, stopped⟩ := Option.bind_eq_some_iff.mp ended
  rw [Program.ended_eq_some] at stopped
  exact ⟨pool, ran, stopped ▸ standing, by decide +kernel⟩

end Bento.Store.Migrate
