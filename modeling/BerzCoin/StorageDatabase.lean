import BerzCoin.CoreSerialization
import BerzCoin.KeyedRows
import BerzCoin.SqlConnection

/-! `Database`: statements and transaction blocks on one connection. An action keeps the
state it has reached when it raises. The data `σ` is what the file holds and `ι` is the
memory of the process, which no rollback restores. -/
namespace BerzCoin

def PyError.message : PyError → String
  | .valueError msg | .structError msg | .indexError msg | .typeError msg | .overflowError msg
  | .storageError msg | .runtimeError msg | .attributeError msg => msg

structure Session (σ ι : Type) where
  conn : SqlConnection σ
  memory : ι

abbrev Db (σ ι α : Type) := EStateM PyError (Session σ ι) α

/-- The state in which an action ends, also when it raises. -/
def Db.final {σ ι α : Type} (x : Db σ ι α) (s : Session σ ι) : Session σ ι :=
  match x s with
  | .ok _ s' => s'
  | .error _ s' => s'

section equations
variable {σ ι α β : Type} (s : Session σ ι)

lemma Db.pure_apply (a : α) : (pure a : Db σ ι α) s = .ok a s := rfl

lemma Db.throw_apply (e : PyError) : (throw e : Db σ ι α) s = .error e s := rfl

lemma Db.bind_apply (x : Db σ ι α) (f : α → Db σ ι β) :
    (x >>= f) s = match x s with
      | .ok a s' => f a s'
      | .error e s' => .error e s' := by
  simp only [bind, EStateM.bind]
  cases x s <;> rfl

lemma Db.tryCatch_apply (x : Db σ ι α) (h : PyError → Db σ ι α) :
    (tryCatch x h : Db σ ι α) s = match x s with
      | .ok a s' => .ok a s'
      | .error e s' => h e s' := by
  simp only [tryCatch, tryCatchThe, MonadExceptOf.tryCatch, EStateM.tryCatch]
  cases x s <;> rfl

lemma Db.final_bind (x : Db σ ι α) (f : α → Db σ ι β) :
    Db.final (x >>= f) s = match x s with
      | .ok a s' => (f a).final s'
      | .error _ s' => s' := by
  unfold Db.final
  rw [Db.bind_apply]
  cases x s <;> rfl

lemma Db.final_tryCatch (x : Db σ ι α) (h : PyError → Db σ ι α) :
    Db.final (tryCatch x h : Db σ ι α) s = match x s with
      | .ok _ s' => s'
      | .error e s' => (h e).final s' := by
  unfold Db.final
  rw [Db.tryCatch_apply]
  cases x s <;> rfl

end equations

/-- A statement that fails changes no row. -/
structure Statement (σ α : Type) where
  isDml : Bool
  run : σ → Except PyError (σ × α)

namespace Statement
variable {σ α : Type}

def query (f : σ → α) : Statement σ α := ⟨false, fun data => .ok (data, f data)⟩

def change (f : σ → σ) : Statement σ Unit := ⟨true, fun data => .ok (f data, ())⟩

end Statement

namespace Database
variable {σ ι α β : Type}

/-- In the legacy isolation mode a data-changing statement opens a transaction, also when
the statement itself then fails. -/
def execute (stmt : Statement σ α) : Db σ ι α := fun s =>
  let c := if stmt.isDml then s.conn.openImplicitly else s.conn
  match stmt.run c.current with
  | .ok (data, a) => .ok a { s with conn := c.write data }
  | .error e => .error e { s with conn := c }

/-- Whether a block is the outermost one is read off the connection. What is raised is an
`Exception`; the others (`KeyboardInterrupt`, `CancelledError`), which leave an outermost
transaction open, are left out. -/
def transaction (body : Db σ ι α) : Db σ ι α := fun s =>
  if s.conn.inTransaction then
    match body s with
    | .ok a s' => .ok a s'
    | .error e s' => .error (.storageError ("Transaction failed: " ++ e.message)) s'
  else
    match body { s with conn := s.conn.begin } with
    | .ok a s' => .ok a { s' with conn := s'.conn.commit }
    | .error e s' =>
      .error (.storageError ("Transaction failed: " ++ e.message))
        { s' with conn := s'.conn.rollback }

/-- An action on the memory of the process. -/
def onMemory (f : ι → α × ι) : Db σ ι α := fun s =>
  .ok (f s.memory).1 { s with memory := (f s.memory).2 }

/-- Code that reaches the connection through `execute` and `transaction` only. -/
inductive Client : {α : Type} → Db σ ι α → Prop
  | ret {α : Type} (a : α) : Client (pure a)
  | raise {α : Type} (e : PyError) : Client (throw e : Db σ ι α)
  | memory {α : Type} (f : ι → α × ι) : Client (onMemory f)
  | execute {α : Type} (stmt : Statement σ α) : Client (execute stmt)
  | bind {α β : Type} {x : Db σ ι α} {f : α → Db σ ι β} :
      Client x → (∀ a, Client (f a)) → Client (x >>= f)
  | handle {α : Type} {x : Db σ ι α} {h : PyError → Db σ ι α} :
      Client x → (∀ e, Client (h e)) → Client (tryCatch x h)
  | transaction {α : Type} {body : Db σ ι α} : Client body → Client (transaction body)

/-- What client code cannot change while a transaction is open. -/
structure SameTransaction (c c' : SqlConnection σ) : Prop where
  file : c'.file = c.file
  isOpen : c'.open?.isSome = true
  savepoints : c'.open?.map SqlTransaction.savepoints = c.open?.map SqlTransaction.savepoints
  bySavepoint : c'.open?.map SqlTransaction.bySavepoint = c.open?.map SqlTransaction.bySavepoint

lemma SameTransaction.refl {c : SqlConnection σ} (h : c.inTransaction = true) :
    SameTransaction c c := ⟨rfl, h, rfl, rfl⟩

lemma SameTransaction.trans {c c' c'' : SqlConnection σ} (h : SameTransaction c c')
    (h' : SameTransaction c' c'') : SameTransaction c c'' :=
  ⟨h'.file.trans h.file, h'.isOpen, h'.savepoints.trans h.savepoints,
    h'.bySavepoint.trans h.bySavepoint⟩

lemma SameTransaction.write {c : SqlConnection σ} (h : c.inTransaction = true) (data : σ) :
    SameTransaction c (c.write data) := by
  obtain ⟨file, _ | t⟩ := c
  · cases h
  · exact ⟨rfl, rfl, rfl, rfl⟩

/-- Rolling back to a savepoint and releasing it leaves the connection as it was before the
savepoint, whatever client code ran in between. -/
lemma release_rollbackTo {name : String} {c c' : SqlConnection σ}
    (h : SameTransaction (c.savepoint name) c') :
    ∃ c'', c'.rollbackTo name = some c'' ∧ c''.release name = some c := by
  obtain ⟨file, _ | t⟩ := c
  · obtain ⟨file', _ | t'⟩ := c'
    · cases h.isOpen
    · obtain ⟨current', savepoints', bySavepoint', outermost'⟩ := t'
      have hfile : file' = file := h.file
      have hpoints : savepoints' = [(name, file)] := by
        simpa [SqlConnection.savepoint] using h.savepoints
      have hby : bySavepoint' = true := by simpa [SqlConnection.savepoint] using h.bySavepoint
      subst hfile hpoints hby
      refine ⟨_, by simp [SqlConnection.rollbackTo, SqlConnection.fromName]; rfl, ?_⟩
      simp [SqlConnection.release, SqlConnection.fromName]
  · obtain ⟨file', _ | t'⟩ := c'
    · cases h.isOpen
    · obtain ⟨current, savepoints, bySavepoint, outermost⟩ := t
      obtain ⟨current', savepoints', bySavepoint', outermost'⟩ := t'
      have hfile : file' = file := h.file
      have hpoints : savepoints' = (name, current) :: savepoints := by
        simpa [SqlConnection.savepoint] using h.savepoints
      have hby : bySavepoint' = bySavepoint := by
        simpa [SqlConnection.savepoint] using h.bySavepoint
      have hkeep : ¬ (savepoints = [] ∧ bySavepoint = true) := fun hc => outermost hc.2 hc.1
      subst hfile hpoints hby
      refine ⟨_, by simp [SqlConnection.rollbackTo, SqlConnection.fromName]; rfl, ?_⟩
      simp [SqlConnection.release, SqlConnection.fromName, hkeep]

lemma execute_of_open (stmt : Statement σ α) {s : Session σ ι} (h : s.conn.inTransaction = true) :
    execute stmt s =
      match stmt.run s.conn.current with
      | .ok (data, a) => .ok a { s with conn := s.conn.write data }
      | .error e => .error e s := by
  have hc : (if stmt.isDml then s.conn.openImplicitly else s.conn) = s.conn := by
    simp [SqlConnection.openImplicitly, h]
  simp only [execute, hc]

lemma transaction_of_open (body : Db σ ι α) {s : Session σ ι} (h : s.conn.inTransaction = true) :
    (transaction body).final s = body.final s := by
  simp only [Db.final, transaction, h, if_true]
  cases body s <;> rfl

/-- An open transaction outlives any client code, nested blocks included. -/
theorem Client.sameTransaction {x : Db σ ι α} (hx : Client x) {s : Session σ ι}
    (h : s.conn.inTransaction = true) : SameTransaction s.conn (x.final s).conn := by
  induction hx generalizing s with
  | ret a => exact SameTransaction.refl h
  | raise e => exact SameTransaction.refl h
  | memory f => exact SameTransaction.refl h
  | execute stmt =>
    simp only [Db.final, execute_of_open stmt h]
    cases stmt.run s.conn.current with
    | ok p => exact SameTransaction.write h p.1
    | error e => exact SameTransaction.refl h
  | @bind α β x f hx hf ihx ihf =>
    have h1 := ihx h
    rw [Db.final_bind]
    simp only [Db.final] at h1
    cases hxs : x s with
    | ok a s' =>
      rw [hxs] at h1
      exact h1.trans (ihf a h1.isOpen)
    | error e s' =>
      rw [hxs] at h1
      exact h1
  | @handle α x k hx hk ihx ihk =>
    have h1 := ihx h
    rw [Db.final_tryCatch]
    simp only [Db.final] at h1
    cases hxs : x s with
    | ok a s' =>
      rw [hxs] at h1
      exact h1
    | error e s' =>
      rw [hxs] at h1
      exact h1.trans (ihk e h1.isOpen)
  | transaction hbody ih =>
    rw [transaction_of_open _ h]
    exact ih h

/-- A block that opens its own transaction has committed everything when it returns. -/
lemma transaction_ok_of_closed {body : Db σ ι α} {s s' : Session σ ι} {a : α}
    (h : s.conn.inTransaction = false) (hs : transaction body s = .ok a s') :
    s'.conn.inTransaction = false := by
  simp only [transaction, h] at hs
  cases hb : body { s with conn := s.conn.begin } with
  | error e t => simp [hb] at hs
  | ok b t =>
    simp only [hb] at hs
    cases hs
    rfl

/-- A block that opens its own transaction leaves the connection as it found it when it
raises. -/
lemma transaction_error_of_closed {body : Db σ ι α} (hbody : Client body) {s s' : Session σ ι}
    {e : PyError} (h : s.conn.inTransaction = false) (hs : transaction body s = .error e s') :
    s'.conn = s.conn := by
  simp only [transaction, h] at hs
  cases hb : body { s with conn := s.conn.begin } with
  | ok a t => simp [hb] at hs
  | error e' t =>
    simp only [hb] at hs
    cases hs
    have hopen : s.conn.begin.inTransaction = true := rfl
    have hsame := hbody.sameTransaction (s := { s with conn := s.conn.begin }) hopen
    simp only [Db.final, hb] at hsame
    have hnone : s.conn.open? = none := by simpa [SqlConnection.inTransaction] using h
    have hfile : t.conn.file = s.conn.file := hsame.file
    simp only [SqlConnection.rollback, hfile]
    rw [← hnone]

/-! Sequences of calls at the top level of a program. -/

inductive Call (σ ι : Type) : Type 1
  | plain {α : Type} (stmt : Statement σ α)
  | block {α : Type} (body : Db σ ι α) (client : Client body)

def Call.run : Call σ ι → Session σ ι → Session σ ι
  | .plain stmt, s => (execute stmt).final s
  | .block body _, s => (transaction body).final s

/-- A data-changing statement outside of any block. -/
def Call.isPlainWrite : Call σ ι → Bool
  | .plain stmt => stmt.isDml
  | .block _ _ => false

def runCalls (calls : List (Call σ ι)) (s : Session σ ι) : Session σ ι :=
  calls.foldl (fun s call => call.run s) s

/-- A block commits all it wrote when it returns, and undoes what it wrote and nothing else
when it raises. -/
def Scoped (body : Db σ ι α) (s : Session σ ι) : Prop :=
  (∀ a s', transaction body s = .ok a s' → s'.conn.close = s'.conn.current) ∧
    ∀ e s', transaction body s = .error e s' →
      s'.conn.current = s.conn.current ∧ s'.conn.close = s.conn.close

lemma close_eq_current {c : SqlConnection σ} (h : c.inTransaction = false) : c.close = c.current := by
  obtain ⟨file, _ | t⟩ := c
  · rfl
  · cases h

lemma scoped_of_closed {body : Db σ ι α} (hbody : Client body) {s : Session σ ι}
    (h : s.conn.inTransaction = false) : Scoped body s := by
  refine ⟨?_, ?_⟩
  · intro a s' hs
    exact close_eq_current (transaction_ok_of_closed h hs)
  · intro e s' hs
    rw [transaction_error_of_closed hbody h hs]
    exact ⟨rfl, rfl⟩

lemma Call.run_closed {call : Call σ ι} (hcall : call.isPlainWrite = false) {s : Session σ ι}
    (h : s.conn.inTransaction = false) : (call.run s).conn.inTransaction = false := by
  cases call with
  | plain stmt =>
    have hdml : stmt.isDml = false := hcall
    have hnone : s.conn.open? = none := by simpa [SqlConnection.inTransaction] using h
    simp only [Call.run, Db.final, execute, hdml, Bool.false_eq_true, if_false]
    cases stmt.run s.conn.current with
    | error e => exact h
    | ok p => simp [SqlConnection.write, hnone, SqlConnection.inTransaction]
  | block body client =>
    simp only [Call.run, Db.final]
    cases hs : transaction body s with
    | ok a s' => exact transaction_ok_of_closed h hs
    | error e s' => exact (transaction_error_of_closed client h hs) ▸ h

lemma Call.run_open (call : Call σ ι) {s : Session σ ι} (h : s.conn.inTransaction = true) :
    SameTransaction s.conn (call.run s).conn := by
  cases call with
  | plain stmt => exact (Client.execute stmt).sameTransaction h
  | block body client => exact client.transaction.sameTransaction h

lemma Call.run_plainWrite {call : Call σ ι} (hcall : call.isPlainWrite = true) (s : Session σ ι) :
    (call.run s).conn.inTransaction = true := by
  have hopen := s.conn.inTransaction_openImplicitly
  cases call with
  | plain stmt =>
    have hdml : stmt.isDml = true := hcall
    simp only [Call.run, Db.final, execute, hdml, if_true]
    cases stmt.run s.conn.openImplicitly.current with
    | error e => exact hopen
    | ok p => exact (SameTransaction.write hopen p.1).isOpen
  | block body client => cases hcall

lemma runCalls_closed {calls : List (Call σ ι)} (hcalls : ∀ call ∈ calls, call.isPlainWrite = false)
    {s : Session σ ι} (h : s.conn.inTransaction = false) :
    (runCalls calls s).conn.inTransaction = false := by
  induction calls generalizing s with
  | nil => exact h
  | cons call calls ih =>
    have hcall := hcalls call (List.mem_cons_self ..)
    exact ih (fun c hc => hcalls c (List.mem_cons_of_mem _ hc)) (Call.run_closed hcall h)

lemma runCalls_open (calls : List (Call σ ι)) {s : Session σ ι} (h : s.conn.inTransaction = true) :
    (runCalls calls s).conn.inTransaction = true := by
  induction calls generalizing s with
  | nil => exact h
  | cons call calls ih => exact ih (call.run_open h).isOpen

lemma runCalls_of_plainWrite {calls : List (Call σ ι)} {call : Call σ ι} (hmem : call ∈ calls)
    (hcall : call.isPlainWrite = true) (s : Session σ ι) :
    (runCalls calls s).conn.inTransaction = true := by
  induction calls generalizing s with
  | nil => cases hmem
  | cons call' calls ih =>
    rcases List.mem_cons.1 hmem with rfl | hmem
    · exact runCalls_open calls (Call.run_plainWrite hcall s)
    · exact ih hmem _

/-- Inside a transaction that a plain write has opened, a block commits nothing. -/
lemma not_scoped_of_open [Nontrivial σ] {s : Session σ ι} (h : s.conn.inTransaction = true) :
    ∃ data : σ, ¬ Scoped (execute (Statement.change fun _ => data)) s := by
  obtain ⟨data, hdata⟩ := exists_ne s.conn.file
  refine ⟨data, ?_⟩
  rintro ⟨hok, -⟩
  have hrun : transaction (execute (Statement.change fun _ => data)) s =
      .ok () { s with conn := s.conn.write data } := by
    simp only [transaction, h, if_true, execute_of_open _ h, Statement.change]
  have hfile : (s.conn.write data).file = s.conn.file := (SameTransaction.write h data).file
  have hclose := hok () _ hrun
  simp only [SqlConnection.close, SqlConnection.current_write, hfile] at hclose
  exact hdata hclose.symm

/-- After a sequence of calls every block is scoped exactly when no data-changing statement
of the sequence was executed outside a block. -/
theorem blocks_scoped_iff [Nontrivial σ] (calls : List (Call σ ι)) (s : Session σ ι)
    (h : s.conn.inTransaction = false) :
    (∀ (α : Type) (body : Db σ ι α), Client body → Scoped body (runCalls calls s)) ↔
      ∀ call ∈ calls, call.isPlainWrite = false := by
  constructor
  · intro hscoped call hmem
    by_contra hcall
    have hopen := runCalls_of_plainWrite hmem (by simpa using hcall) s
    obtain ⟨data, hdata⟩ := not_scoped_of_open hopen
    exact hdata (hscoped Unit _ (Client.execute _))
  · intro hcalls α body hbody
    exact scoped_of_closed hbody (runCalls_closed hcalls h)

section migrations

/-- The table `migrations`: version, time of application and description. -/
abbrev MigrationRows := KeyedRows ℕ (ℕ × String)

/-- `record_migration`, a plain `INSERT`. -/
def recordMigration (version appliedAt : ℕ) (description : String) :
    Statement MigrationRows Unit where
  isDml := true
  run rows :=
    match rows.insert? version (appliedAt, description) with
    | some rows' => .ok (rows', ())
    | none => .error (.storageError "Query failed: UNIQUE constraint failed: migrations.version")

def freshSession : Session MigrationRows Unit := ⟨⟨KeyedRows.empty, none⟩, ()⟩

instance : Nontrivial MigrationRows :=
  ⟨KeyedRows.empty, KeyedRows.empty.insertOrReplace 1 (0, ""), by decide⟩

theorem blocks_scoped_iff_migrations :
    freshSession.conn.inTransaction = false ∧
      ((∀ (α : Type) (body : Db MigrationRows Unit α), Client body →
          Scoped body (runCalls [.block (execute (recordMigration 1 0 "Initial schema"))
            (Client.execute _)] freshSession)) ↔
        ∀ call ∈ [Call.block (ι := Unit) (execute (recordMigration 1 0 "Initial schema"))
          (Client.execute _)], call.isPlainWrite = false) :=
  ⟨rfl, blocks_scoped_iff _ _ rfl⟩

/-- A block that writes a second row after a plain `record_migration` and returns. -/
theorem block_after_plainWrite_not_committed :
    ¬ Scoped (execute (recordMigration 2 0 "Add address indexes"))
      (runCalls [.plain (recordMigration 1 0 "Initial schema")] freshSession) := by
  rintro ⟨hok, -⟩
  have hlost := hok () _ rfl
  revert hlost
  decide

end migrations

end Database
end BerzCoin
