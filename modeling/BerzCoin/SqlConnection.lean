import Mathlib

/-! A connection to a transactional file. Outside a transaction every change goes to the
file at once; inside one the changes are held back until they are committed. -/

/-- What an open transaction holds: the data as its owner sees it, and a copy of the data
for each savepoint, the latest first. `bySavepoint` tells a transaction opened by a
savepoint, which lasts as long as that savepoint, from one opened by `BEGIN`. -/
structure SqlTransaction (σ : Type) where
  current : σ
  savepoints : List (String × σ)
  bySavepoint : Bool
  outermost : bySavepoint = true → savepoints ≠ []

/-- No savepoint opened a transaction that `BEGIN` opened. -/
lemma openedByBegin {σ : Type} : false = true → ([] : List (String × σ)) ≠ [] := by simp

structure SqlConnection (σ : Type) where
  file : σ
  open? : Option (SqlTransaction σ)

namespace SqlConnection
variable {σ : Type}

def inTransaction (c : SqlConnection σ) : Bool := c.open?.isSome

/-- The data that statements on this connection see. -/
def current (c : SqlConnection σ) : σ := (c.open?.map SqlTransaction.current).getD c.file

def begin (c : SqlConnection σ) : SqlConnection σ :=
  { c with open? := some ⟨c.current, [], false, openedByBegin⟩ }

def commit (c : SqlConnection σ) : SqlConnection σ := ⟨c.current, none⟩

def rollback (c : SqlConnection σ) : SqlConnection σ := { c with open? := none }

/-- Closing discards what has not been committed. -/
def close (c : SqlConnection σ) : σ := c.file

def write (c : SqlConnection σ) (data : σ) : SqlConnection σ :=
  match c.open? with
  | none => ⟨data, none⟩
  | some t => { c with open? := some { t with current := data } }

/-- A data-changing statement first opens a transaction if there is none. -/
def openImplicitly (c : SqlConnection σ) : SqlConnection σ :=
  if c.inTransaction then c else c.begin

def savepoint (name : String) (c : SqlConnection σ) : SqlConnection σ :=
  match c.open? with
  | none => { c with open? := some ⟨c.file, [(name, c.file)], true, by simp⟩ }
  | some t =>
    { c with open? := some { t with
        savepoints := (name, t.current) :: t.savepoints
        outermost := by simp } }

/-- The savepoints from the latest one of a name on. -/
def fromName (name : String) : List (String × σ) → List (String × σ) :=
  List.dropWhile (·.1 ≠ name)

/-- `ROLLBACK TO`: the savepoint itself stays. `none` when there is no such savepoint. -/
def rollbackTo (name : String) (c : SqlConnection σ) : Option (SqlConnection σ) :=
  match c.open? with
  | none => none
  | some t =>
    match fromName name t.savepoints with
    | [] => none
    | (n, data) :: older =>
      some { c with open? := some { t with
        current := data
        savepoints := (n, data) :: older
        outermost := by simp } }

/-- `RELEASE`: a transaction that its outermost savepoint opened is committed with it. -/
def release (name : String) (c : SqlConnection σ) : Option (SqlConnection σ) :=
  match c.open? with
  | none => none
  | some t =>
    match fromName name t.savepoints with
    | [] => none
    | _ :: older =>
      if h : older = [] ∧ t.bySavepoint = true then some ⟨t.current, none⟩
      else
        some { c with open? := some { t with
          savepoints := older
          outermost := fun ht hnil => h ⟨hnil, ht⟩ } }

@[simp] lemma current_write (c : SqlConnection σ) (data : σ) : (c.write data).current = data := by
  obtain ⟨file, _ | t⟩ := c <;> rfl

@[simp] lemma inTransaction_write (c : SqlConnection σ) (data : σ) :
    (c.write data).inTransaction = c.inTransaction := by
  obtain ⟨file, _ | t⟩ := c <;> rfl

@[simp] lemma inTransaction_openImplicitly (c : SqlConnection σ) :
    c.openImplicitly.inTransaction = true := by
  unfold openImplicitly
  split_ifs with h
  · exact h
  · rfl

@[simp] lemma current_openImplicitly (c : SqlConnection σ) : c.openImplicitly.current = c.current := by
  unfold openImplicitly
  split_ifs <;> rfl

end SqlConnection
