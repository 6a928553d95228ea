import SqlTemplate.Query.Terminal

/-! Executing built queries. A client is whatever reaches a database; everything that is sent to
it is built and checked first, so a query that fails to build, or has positional
placeholders, does not reach it. -/

namespace SqlTemplate

/-- A connection to a database, with rows of type `Row`. -/
structure Client (m : Type → Type) (Row Statement : Type) where
  query : String → List Value → ExceptT Error m (List Row)
  execute : String → List Value → ExceptT Error m Nat
  prepare : String → ExceptT Error m Statement

namespace Client

variable {m : Type → Type} [Monad m] {Row Statement α : Type}

/-- The first row of a query, if there is one. -/
def queryOpt (client : Client m Row Statement) (sql : String) (args : List Value) :
    ExceptT Error m (Option Row) := do
  let rows ← client.query sql args
  return rows.head?

/-- The first row of a query. -/
def queryOne (client : Client m Row Statement) (sql : String) (args : List Value) :
    ExceptT Error m Row := do
  let rows ← client.query sql args
  match rows.head? with
  | none => throw (.ofCause (.notFound .noRow))
  | some row => return row

/-- The built query, if it can be executed. -/
def executable (prepared : Except Error Built) : ExceptT Error m Built := do
  let b ← liftExcept prepared
  liftExcept b.checkExecutable
  return b
where
  liftExcept {β : Type} (x : Except Error β) : ExceptT Error m β := ExceptT.mk (pure x)

/-- All rows. -/
def fetchAll (client : Client m Row Statement) (prepared : Except Error Built) :
    ExceptT Error m (List Row) := do
  let b ← executable prepared
  client.query b.sql b.args

/-- All rows, decoded. -/
def fetchAllAs (client : Client m Row Statement) (prepared : Except Error Built)
    (decode : Row → Except Error α) : ExceptT Error m (List α) := do
  let rows ← client.fetchAll prepared
  ExceptT.mk (pure (rows.mapM decode))

/-- The first row, if there is one. -/
def fetchOpt (client : Client m Row Statement) (prepared : Except Error Built) :
    ExceptT Error m (Option Row) := do
  let b ← executable prepared
  client.queryOpt b.sql b.args

/-- The first row, if there is one, decoded. -/
def fetchOptAs (client : Client m Row Statement) (prepared : Except Error Built)
    (decode : Row → Except Error α) : ExceptT Error m (Option α) := do
  match ← client.fetchOpt prepared with
  | none => return none
  | some row => some <$> ExceptT.mk (pure (decode row))

/-- The first row. -/
def fetchOne (client : Client m Row Statement) (prepared : Except Error Built) :
    ExceptT Error m Row := do
  let b ← executable prepared
  client.queryOne b.sql b.args

/-- The first row, decoded. -/
def fetchOneAs (client : Client m Row Statement) (prepared : Except Error Built)
    (decode : Row → Except Error α) : ExceptT Error m α := do
  let row ← client.fetchOne prepared
  ExceptT.mk (pure (decode row))

/-- The only column of the first row. -/
def fetchScalar (client : Client m Row Statement) (prepared : Except Error Built)
    (decode : Row → Except Error α) : ExceptT Error m α :=
  client.fetchOneAs prepared decode

/-- The number of rows that a statement affects. -/
def run (client : Client m Row Statement) (prepared : Except Error Built) :
    ExceptT Error m Nat := do
  let b ← executable prepared
  client.execute b.sql b.args

/-- The number of rows of a query. -/
def count (client : Client m Row Statement) (q : Query) (decode : Row → Except Error α) :
    ExceptT Error m α :=
  client.fetchScalar (Query.buildCount q []).result decode

end Client

end SqlTemplate
