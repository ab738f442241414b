/-!
# Errors of the local store

The store refuses an operation with a text and, where the operating system refused it, with the
number of that error.
-/

namespace ReplicaHandshake

/-- An operation of the local store. -/
inductive StoreOperation where
  | tableExists
  | openWriter
  | createTable
deriving DecidableEq, Repr

/-- The name of an operation in messages. -/
def StoreOperation.name : StoreOperation → String
  | tableExists => "table_exists"
  | openWriter => "open_writer"
  | createTable => "create_table"

/-- An error of the local store. -/
structure StoreError where
  errno : Option Int := none
  text : String
deriving DecidableEq, Repr

/-- The wording of a store error: its text, and its number where it has one. -/
def StoreError.message (e : StoreError) : String :=
  match e.errno with
  | some errno => s!"{e.text} (errno {errno})"
  | none => e.text

end ReplicaHandshake
