import ReplicaHandshake.Outside.Call

/-!
# A store that follows a script

The store of a rehearsal knows tables by name, each with a structure version and a number of rows.
Each of its operations may be told to fail.  It keeps track of the writers that are in use.
-/

namespace ReplicaHandshake.Rehearsal

/-- A table of the store. -/
structure Table where
  name : String
  structureVersion : UInt64
  rowCount : UInt64
deriving DecidableEq, Repr

/-- The store of a rehearsal. -/
structure Store where
  tables : List Table := []
  existsError : Option StoreError := none
  openError : Option StoreError := none
  createError : Option StoreError := none
  nextSerial : Nat := 1
  /-- The writers that were handed out and not released. -/
  inUse : List Nat := []

namespace Store

/-- The table of a name. -/
def table? (s : Store) (name : String) : Option Table :=
  s.tables.find? (·.name = name)

/-- Remove the table of a name. -/
def drop (s : Store) (name : String) : Store :=
  { s with tables := s.tables.filter (·.name ≠ name) }

/-- Put a table in place of any of its name. -/
def put (s : Store) (t : Table) : Store :=
  let s := s.drop t.name
  { s with tables := s.tables ++ [t] }

/-- Hand out a writer of a table. -/
def handOut (s : Store) (t : Table) : TableWriter × Store :=
  ({ serial := s.nextSerial, tableName := t.name, structureVersion := t.structureVersion,
     rowCount := t.rowCount },
   { s with nextSerial := s.nextSerial + 1, inUse := s.nextSerial :: s.inUse })

/-- Answer whether there is a table. -/
def answerExists (s : Store) (name : String) : Except StoreError Bool :=
  match s.existsError with
  | some e => .error e
  | none => .ok (s.table? name).isSome

/-- Open the writer of a table. -/
def answerOpen (s : Store) (name : String) : Except StoreError TableWriter × Store :=
  match s.openError, s.table? name with
  | some e, _ => (.error e, s)
  | none, none => (.error { text := s!"table {name} does not exist" }, s)
  | none, some t =>
    let (writer, s) := s.handOut t
    (.ok writer, s)

/-- The structure version that metadata start with, or zero if they are too short. -/
def versionOf (metadata : Bytes) : UInt64 :=
  if metadata.length < 8 then 0 else (LittleEndian.decode (metadata.take 8)).toUInt64

/-- Create a table without rows. -/
def answerCreate (s : Store) (name : String) (metadata : Bytes) :
    Except StoreError TableWriter × Store :=
  match s.createError with
  | some e => (.error e, s)
  | none =>
    let t := { name, structureVersion := versionOf metadata, rowCount := 0 }
    let (writer, s) := (s.put t).handOut t
    (.ok writer, s)

/-- Take a writer back. -/
def release (s : Store) (writer : TableWriter) : Store :=
  { s with inUse := s.inUse.filter (· ≠ writer.serial) }

end Store

end ReplicaHandshake.Rehearsal
