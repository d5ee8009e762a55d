import SchemaLedger.File.Basic

/-!
# Handles on a model file

A handle keeps the lock of the file it was opened on. If that file is removed meanwhile, the handle
goes on with the removed file, and a new file of the same name is not locked.
-/

namespace SchemaLedger

/-- What a handle is on. -/
inductive FileHandle where
  /-- The file that has the name. -/
  | present
  /-- A file that has been removed, with its content. -/
  | removed (content : FileContent)
deriving DecidableEq, Repr

/-- A file name with at most one handle. -/
structure Desk where
  path : String
  content : Option FileContent := none
  handle : Option FileHandle := none
deriving DecidableEq, Repr

namespace Desk

/-- The file as everyone without the handle finds it. -/
def file (desk : Desk) : ModelFile :=
  { path := desk.path, content := desk.content, locked := desk.handle = some .present }

/-- The desk after the file has been used without the handle. -/
def withFile (desk : Desk) (file : ModelFile) : Desk := { desk with content := file.content }

/-- Writes the file, whether it is locked or not. -/
def write (desk : Desk) (content : FileContent) : Desk := { desk with content := some content }

/-- Removes the file. -/
def remove (desk : Desk) : Desk :=
  match desk.content, desk.handle with
  | some content, some .present =>
    { desk with content := none, handle := some (.removed content) }
  | _, _ => { desk with content := none }

/-- Lets the handle go. -/
def close (desk : Desk) : Desk := { desk with handle := none }

/-- Opens the file, with a handle that replaces the one there is. -/
def openFile (desk : Desk) (create : Bool) : Except ModelError Unit × Desk :=
  let desk := desk.close
  match desk.file.acquire create with
  | (.ok _, file) => (.ok (), { desk.withFile file with handle := some .present })
  | (.error e, file) => (.error e, desk.withFile file)

/-- The content of the file that the handle is on. -/
def handled (desk : Desk) : Option FileContent :=
  match desk.handle with
  | none => none
  | some .present => desk.content
  | some (.removed content) => some content

/-- Saves a model through the handle. -/
def save (desk : Desk) (m : Model) : Desk :=
  match desk.handle with
  | none => desk
  | some .present => desk.write (.ofModel m)
  | some (.removed _) => { desk with handle := some (.removed (.ofModel m)) }

end Desk

end SchemaLedger
