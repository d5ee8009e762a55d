import SchemaLedger.Model.Consistency

/-!
# Model files

A model is kept in a file that one program at a time may use. A file that is missing can be created;
then it is empty until a model is saved. A file of nothing but white space holds no model.
-/

namespace SchemaLedger

open Text

/-- What is in a file. -/
inductive FileContent where
  | text (s : String)
  /-- Bytes that are no text in UTF-8. -/
  | binary
deriving DecidableEq, Repr

/-- A file as a program finds it. -/
structure ModelFile where
  path : String
  /-- The file is missing if it has no content. -/
  content : Option FileContent := none
  /-- Another handle holds the lock. -/
  locked : Bool := false
deriving DecidableEq, Repr

/-- The name of a model file, unless another one is given. -/
def ModelFile.defaultPath : String := "objectbox-model.json"

/-- The model in a file, or nothing if the file is empty. -/
def FileContent.load (path : String) : FileContent → Except ModelError (Option Model)
  | binary => .error (.file .notText)
  | text s =>
    if IsBlankText s then .ok none else ((Place.modelFile path).wrap (Model.read s)).map some

/-- The content of a file that holds the model. -/
def FileContent.ofModel (m : Model) : FileContent := text m.text

namespace ModelFile

/-- Opens the file for exclusive use and gives its content. A missing file is created empty if this
is wanted, and stays even if something goes wrong later. -/
def acquire (file : ModelFile) (create : Bool) : Except ModelError FileContent × ModelFile :=
  match file.content with
  | none =>
    if create then
      let file := { file with content := some (.text "") }
      (if file.locked then .error (.modelLocked file.path) else .ok (.text ""), file)
    else (.error (.file (.missing file.path)), file)
  | some content =>
    (if file.locked then .error (.modelLocked file.path) else .ok content, file)

/-- The file with the model as its content. -/
def save (file : ModelFile) (m : Model) : ModelFile :=
  { file with content := some (.ofModel m) }

end ModelFile

end SchemaLedger
