import SchemaLedger.File.Basic

/-!
# Arguments of the command line

The arguments name one command. Options may stand before or behind it; where an option is given
twice, the last one counts.
-/

namespace SchemaLedger.Command

open Numeral

/-- The commands. -/
inductive Action where
  | sync
  | inspect
  | verify
  | uid
  | version
deriving DecidableEq, Repr

/-- The command with the given name. -/
def Action.ofName? : String → Option Action
  | "sync" => some sync
  | "inspect" => some inspect
  | "verify" => some verify
  | "uid" => some uid
  | "version" => some version
  | _ => none

/-- Why arguments make no sense. -/
inductive ArgumentError where
  | unknown (argument : String)
  | notUnsigned (value : String) (cause : UnsignedError)
  | noAction
  | noSchema
deriving DecidableEq, Repr

/-- The text shown for each cause. -/
def ArgumentError.message : ArgumentError → String
  | unknown argument => s!"unexpected argument '{argument}'"
  | notUnsigned value cause => s!"can't parse '{value}': {cause.message}"
  | noAction => "one of the commands sync, inspect, verify, uid and version is needed"
  | noSchema => "sync needs a schema, given with --schema"

/-- What the arguments say. -/
structure Arguments where
  action : Option Action := none
  modelPath : String := ModelFile.defaultPath
  schemaPath : Option String := none
  seed : Option UInt64 := none
  documentVersion : Option UInt32 := none
  createIfMissing : Bool := true
  /-- How `inspect` shows a model. -/
  format : String := "text"
deriving DecidableEq, Repr

namespace Arguments

/-- Reads a number with the given reader. -/
def readNumber {α : Type} (read : List Char → Except UnsignedError α) (value : String) :
    Except ArgumentError α :=
  match read value.toList with
  | .ok n => .ok n
  | .error cause => .error (.notUnsigned value cause)

/-- Takes up arguments, in order. -/
def takeUp (given : Arguments) : List String → Except ArgumentError Arguments
  | [] => .ok given
  | "--no-create" :: rest => takeUp { given with createIfMissing := false } rest
  | [argument] => takeAction given argument
  | argument :: value :: rest =>
    if argument = "--model" ∨ argument = "-m" then takeUp { given with modelPath := value } rest
    else if argument = "--schema" ∨ argument = "-s" then
      takeUp { given with schemaPath := some value } rest
    else if argument = "--format" ∨ argument = "-f" then takeUp { given with format := value } rest
    else if argument = "--seed" then do
      let seed ← readNumber readUInt64 value
      takeUp { given with seed := some seed } rest
    else if argument = "--doc-version" then do
      let version ← readNumber readUInt32 value
      takeUp { given with documentVersion := some version } rest
    else do
      let given ← takeAction given argument
      takeUp given (value :: rest)
where
  /-- Takes up the name of the command. -/
  takeAction (given : Arguments) (argument : String) : Except ArgumentError Arguments :=
    match given.action, Action.ofName? argument with
    | none, some action => .ok { given with action := some action }
    | _, _ => .error (.unknown argument)

/-- Reads arguments. -/
def read (arguments : List String) : Except ArgumentError Arguments := takeUp {} arguments

end Arguments

end SchemaLedger.Command
