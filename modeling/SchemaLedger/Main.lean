import SchemaLedger.Command.Arguments
import SchemaLedger.Command.Inspect

/-!
# The command line

Reads arguments and files, lets a command decide, and writes what it leaves behind. Nothing is
decided here apart from where bytes come from and where they go.
-/

namespace SchemaLedger.Program

open Command

/-- A handle on a file, if there is such a file. -/
def handle? (path : String) : IO (Option IO.FS.Handle) := do
  try
    return some (← IO.FS.Handle.mk path .readWrite)
  catch
    | .noFileOrDirectory .. => return none
    | e => throw e

/-- The content that bytes give. -/
def contentOf (bytes : ByteArray) : FileContent :=
  match String.fromUTF8? bytes with
  | some s => .text s
  | none => .binary

/-- Lets a command work on the model file while it is locked. -/
def withModelFile (path : String) (command : ModelFile → CommandResult) : IO CommandResult := do
  match ← handle? path with
  | none =>
    let result := command { path }
    match result.file.content with
    | some (.text s) => IO.FS.writeFile path s
    | _ => pure ()
    return result
  | some h =>
    let free ← h.tryLock
    let content ← if free then contentOf <$> h.readBinToEnd else pure (.text "")
    let result := command { path, content := some content, locked := !free }
    match result.file.content with
    | some (.text s) =>
      if free ∧ content ≠ .text s then
        h.rewind
        h.truncate
        h.putStr s
        h.flush
    | _ => pure ()
    return result

/-- The text of a file, if there is one. -/
def text? (path : String) : IO (Option String) := do
  try
    return some (← IO.FS.readFile path)
  catch _ => return none

/-- The seed that is given, or one that nobody can guess. -/
def seedOf (given : Option UInt64) : IO UInt64 := do
  match given with
  | some seed => return seed
  | none => return (← IO.getRandomBytes 8).foldl (fun seed byte => seed <<< 8 ||| byte.toUInt64) 0

/-- Prints what a command has printed and ends as it has ended. -/
def finish (result : CommandResult) : IO UInt32 := do
  IO.print result.printed
  match result.error with
  | none => return 0
  | some e =>
    IO.eprintln s!"Error: {e.message}"
    return 1

/-- Carries out a command. -/
def carryOut (given : Arguments) (action : Action) : IO UInt32 := do
  let path := given.modelPath
  match action with
  | .sync =>
    match given.schemaPath with
    | none => usage .noSchema
    | some schemaPath =>
      let settings : RunSettings :=
        { uids := .ofSeed (← seedOf given.seed)
          createIfMissing := given.createIfMissing
          version := given.documentVersion }
      let schema ← text? schemaPath
      finish (← withModelFile path (Command.sync settings schemaPath schema))
  | .inspect => finish (← withModelFile path (Command.inspect given.format))
  | .verify => finish (← withModelFile path Command.verify)
  | .uid =>
    let uids := UidSource.ofSeed (← seedOf given.seed)
    finish (← withModelFile path (Command.freshUid uids))
  | .version =>
    IO.println s!"Model format v{currentFormat.toNat} (reads v{oldestFormat.toNat} and later)"
    return 0
where
  /-- Tells what is wrong with the arguments. -/
  usage (e : ArgumentError) : IO UInt32 := do
    IO.eprintln s!"Error: {e.message}"
    return 2

end SchemaLedger.Program

/-- Runs the command that the arguments name. -/
def main (arguments : List String) : IO UInt32 :=
  match SchemaLedger.Command.Arguments.read arguments with
  | .error e => SchemaLedger.Program.carryOut.usage e
  | .ok given =>
    match given.action with
    | none => SchemaLedger.Program.carryOut.usage .noAction
    | some action => SchemaLedger.Program.carryOut given action
