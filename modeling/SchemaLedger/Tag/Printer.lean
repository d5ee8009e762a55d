import SchemaLedger.Tag.Token

/-!
# Writing annotations

A set is written in the order of its keys with commas between the annotations. A value is put in
quotes if it is empty or holds a character that would end it or start something else.
-/

namespace SchemaLedger

open Tag

/-- The value has to be in quotes. -/
def Detail.needsQuotes (text : String) : Bool :=
  text.toList.isEmpty ||
    text.toList.any fun c => isSeparator c || c = '=' || c = ':' || c = '(' || c = ')'

/-- A name with its value. -/
def Detail.printValue (key text : String) : String :=
  if needsQuotes text then s!"{key}=\"{text}\"" else s!"{key}={text}"

/-- A detail under its name. -/
def Detail.print (key : String) : Detail → String
  | flag => key
  | value text => printValue key text

/-- The details of a group. -/
def KeyMap.printDetails (details : KeyMap Detail) : String :=
  ",".intercalate (details.entries.map fun (key, d) => d.print key)

/-- An annotation under its key. -/
def Annotation.print (key : String) : Annotation → String
  | flag => key
  | value text => Detail.printValue key text
  | group name details => s!"{name}({details.printDetails})"

/-- The text of a set. -/
def Annotations.print (set : Annotations) : String :=
  ",".intercalate (set.entries.map fun (key, a) => a.print key)

end SchemaLedger
