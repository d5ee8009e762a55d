/-!
# Notices

A notice tells of one change that merging has made.
-/

namespace SchemaLedger

/-- A change made by merging. -/
inductive Notice where
  | entityAdded (name : String)
  | entityRemoved (name : String)
  | entityRenamed (before after : String)
  /-- A property has come to an entity that was there before. -/
  | propertyAdded (owner name : String)
  | propertyRemoved (owner name : String)
  | propertyRenamed (owner before after : String)
  /-- A property has got another uid, and its values are lost. -/
  | propertyReset (owner name : String) (before after : UInt64)
  | indexAdded (owner name : String)
  | indexRemoved (owner name : String)
  | relationAdded (owner name : String)
  | relationRemoved (owner name : String)
  | relationRenamed (owner before after : String)
deriving DecidableEq, Repr

/-- The text shown for each change. -/
def Notice.message : Notice → String
  | entityAdded name => s!"added entity {name}"
  | entityRemoved name => s!"removed entity {name}"
  | entityRenamed before after => s!"renamed entity {before} to {after}"
  | propertyAdded owner name => s!"added property {owner}.{name}"
  | propertyRemoved owner name => s!"removed property {owner}.{name}"
  | propertyRenamed owner before after => s!"renamed property {owner}.{before} to {after}"
  | propertyReset owner name before after =>
    s!"new uid {after.toNat} was specified for property {owner}.{name} - " ++
      s!"resetting its data (uid {before.toNat} retired)"
  | indexAdded owner name => s!"added index on {owner}.{name}"
  | indexRemoved owner name => s!"removed index on {owner}.{name}"
  | relationAdded owner name => s!"added relation {owner}.{name}"
  | relationRemoved owner name => s!"removed relation {owner}.{name}"
  | relationRenamed owner before after => s!"renamed relation {owner}.{before} to {after}"

end SchemaLedger
