/-!
# Names without regard to case

Names of entities, properties and relations are compared without regard to the case of ASCII
letters. Letters beyond ASCII are compared as they are, so `É` and `é` differ.
-/

namespace SchemaLedger.Text

/-- A text with its ASCII letters in lower case. -/
def foldCase (s : String) : String := String.ofList (s.toList.map Char.toLower)

/-- Two names are the same if they differ at most in the case of ASCII letters. -/
def SameName (a b : String) : Prop := foldCase a = foldCase b

instance : DecidableRel SameName := fun a b => inferInstanceAs (Decidable (foldCase a = foldCase b))

variable {a b c : String}

theorem SameName.refl (a : String) : SameName a a := rfl

theorem SameName.symm (h : SameName a b) : SameName b a := Eq.symm h

theorem SameName.trans (h : SameName a b) (h' : SameName b c) : SameName a c := Eq.trans h h'

end SchemaLedger.Text
