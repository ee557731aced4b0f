import GoGraft.File.Addition
import GoGraft.File.Lookup

/-! Changes of a file that have been checked and can be applied. -/

namespace GoGraft

inductive Change where
  | addField (record : Text) (field : NewField)
  | addType (type : NewType) (placement : Placement)
  | addImport (path : Text) (localName : Option Text)
deriving DecidableEq, Repr

/-- Whether a change had something left to do. -/
inductive Outcome where
  | applied
  | alreadyPresent
deriving DecidableEq, Repr

def Placement.describe : Placement → Text
  | .last => []
  | .after name => " after ".toList ++ name
  | .before name => " before ".toList ++ name

def Change.describe : Change → Text
  | .addField record field =>
      "add field ".toList ++ record ++ '.' :: field.name ++ ' ' :: field.type.render
  | .addType type placement => "add type ".toList ++ type.name ++ placement.describe
  | .addImport path localName => "add import ".toList ++ renderImport path localName

end GoGraft
