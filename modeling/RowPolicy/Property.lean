/-!
# Names of properties

A property is named directly or by one of its accessors: `getName`, `setName` and `isName` name the
property `name`. A name whose first two letters are capitals keeps them, as in `getURL`.
-/

namespace RowPolicy.Property

/-- The words that begin the name of an accessor. -/
def accessorWords : List (List Char) :=
  ["get".toList, "set".toList, "is".toList]

/-- What follows the word of an accessor, if a capital does. -/
def accessed? (name word : List Char) : Option (List Char) :=
  if word.isPrefixOf name then
    match name.drop word.length with
    | c :: cs => if c.isUpper then some (c :: cs) else none
    | [] => none
  else none

/-- A name with its first letter in lower case, unless its second is a capital. -/
def decapitalize : List Char → List Char
  | [] => []
  | [c] => [c.toLower]
  | c :: d :: cs => if d.isUpper then c :: d :: cs else c.toLower :: d :: cs

/-- The property that a name or an accessor refers to. -/
def name (reference : String) : String :=
  let cs := reference.toList
  String.ofList (decapitalize ((accessorWords.findSome? (accessed? cs)).getD cs))

end RowPolicy.Property
