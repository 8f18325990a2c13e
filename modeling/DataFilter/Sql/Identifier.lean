import DataFilter.Template.Shape

/-!
# Names in SQL

Only plain names reach the text of a condition: letters, digits and underscores of ASCII, no digit
in front. The rows of a collection are named after the collection, in lower case and in the
singular.
-/

namespace DataFilter.Sql

/-- Whether a name may stand in SQL. -/
def isIdentifier (name : String) : Bool := isName name.toList

/-- Endings whose plural has an extra syllable. -/
def syllableEndings : List (List Char) :=
  ["sses".toList, "shes".toList, "ches".toList, "xes".toList, "zes".toList, "uses".toList]

/-- The singular of an English plural in lower case, by its ending. -/
def singular (word : List Char) : List Char :=
  let back := word.reverse
  if "sei".toList.isPrefixOf back ∧ 3 < word.length then (back.drop 3).reverse ++ ['y']
  else if syllableEndings.any fun ending =>
      ending.reverse.isPrefixOf back && ending.length < word.length then
    (back.drop 2).reverse
  else if 1 < word.length ∧ back.head? = some 's' ∧ (back.drop 1).head? ≠ some 's' then
    (back.drop 1).reverse
  else word

/-- What the rows of a collection are named after. -/
def singularize (name : String) : String :=
  String.ofList (singular (name.toList.map Char.toLower))

end DataFilter.Sql
