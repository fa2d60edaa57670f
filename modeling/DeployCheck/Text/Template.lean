/-!
# Message templates

A template holds placeholders, each a number in braces. Filling a template
replaces the placeholders of one argument after the other, so an argument that
itself looks like a later placeholder is filled too.
-/

set_option autoImplicit false

namespace DeployCheck.Text

/-- Every occurrence of `pattern`, from the left and without overlaps, becomes
`value`. The counter says how many characters of an occurrence are still to be
passed over. -/
def replaceFrom (pattern value : List Char) : Nat → List Char → List Char
  | _, [] => []
  | passed + 1, _ :: cs => replaceFrom pattern value passed cs
  | 0, c :: cs =>
    if pattern.isPrefixOf (c :: cs) then
      value ++ replaceFrom pattern value (pattern.length - 1) cs
    else c :: replaceFrom pattern value 0 cs

def replaceAll (pattern value text : List Char) : List Char := replaceFrom pattern value 0 text

def placeholder (index : Nat) : List Char := '{' :: ((toString index).toList ++ ['}'])

/-- Fill the placeholders of a template, argument by argument. -/
def fillFrom (text : List Char) : Nat → List String → List Char
  | _, [] => text
  | index, value :: values =>
    fillFrom (replaceAll (placeholder index) value.toList text) (index + 1) values

def fill (template : String) (values : List String) : String :=
  String.ofList (fillFrom template.toList 0 values)

def quotedList (names : List String) : String :=
  ", ".intercalate (names.map fun name => "\"" ++ name ++ "\"")

theorem quotedList_nil : quotedList [] = "" := rfl

end DeployCheck.Text
