import Marktex.Text.Digit
import Marktex.Text.Quoted
import Marktex.Token.Basic

/-!
# Values in messages and listings

How the value of a token is written where a reader has to tell values of different types apart:
texts in quotes, payloads as their name with all fields, stray values by a word or a number. A value
with a number of too many digits is not written.
-/

namespace Marktex

/-- The word for a truth value. -/
def shownBool (b : Bool) : Text :=
  if b then "True".toList else "False".toList

namespace Payload

/-- The name of the type of a payload. -/
def typeName : Payload → Text
  | .header .. => "HeaderPayload".toList
  | .link .. => "LinkPayload".toList
  | .image .. => "ImagePayload".toList
  | .codeBlock .. => "CodeBlockPayload".toList
  | .todo .. => "TodoPayload".toList

/-- The fields of a payload with their names, in order. -/
def fields : Payload → List (Text × Except Text.Unwritable Text)
  | .header level text => [("level".toList, Text.written level), ("text".toList, .ok text.quoted)]
  | .link text url => [("text".toList, .ok text.quoted), ("url".toList, .ok url.quoted)]
  | .image alt source => [("alt".toList, .ok alt.quoted), ("src".toList, .ok source.quoted)]
  | .codeBlock language code =>
    [("language".toList, .ok language.quoted), ("code".toList, .ok code.quoted)]
  | .todo text checked => [("text".toList, .ok text.quoted), ("checked".toList, .ok (shownBool checked))]

/-- A payload with all of its fields. -/
def shown (p : Payload) : Except Text.Unwritable Text := do
  let fields ← p.fields.mapM fun (name, value) => value.map fun value => name ++ '=' :: value
  return p.typeName ++ '(' :: Text.join ", ".toList fields ++ [')']

end Payload

namespace Stray

/-- A stray value, by a word or a number. -/
def shown : Stray → Except Text.Unwritable Text
  | .nothing => .ok "None".toList
  | .integer n => Text.written n
  | .boolean b => .ok (shownBool b)

/-- The name of the type of a stray value. -/
def typeName : Stray → Text
  | .nothing => "NoneType".toList
  | .integer _ => "int".toList
  | .boolean _ => "bool".toList

end Stray

namespace Value

/-- A value, written so that its type can be told. -/
def shown : Value → Except Text.Unwritable Text
  | .text s => .ok s.quoted
  | .payload p => p.shown
  | .stray v => v.shown

/-- The name of the type of a value. -/
def typeName : Value → Text
  | .text _ => "str".toList
  | .payload p => p.typeName
  | .stray v => v.typeName

end Value

end Marktex
