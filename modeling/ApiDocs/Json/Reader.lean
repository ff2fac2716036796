import ApiDocs.Json.Basic
import ApiDocs.Json.Token

/-! Reading a value from a JSON text, whatever its layout. The lists and objects that are open at a
place of the text are kept with what was read of them. -/

namespace ApiDocs.Json

/-- A list or an object with the items or fields before the value that is being read. -/
inductive Frame where
  | item (before : List Json)
  | field (before : List (String × Json)) (key : String)

/-- What comes next, or the value just read. -/
inductive Stage where
  | value
  /-- A value, or the end of an empty list. -/
  | firstItem
  /-- A key, or the end of an empty object. -/
  | firstKey
  | key (before : List (String × Json))
  | colon (before : List (String × Json)) (key : String)
  | done (v : Json)

/-- The stage after the first token of a value. -/
def begin? : Token → Option Stage
  | .str s => some (.done (.str s))
  | .word w => some (.done (.word w))
  | .leftBracket => some .firstItem
  | .leftBrace => some .firstKey
  | _ => none

def advance : List Frame × Stage → Token → Option (List Frame × Stage)
  | (stack, .value), t => (begin? t).map fun stage => (stack, stage)
  | (stack, .firstItem), .rightBracket => some (stack, .done (.arr []))
  | (stack, .firstItem), t => (begin? t).map fun stage => (.item [] :: stack, stage)
  | (stack, .firstKey), .rightBrace => some (stack, .done (.obj []))
  | (stack, .firstKey), .str key => some (stack, .colon [] key)
  | (stack, .key before), .str key => some (stack, .colon before key)
  | (stack, .colon before key), .colon => some (.field before key :: stack, .value)
  | (.item before :: stack, .done v), .comma => some (.item (before ++ [v]) :: stack, .value)
  | (.item before :: stack, .done v), .rightBracket =>
    some (stack, .done (.arr (before ++ [v])))
  | (.field before key :: stack, .done v), .comma =>
    some (stack, .key (before ++ [(key, v)]))
  | (.field before key :: stack, .done v), .rightBrace =>
    some (stack, .done (.obj (before ++ [(key, v)])))
  | _, _ => none

def ofTokens? (l : List Token) : Option Json :=
  match l.foldlM advance ([], .value) with
  | some ([], .done v) => some v
  | _ => none

/-- The value of a text, if it is one value and nothing else. -/
def read? (text : String) : Option Json :=
  (tokensFrom .between text.toList).bind ofTokens?

end ApiDocs.Json
