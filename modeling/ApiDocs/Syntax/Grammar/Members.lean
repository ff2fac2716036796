import ApiDocs.Syntax.Grammar.Types

/-! Declarations of types and their members. Bodies of methods, initial values and statements are
taken as a whole. -/

namespace ApiDocs.Syntax.Grammar

def modifierWords : List String :=
  ["public", "protected", "private", "abstract", "static", "final", "strictfp", "default",
   "synchronized", "native", "transient", "volatile", "non-sealed"]

/-- Whether a declaration goes on after the word; without that it may be a name. -/
def afterSealed (i : Item) : Bool :=
  oneOf ("class" :: "interface" :: "sealed" :: modifierWords) i || is "@" i

def modifierWord : Nodes := do
  if ← next [is "synchronized", Item.isGroup "("] then return []
  let plain ← take (oneOf modifierWords) Item.plain
  if !plain.isEmpty then return plain
  if ← next [is "sealed", afterSealed] then keyword "sealed" else return []

def modifier : Nodes := do
  let mark ← annotation
  if mark.isEmpty then modifierWord else return mark

def modifiers : Nodes := wrapAs "modifiers" (many modifier)

/-! Parameters -/

def declarator : Nodes := do
  let called ← name "identifier"
  return as "name" called ++ as "dimensions" (← dimensions)

def receiver : Nodes := do
  let path ← many do
    if ← next [Item.isWord, is "."] then sequence [name "identifier", token "."] else return []
  return path ++ (← keyword "this")

/-- After a modifier the word `this` is the name of an ordinary parameter. -/
def parameter : Nodes := do
  let mods ← modifiers
  let kind ← unannotatedType
  let dots ← afterAnnotations (token "...")
  if !dots.isEmpty then
    let marks ← annotationRun
    return wrapped "spread_parameter"
      (mods ++ kind ++ dots ++ marks ++ wrapped "variable_declarator" (← declarator))
  let bare ← next [is "this"]
  let path ← next [Item.isWord, is "."]
  if path || (bare && mods.isEmpty) then
    return wrapped "receiver_parameter" (mods ++ kind ++ (← receiver))
  return wrapped "formal_parameter" (mods ++ as "type" kind ++ (← declarator))

def run (reader : Nodes) (items : List Item) : List Node := (reader.run items).1

def parameters : Nodes :=
  inside "(" "formal_parameters" (run (separated "," parameter))

/-! Members -/

/-- The kinds of body that differ in their members. -/
inductive Body where
  | classBody
  | interfaceBody
  | annotationBody
  | enumBody

/-- How the items between the braces of a body are read. -/
abbrev BodyReader := Body → List Item → List Node

def Body.kind : Body → String
  | classBody => "class_body"
  | interfaceBody => "interface_body"
  | annotationBody => "annotation_type_body"
  | enumBody => "enum_body"

def body (read : BodyReader) (b : Body) : Nodes :=
  do return as "body" (← inside "\x7b" b.kind (read b))

def clause (kind word : String) (content : Nodes) : Nodes :=
  wrapAs kind (andThen (keyword word) content)

def superInterfaces : Nodes :=
  do return as "interfaces" (← clause "super_interfaces" "implements" typeList)

def permitted : Nodes := do return as "permits" (← clause "permits" "permits" typeList)

def declared (word : String) : Nodes :=
  do return (← token word) ++ as "name" (← name "identifier") ++
    as "type_parameters" (← typeParameters)

def classDeclaration (read : BodyReader) : Nodes := do
  let start ← declared "class"
  let superclass ← clause "superclass" "extends" type
  return start ++ as "superclass" superclass ++
    (← sequence [superInterfaces, permitted, body read .classBody])

def interfaceDeclaration (read : BodyReader) : Nodes := do
  sequence [declared "interface", clause "extends_interfaces" "extends" typeList, permitted,
    body read .interfaceBody]

def enumDeclaration (read : BodyReader) : Nodes := do
  sequence [declared "enum", superInterfaces, body read .enumBody]

def recordDeclaration (read : BodyReader) : Nodes := do
  let start ← declared "record"
  let components ← parameters
  return start ++ as "parameters" components ++
    (← sequence [superInterfaces, body read .classBody])

def annotationDeclaration (read : BodyReader) : Nodes := do
  sequence [declared "@interface", body read .annotationBody]

/-- The rest of a type declaration after its modifiers, if one starts here. -/
def typeDeclaration (read : BodyReader) (mods : List Node) : Nodes := do
  if ← next [oneOf ["class"]] then
    return wrapped "class_declaration" (mods ++ (← classDeclaration read))
  if ← next [oneOf ["interface"]] then
    return wrapped "interface_declaration" (mods ++ (← interfaceDeclaration read))
  if ← next [oneOf ["enum"], Item.isWord] then
    return wrapped "enum_declaration" (mods ++ (← enumDeclaration read))
  if ← next [is "@interface"] then
    return wrapped "annotation_type_declaration" (mods ++ (← annotationDeclaration read))
  if ← next [oneOf ["record"], Item.isWord] then
    return wrapped "record_declaration" (mods ++ (← recordDeclaration read))
  return []

def isBlock : Item → Bool := Item.isGroup "\x7b"

def toSemicolon : Nodes := through (is ";")

/-- What ends a method: its body, or a semicolon that a default value may precede. -/
def methodEnd : Nodes := do
  let block ← group "\x7b" "block"
  if block.isEmpty then toSemicolon else return as "body" block

def methodKind : Body → String
  | .annotationBody => "annotation_type_element_declaration"
  | _ => "method_declaration"

/-- The rest of a method after its type. -/
def methodRest : Nodes := do
  let called ← name "identifier"
  let params ← parameters
  let dims ← dimensions
  let thrown ← clause "throws" "throws" (separated "," type)
  return as "name" called ++ as "parameters" params ++ as "dimensions" dims ++ thrown ++
    (← methodEnd)

def constructorRest : Nodes := do
  let called ← name "identifier"
  let params ← parameters
  let thrown ← clause "throws" "throws" (separated "," type)
  return as "name" called ++ as "parameters" params ++ thrown ++ (← methodEnd)

def startsCall : List (Item → Bool) := [Item.isWord, Item.isGroup "("]

/-- A method, constructor or field, after its modifiers. -/
def callable (b : Body) (mods : List Node) : Nodes := do
  let params ← typeParameters
  let marks ← if params.isEmpty then pure [] else annotationRun
  let start := mods ++ as "type_parameters" params ++ marks
  if ← next startsCall then
    return wrapped "constructor_declaration" (start ++ (← constructorRest))
  if ← next [Item.isWord, isBlock] then
    return wrapped "compact_constructor_declaration" (start ++ (← constructorRest))
  let type ← unannotatedType
  if ← next startsCall then
    return wrapped (methodKind b) (start ++ as "type" type ++ (← methodRest))
  return wrapped "field_declaration" (start ++ as "type" type ++ (← toSemicolon))

def member (read : BodyReader) (b : Body) : Nodes := do
  let lone ← token ";"
  if !lone.isEmpty then return lone
  let mods ← modifiers
  if ← next [isBlock] then
    return wrapped "static_initializer" (mods ++ (← group "\x7b" "block"))
  let nested ← typeDeclaration read mods
  if nested.isEmpty then callable b mods else return nested

def enumConstant : Nodes := do
  let mods ← modifiers
  let called ← name "identifier"
  let arguments ← group "(" "argument_list"
  let block ← group "\x7b" "class_body"
  return wrapped "enum_constant"
    (mods ++ as "name" called ++ as "arguments" arguments ++ as "body" block)

/-- Constants with commas between them, then the members from the first semicolon on. -/
def enumMembers (read : BodyReader) : Nodes := do
  let constants ← many do
    let comma ← token ","
    if comma.isEmpty && !(← next [is ";"]) then enumConstant else return comma
  let rest ← andThen (token ";") (many (member read .classBody))
  return constants ++ wrapped "enum_body_declarations" rest

/-- The members of a body; `depth` bounds the nesting of bodies. -/
def membersTo : Nat → BodyReader
  | 0, _, _ => []
  | depth + 1, .enumBody, items => run (enumMembers (membersTo depth)) items
  | depth + 1, b, items => run (many (member (membersTo depth) b)) items

end ApiDocs.Syntax.Grammar
