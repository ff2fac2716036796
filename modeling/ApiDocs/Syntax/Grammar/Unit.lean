import ApiDocs.Syntax.Grammar.Members

/-! What stands at the top of a source text: a package, imports, type declarations, and also
methods, statements and module declarations, which hold nothing that is documented. -/

namespace ApiDocs.Syntax.Grammar

def package : Nodes := do
  let marks ← annotationRun
  return wrapped "package_declaration"
    (marks ++ (← sequence [keyword "package", qualifiedName, toSemicolon]))

def onDemand : Nodes := do
  if ← next [is ".", is "*"] then
    sequence [token ".", take (is "*") fun i => i.node "asterisk"]
  else return []

def importDeclaration : Nodes := do
  wrapAs "import_declaration"
    (sequence [keyword "import", keyword "static", qualifiedName, onDemand, toSemicolon])

def moduleDeclaration : Nodes := wrapAs "module_declaration" (through isBlock)

/-- Words that start a statement which no declaration can be taken for. -/
def simpleStatementWords : List String :=
  ["return", "throw", "new", "assert", "break", "continue", "yield", "this", "super"]

def conditionWords : List String := ["if", "while", "for", "switch", "synchronized"]

def parenthesized : Nodes := group "(" "parenthesized_expression"

def block : Nodes := group "\x7b" "block"

/-- The parts of a statement; `depth` bounds the nesting of statements without braces. -/
def statementTo : Nat → Nodes
  | 0 => return []
  | depth + 1 => do
    if ← next [isBlock] then block
    else if ← next [oneOf conditionWords, Item.isGroup "("] then
      sequence [take Item.isWord Item.plain, parenthesized, statementTo depth,
        andThen (keyword "else") (statementTo depth)]
    else if ← next [oneOf ["do"]] then
      sequence [keyword "do", statementTo depth, keyword "while", parenthesized, token ";"]
    else if ← next [oneOf ["try"]] then
      sequence [keyword "try", parenthesized, block,
        many (andThen (keyword "catch") (sequence [parenthesized, block])),
        andThen (keyword "finally") block]
    else if ← next [Item.isWord, is ":"] then
      sequence [name "identifier", token ":", statementTo depth]
    else toSemicolon

def statement : Nodes := do wrapAs "statement" (statementTo (← get).length)

def startsStatement (i : Item) : Bool :=
  oneOf ("do" :: "try" :: (simpleStatementWords ++ conditionWords)) i || isBlock i

/-- A method at the top, or a statement. -/
def methodOrStatement (mods : List Node) : Nodes := do
  let saved ← get
  let params ← typeParameters
  let marks ← if params.isEmpty then pure [] else annotationRun
  let type ← unannotatedType
  if !type.isEmpty && (← next startsCall) then
    return wrapped "method_declaration" (mods ++ as "type_parameters" params ++ marks ++
      as "type" type ++ (← methodRest))
  set saved
  return mods ++ (← statement)

def declaration (read : BodyReader) : Nodes := do
  let mods ← modifiers
  let types ← typeDeclaration read mods
  if types.isEmpty then methodOrStatement mods else return types

def isPackage : Reader Bool := do
  let saved ← get
  let _ ← annotationRun
  let found ← next [oneOf ["package"]]
  set saved
  return found

def isModule : Reader Bool := do
  let saved ← get
  let _ ← annotationRun
  let _ ← keyword "open"
  let found ← next [oneOf ["module"], Item.isWord]
  set saved
  return found

def topLevel (read : BodyReader) : Nodes := do
  let lone ← token ";"
  if !lone.isEmpty then return lone
  if ← next [oneOf ["import"]] then importDeclaration
  else if ← isPackage then package
  else if ← isModule then moduleDeclaration
  else if ← next [startsStatement] then statement
  else declaration read

/-- Takes an item as it is where nothing can be read, so that reading goes on. -/
def orSkip (reader : Nodes) : Nodes := do
  let nodes ← reader
  if nodes.isEmpty then take (fun _ => true) Item.plain else return nodes

def unit (depth : Nat) (items : List Item) : List Node :=
  run (many (orSkip (topLevel (membersTo depth)))) items

end ApiDocs.Syntax.Grammar
