import ApiDocs.Syntax.Grammar.Basic

/-! Names, annotations and types. -/

namespace ApiDocs.Syntax.Grammar

def wrapAs (kind : String) (reader : Nodes) : Nodes := do return wrapped kind (← reader)

/-- A word, or words with dots between them. -/
def qualifiedName : Nodes := do
  let first ← name "identifier"
  let more ← many do
    if ← next [is ".", Item.isWord] then
      sequence [token ".", name "identifier"]
    else return []
  return if more.isEmpty then first else wrapped "scoped_identifier" (first ++ more)

def annotation : Nodes := do
  let mark ← token "@"
  if mark.isEmpty then return []
  let called ← qualifiedName
  let arguments ← group "(" "annotation_argument_list"
  let kind := if arguments.isEmpty then "marker_annotation" else "annotation"
  return wrapped kind (mark ++ as "name" called ++ as "arguments" arguments)

def annotationRun : Nodes := many annotation

/-- Leaves the items as they are if the reader finds nothing after the annotations. -/
def afterAnnotations (reader : Nodes) : Nodes := do
  let saved ← get
  let marks ← annotationRun
  let nodes ← reader
  if nodes.isEmpty then
    set saved
    return []
  return marks ++ nodes

/-- Pairs of brackets, each with its annotations. -/
def dimensions : Nodes := wrapAs "dimensions" (many (afterAnnotations (group "[" "brackets")))

def integralWords : List String := ["byte", "short", "int", "long", "char"]

def floatingWords : List String := ["float", "double"]

def primitive : Nodes := do
  let void ← take (oneOf ["void"]) fun i => i.node "void_type"
  let boolean ← take (oneOf ["boolean"]) fun i => i.node "boolean_type"
  let integral ← wrapAs "integral_type" (take (oneOf integralWords) Item.plain)
  let floating ← wrapAs "floating_point_type" (take (oneOf floatingWords) Item.plain)
  return (void ++ boolean ++ integral ++ floating).take 1

/-- What can follow a class type: type arguments, or a dot and the name of a member. -/
def classTypeFrom (arguments : Nodes) (base : List Node) : Nat → Nodes
  | 0 => return base
  | n + 1 => do
    let args ← arguments
    if !args.isEmpty then
      classTypeFrom arguments (wrapped "generic_type" (base ++ args)) n
    else
      let saved ← get
      let dot ← token "."
      if dot.isEmpty then return base
      let marks ← annotationRun
      let member ← name "type_identifier"
      if member.isEmpty then
        set saved
        return base
      classTypeFrom arguments (wrapped "scoped_type_identifier" (base ++ dot ++ marks ++ member)) n

def classType (arguments : Nodes) : Nodes := do
  let base ← name "type_identifier"
  if base.isEmpty then return []
  classTypeFrom arguments base (← get).length

def withDimensions (base : List Node) : Nodes := do
  if base.isEmpty then return []
  let dims ← dimensions
  if dims.isEmpty then return base
  return wrapped "array_type" (as "element" base ++ as "dimensions" dims)

def plainType (arguments : Nodes) : Nodes := do
  let base ← primitive
  withDimensions (← if base.isEmpty then classType arguments else pure base)

def annotated (marks type : List Node) : List Node :=
  if marks.isEmpty || type.isEmpty then marks ++ type else wrapped "annotated_type" (marks ++ type)

def bound (type : Nodes) : Nodes := do
  let below ← keyword "extends"
  if !below.isEmpty then return below ++ (← type)
  let above ← take (oneOf ["super"]) fun i => i.node "super"
  if above.isEmpty then return []
  return above ++ (← type)

/-- One type argument: a wildcard or a type. -/
def argument (type plain : Nodes) : Nodes := do
  let marks ← annotationRun
  let question ← token "?"
  if question.isEmpty then return annotated marks (← plain)
  return wrapped "wildcard" (marks ++ question ++ (← bound type))

def angled (kind : String) (content : Nodes) : Nodes := do
  let opening ← token "<"
  if opening.isEmpty then return []
  return wrapped kind (opening ++ (← content) ++ (← token ">"))

mutual

/-- A type without annotations before it; `depth` bounds the nesting of type arguments. -/
def plainTypeTo : Nat → Nodes
  | 0 => return []
  | depth + 1 => plainType (angled "type_arguments" (separated "," (argumentTo depth)))

def argumentTo : Nat → Nodes
  | 0 => return []
  | depth + 1 => argument (typeTo depth) (plainTypeTo depth)

def typeTo : Nat → Nodes
  | 0 => return []
  | depth + 1 => do return annotated (← annotationRun) (← plainTypeTo depth)

end

/-- Each nested level takes a token, and three readers. -/
def depthOf (items : List Item) : Nat := 3 * items.length + 3

def unannotatedType : Nodes := do plainTypeTo (depthOf (← get))

def type : Nodes := do typeTo (depthOf (← get))

def typeList : Nodes := wrapAs "type_list" (separated "," type)

def typeParameter : Nodes := do
  let marks ← annotationRun
  let called ← name "type_identifier"
  let bounds ← wrapAs "type_bound" (andThen (keyword "extends") (separated "&" type))
  return wrapped "type_parameter" (marks ++ called ++ bounds)

def typeParameters : Nodes := angled "type_parameters" (separated "," typeParameter)

end ApiDocs.Syntax.Grammar
