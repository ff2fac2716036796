import ApiDocs.Proofs.Index.CommentedMethod
import ApiDocs.Proofs.Index.Nesting

/-! Array brackets behind a name. Those behind the name of a parameter are read as brackets of its
type. Those behind the parameters of a method are not read, so its return type lacks them. -/

namespace ApiDocs

/-- The node in another role. -/
def Node.withField (field : Option String) : Node → Node
  | mk kind start stop named _ children => mk kind start stop named field children

namespace Index

open Node

/-! ## Array types -/

/-- The brackets of an array type or behind a name, or `none` where there are no such brackets. -/
def bracketsOr (none : String) (s : Source) (n : Node) : String :=
  ((n.childByField? "dimensions").map (dimensionsText s)).getD none

/-- In another text, the array type of `type` and these brackets: one with `type` as its element,
or, as brackets in a row make one array type, one with more brackets than `type` has. -/
inductive ArrayOf (s s' : Source) (brackets : String) (type array : Node) : Prop
  | around {element : Node} (kind : array.kind = "array_type")
      (found : array.childByField? "element" = some element)
      (same : Commented Unseen s s' (type.withField (some "element")) element)
      (text : bracketsOr "[]" s' array = brackets)
  | lengthened (kind : array.kind = "array_type") (was : type.kind = "array_type")
      (element : Option.Rel (Commented Unseen s s') (type.childByField? "element")
        (array.childByField? "element"))
      (text : bracketsOr "[]" s' array = bracketsOr "[]" s type ++ brackets)

section Types

variable {scope : Scope} {s' : Source} {vars : List String} {n type array : Node}
  {brackets : String}

theorem render_withField (scope : Scope) (vars : List String) (field : Option String) (n : Node) :
    render scope vars (n.withField field) = render scope vars n := by
  cases n
  rfl

theorem render_array (kind : n.kind = "array_type") :
    render scope vars n = (childOr n "element" >>= render scope vars).map
      (· ++ bracketsOr "[]" scope.source n) := by
  have element : textOr (.missing "element" "array_type")
      ((n.children.map fun c => ⟨c, render scope vars c⟩).find? fun p =>
        p.node.field = some "element") = childOr n "element" >>= render scope vars := by
    rw [List.find?_map, Function.comp_def, childOr, childByField?, kind]
    cases n.children.find? fun c => decide (c.field = some "element") <;> rfl
  rw [render_eq, assemble]
  simp only [kind]
  rw [arrayText, element]
  cases childOr n "element" >>= render scope vars <;> rfl

theorem typeRef_array (kind : n.kind = "array_type") :
    typeRef scope vars n = (render scope vars n).map fun text => ⟨.array, text, none⟩ := by
  cases rendered : render scope vars n with
  | error f =>
    rw [typeRef, rendered]
    rfl
  | ok text =>
    rw [typeRef_of_rendered (by simp [kind]) rendered]
    simp [classify, kind, primitiveKinds, Except.map]

theorem render_arrayOf (h : ArrayOf scope.source s' brackets type array) :
    render (scope.over s') vars array = (render scope vars type).map (· ++ brackets) := by
  cases h with
  | around kind found same text =>
    rw [render_array kind, Scope.over_source, text, childOr_eq_ok_iff.mpr found]
    exact congrArg _ ((render_commented _ _ same).trans (render_withField scope vars _ type))
  | lengthened kind was element text =>
    have inner : (childOr array "element" >>= render (scope.over s') vars) =
        (childOr type "element" >>= render scope vars) :=
      childOr_bind_rel (kind.trans was.symm) element fun _ _ _ same => render_commented _ _ same
    rw [render_array kind, render_array was, Scope.over_source, text, inner]
    cases childOr type "element" >>= render scope vars with
    | error f => rfl
    | ok element => simp [Except.map, String.append_assoc]

/-- An array type is read by the text of its element, whatever kind of type that is. -/
theorem typeRef_arrayOf (h : ArrayOf scope.source s' brackets type array) :
    typeRef (scope.over s') vars array =
      (typeRef scope vars type).map fun r => ⟨.array, r.text ++ brackets, none⟩ := by
  have kind : array.kind = "array_type" := by cases h <;> assumption
  rw [typeRef_array kind, render_arrayOf h, ← text_of_typeRef]
  cases typeRef scope vars type <;> rfl

end Types

/-! ## Brackets behind names and parameters -/

/-- Of the brackets behind the name or the parameters of a declaration, some or all stand at its
type in the other text. -/
structure Moved (s s' : Source) (brackets : String) (n n' : Node) : Prop where
  behind : (n.childByField? "dimensions").isSome
  type : Option.Rel (ArrayOf s s' brackets) (n.childByField? "type") (n'.childByField? "type")
  left : bracketsOr "" s n = brackets ++ bracketsOr "" s' n'

/-- A parameter without changes, or with brackets moved. -/
inductive MovedParameter (s s' : Source) (n n' : Node) : Prop
  | kept (same : Grown Unseen (Commented Unseen s s') n n')
  | moved (brackets : String) (kind : n.kind = "formal_parameter") (same : n'.kind = n.kind)
      (named : n'.named = n.named)
      (name : Option.Rel (Commented Unseen s s') (n.childByField? "name")
        (n'.childByField? "name"))
      (moved : Moved s s' brackets n n')

/-- A method in another text; brackets may be moved in its parameters. Nothing is said about its
return type, nor about what no signature is read from. -/
structure MovedInParameters (s s' : Source) (p p' : Placed) : Prop where
  kind : p'.node.kind = p.node.kind
  typeParameters : Option.Rel (Grown anywhere (Grown anywhere (Commented anywhere s s')))
    (p.node.childByField? "type_parameters") (p'.node.childByField? "type_parameters")
  parameters : Option.Rel (Grown anywhere (MovedParameter s s'))
    (p.node.childByField? "parameters") (p'.node.childByField? "parameters")
  name : Option.Rel (Commented anywhere s s') (p.node.childByField? "name")
    (p'.node.childByField? "name")
  modifiers : Option.Rel (Grown anywhere (Grown anywhere (Commented anywhere s s')))
    (p.node.childOfKind? ["modifiers"]) (p'.node.childOfKind? ["modifiers"])
  comment : p'.precedingComment s' = p.precedingComment s

theorem MovedParameter.named {s s' : Source} {n n' : Node} (h : MovedParameter s s' n n') :
    n'.named = n.named := by
  cases h with
  | kept same => exact same.named
  | moved _ _ _ named => exact named

section Declarations

variable {scope : Scope} {s' : Source} {vars : List String} {n n' : Node} {brackets : String}

theorem withDimensions_moved {s : Source} (r : TypeRef) (h : Moved s s' brackets n n') :
    withDimensions s' ⟨.array, r.text ++ brackets, none⟩ (n'.childByField? "dimensions") =
      withDimensions s r (n.childByField? "dimensions") := by
  obtain ⟨behind, -, left⟩ := h
  unfold bracketsOr at left
  obtain ⟨dims, found⟩ := Option.isSome_iff_exists.mp behind
  rw [withDimensions_eq, withDimensions_eq]
  rw [found] at left ⊢
  simp only [Option.map_some, Option.getD_some] at left ⊢
  rw [left]
  cases n'.childByField? "dimensions" <;> simp [String.append_assoc]

theorem formalParameter_moved (same : n'.kind = n.kind)
    (name : Option.Rel (Commented Unseen scope.source s') (n.childByField? "name")
      (n'.childByField? "name"))
    (h : Moved scope.source s' brackets n n') :
    formalParameter (scope.over s') vars n' = formalParameter scope vars n := by
  have name := textOfName_rel same name fun _ _ known related => related.name known
  refine childOr_bind_rel same h.type fun c c' _ array => ?_
  rw [typeRef_arrayOf array, Scope.over_source, name]
  cases typeRef scope vars c with
  | error f => rfl
  | ok r =>
    change (textOfField scope.source n "name" >>= fun name => _) = _ >>= fun name => _
    rw [withDimensions_moved r h]
    rfl

theorem parameter?_moved (h : MovedParameter scope.source s' n n') :
    parameter? (scope.over s') vars n' = parameter? scope vars n := by
  cases h with
  | kept same => exact parameter?_commented same
  | moved brackets kind same _ name moved =>
    rw [parameter?, parameter?, if_pos (same.trans kind), if_pos kind,
      formalParameter_moved same name moved]

/-- The method is read as before but for its return type. -/
theorem method_moved (vars : List String) {p p' : Placed}
    (h : MovedInParameters scope.source s' p p') {R : Node → Node → Prop} {f : TypeRef → TypeRef}
    (type : Option.Rel R (p.node.childByField? "type") (p'.node.childByField? "type"))
    (read : ∀ vars c c', R c c' →
      typeRef (scope.over s') vars c' = (typeRef scope vars c).map f) :
    method (scope.over s') vars p' =
      (method scope vars p).map fun m => { m with returnType := f m.returnType } := by
  have name := textOfName_rel h.kind h.name fun _ _ known related => related.name known
  have comment : commentOf s' p' = commentOf scope.source p := by
    rw [commentOf, commentOf, h.comment]
  change _ = _ <$> _
  simp only [method, map_bind, Scope.over_source, typeParameters_of_rel h.typeParameters]
  refine childOr_bind_rel h.kind type fun c c' _ related => ?_
  rw [read _ c c' related, parameters_of_rel h.parameters (fun _ _ inner => inner.named)
    fun _ _ inner => parameter?_moved inner, name, annotations_of_rel h.modifiers, comment]
  cases typeRef scope (typeParameters scope.source p.node ++ vars) c <;> rfl

end Declarations

/-- Brackets moved in the parameters change nothing. Brackets moved from behind the parameter list
to the return type do, as only there they are read. -/
theorem dimensions_moved {scope : Scope} {s' : Source} (vars : List String) {p p' : Placed}
    (h : MovedInParameters scope.source s' p p') :
    (Option.Rel (Commented Unseen scope.source s') (p.node.childByField? "type")
        (p'.node.childByField? "type") →
      method (scope.over s') vars p' = method scope vars p) ∧
    ∀ brackets, Moved scope.source s' brackets p.node p'.node →
      method (scope.over s') vars p' = (method scope vars p).map (fun m =>
        { m with returnType := ⟨.array, m.returnType.text ++ brackets, none⟩ }) ∧
      (brackets ≠ "" → ∀ m, method scope vars p = .ok m →
        method (scope.over s') vars p' ≠ .ok m) := by
  refine ⟨fun type => ?_, fun brackets moved => ?_⟩
  · have same := method_moved vars (f := id) h type fun _ _ _ related => by
      rw [typeRef_commented related]
      exact (congrFun Except.map_id _).symm
    rw [same]
    exact congrFun Except.map_id _
  · have changed := method_moved vars h moved.type fun _ _ _ array =>
      typeRef_arrayOf array
    refine ⟨changed, fun present m read read' => present ?_⟩
    rw [changed, read] at read'
    have longer : m.returnType.text ++ brackets = m.returnType.text :=
      congrArg (fun m : Method => m.returnType.text) (Except.ok.inj read')
    simpa using longer

/-! ## Methods with brackets -/

def bracketsAt (start stop : Nat) : Node :=
  .mk "dimensions" start stop true (some "dimensions") []

def arrayAt (start stop : Nat) : Node :=
  .mk "array_type" start stop true (some "type")
    [leaf "type_identifier" (some "element") start, bracketsAt (start + 1) stop]

def bracketMethod (stop : Nat) (type : Node) (name list : Nat) (params behind : List Node) :
    Placed :=
  ⟨.mk "method_declaration" 0 stop true none
      (type :: leaf "identifier" (some "name") name ::
        .mk "formal_parameters" (name + 1) list true (some "parameters") params :: behind), []⟩

def bracketScope (text : String) : Scope := ⟨Source.ofText text, .empty, .empty⟩

/-- The method `A m(B[] x[])`. -/
def bracketsAtName : Placed :=
  bracketMethod 12 (leaf "type_identifier" (some "type") 0) 2 12
    [.mk "formal_parameter" 4 11 true none
      [arrayAt 4 7, leaf "identifier" (some "name") 8, bracketsAt 9 11]] []

/-- The method `A m(B[][] x)`. -/
def bracketsAtType : Placed :=
  bracketMethod 12 (leaf "type_identifier" (some "type") 0) 2 12
    [.mk "formal_parameter" 4 11 true none
      [arrayAt 4 9, leaf "identifier" (some "name") 10]] []

/-- The method `A m()[]`. -/
def bracketsAtList : Placed :=
  bracketMethod 7 (leaf "type_identifier" (some "type") 0) 2 5 [] [bracketsAt 5 7]

/-- The method `A[] m()`. -/
def bracketsAtResult : Placed :=
  bracketMethod 7 (arrayAt 0 3) 4 7 [] []

theorem bracketsAtType_movedInParameters :
    MovedInParameters (bracketScope "A m(B[] x[])").source (Source.ofText "A m(B[][] x)")
      bracketsAtName bracketsAtType where
  kind := rfl
  typeParameters := .none
  parameters := by
    refine .some ⟨rfl, rfl, rfl, .keep (.moved "[]" rfl rfl rfl ?_ ⟨rfl, ?_, ?_⟩) .nil⟩
    · exact .some (leaf_commented (by decide +kernel))
    · exact .some (.lengthened rfl rfl (.some (leaf_commented (by decide +kernel)))
        (by decide +kernel))
    · decide +kernel
  name := .some (leaf_commented (by decide +kernel))
  modifiers := .none
  comment := by decide +kernel

theorem bracketsAtResult_movedInParameters :
    MovedInParameters (bracketScope "A m()[]").source (Source.ofText "A[] m()")
      bracketsAtList bracketsAtResult where
  kind := rfl
  typeParameters := .none
  parameters := .some ⟨rfl, rfl, rfl, .nil⟩
  name := .some (leaf_commented (by decide +kernel))
  modifiers := .none
  comment := by decide +kernel

theorem bracketsAtResult_moved :
    Moved (bracketScope "A m()[]").source (Source.ofText "A[] m()") "[]" bracketsAtList.node
      bracketsAtResult.node where
  behind := rfl
  type := .some (.around rfl rfl (leaf_commented (by decide +kernel)) (by decide +kernel))
  left := by decide +kernel

/-- The brackets of a parameter are moved, then those of a return type. -/
theorem dimensions_moved_twice :
    MovedInParameters (bracketScope "A m(B[] x[])").source (Source.ofText "A m(B[][] x)")
        bracketsAtName bracketsAtType ∧
      method ((bracketScope "A m(B[] x[])").over (Source.ofText "A m(B[][] x)")) []
          bracketsAtType =
        method (bracketScope "A m(B[] x[])") [] bracketsAtName ∧
      (method (bracketScope "A m(B[] x[])") [] bracketsAtName).map Method.params =
        .ok [⟨"x", ⟨.array, "B[][]", none⟩⟩] ∧
      MovedInParameters (bracketScope "A m()[]").source (Source.ofText "A[] m()")
        bracketsAtList bracketsAtResult ∧
      Moved (bracketScope "A m()[]").source (Source.ofText "A[] m()") "[]" bracketsAtList.node
        bracketsAtResult.node ∧
      method ((bracketScope "A m()[]").over (Source.ofText "A[] m()")) [] bracketsAtResult =
        (method (bracketScope "A m()[]") [] bracketsAtList).map fun m =>
          { m with returnType := ⟨.array, m.returnType.text ++ "[]", none⟩ } := by
  refine ⟨bracketsAtType_movedInParameters, ?_, by decide +kernel,
    bracketsAtResult_movedInParameters, bracketsAtResult_moved, ?_⟩
  · exact (dimensions_moved [] bracketsAtType_movedInParameters).1
      (.some (leaf_commented (by decide +kernel)))
  · exact ((dimensions_moved [] bracketsAtResult_movedInParameters).2 _ bracketsAtResult_moved).1

/-- Brackets behind the parameter list are not part of the return type. -/
theorem bracketsAtList_unread :
    WellFormed (bracketScope "A m()[]").source bracketsAtList.node ∧
      WellFormed (Source.ofText "A[] m()") bracketsAtResult.node ∧
      MovedInParameters (bracketScope "A m()[]").source (Source.ofText "A[] m()")
        bracketsAtList bracketsAtResult ∧
      Moved (bracketScope "A m()[]").source (Source.ofText "A[] m()") "[]" bracketsAtList.node
        bracketsAtResult.node ∧
      (method (bracketScope "A m()[]") [] bracketsAtList).map Method.returnType =
        .ok ⟨.declared, "A", some "A"⟩ ∧
      (method ((bracketScope "A m()[]").over (Source.ofText "A[] m()")) [] bracketsAtResult).map
        Method.returnType = .ok ⟨.array, "A[]", none⟩ :=
  ⟨by decide +kernel, by decide +kernel, bracketsAtResult_movedInParameters,
    bracketsAtResult_moved, by decide +kernel, by decide +kernel⟩

end Index

end ApiDocs
