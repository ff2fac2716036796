import ApiDocs.Proofs.Index.MemberTypes
import ApiDocs.Proofs.Outcome

/-! Type variables are never taken for types. What the scope says of a variable has no part in the
return type and the parameters of a method: every name in them is looked up among the variables
first, in each part of a type. A variable on its own is read as one. -/

namespace ApiDocs.Index

open Node

/-! ## The names that are variables -/

/-- The declaration has a type parameter of this name. -/
def Declares (s : Source) (n : Node) (name : String) : Prop :=
  ∃ params ∈ n.childByField? "type_parameters",
    ∃ p ∈ params.children, p.kind = "type_parameter" ∧
      ∃ c ∈ p.childOfKind? ["type_identifier", "identifier"], c.text s = name

/-- A type parameter of the method, of its declaration, or of one around it. -/
def IsVariable (s : Source) (c : Nested) (m : Placed) (name : String) : Prop :=
  Declares s m.node name ∨ ∃ p ∈ c.chain, Declares s p.node name

theorem mem_typeParameters_iff {s : Source} {n : Node} {name : String} :
    name ∈ typeParameters s n ↔ Declares s n name := by
  unfold typeParameters Declares
  cases n.childByField? "type_parameters" with
  | none => simp
  | some params => simp [childrenOfKind, and_assoc]

theorem mem_methodVars_iff {s : Source} {c : Nested} {m : Placed} {name : String} :
    name ∈ methodVars s c m ↔ IsVariable s c m name := by
  simp [methodVars, Nested.typeVars, IsVariable, mem_typeParameters_iff]

/-! ## Scopes that differ on variables only -/

/-- Two scopes of one source that give the same meaning to every other name. -/
structure Scope.AgreeOutside (V : String → Prop) (scope scope' : Scope) : Prop where
  source : scope'.source = scope.source
  imports : ∀ name, ¬ V name → scope'.imports.get? name = scope.imports.get? name
  locals : ∀ name, ¬ V name → scope'.locals.get? name = scope.locals.get? name

section Agreement

variable {scope scope' : Scope} {vars : List String}

theorem resolve_agree (h : scope.AgreeOutside (· ∈ vars) scope') :
    scope'.resolve vars = scope.resolve vars := by
  funext name
  by_cases bound : name ∈ vars
  · rw [Scope.resolve_of_mem bound, Scope.resolve_of_mem bound]
  · rw [Scope.resolve, Scope.resolve, h.locals name bound, h.imports name bound]

theorem assemble_agree (h : scope.AgreeOutside (· ∈ vars) scope') (n : Node) (parts : List Part) :
    assemble scope' vars n parts = assemble scope vars n parts := by
  unfold assemble resolveScoped
  rw [h.source, resolve_agree h]

theorem render_agree (h : scope.AgreeOutside (· ∈ vars) scope') (n : Node) :
    render scope' vars n = render scope vars n := by
  have parts : (n.children.map fun c => Part.mk c (render scope' vars c)) =
      n.children.map fun c => ⟨c, render scope vars c⟩ :=
    List.map_congr_left fun c hc => by rw [render_agree h c]
  rw [render_eq, render_eq, parts]
  exact assemble_agree h n _
termination_by sizeOf n
decreasing_by exact sizeOf_lt_of_mem_children hc

theorem typeRef_agree (h : scope.AgreeOutside (· ∈ vars) scope') :
    typeRef scope' vars = typeRef scope vars := by
  funext n
  unfold typeRef classify
  simp only [render_agree h, h.source]

theorem parameter?_agree (h : scope.AgreeOutside (· ∈ vars) scope') :
    parameter? scope' vars = parameter? scope vars := by
  funext n
  unfold parameter? formalParameter spreadParameter
  rw [typeRef_agree h, h.source]

theorem parameters_agree (h : scope.AgreeOutside (· ∈ vars) scope') (n : Node) :
    parameters scope' vars n = parameters scope vars n := by
  unfold parameters
  rw [parameter?_agree h]

/-- Whether annotations can be read has nothing to do with what their names mean. -/
theorem fault?_annotations (scope scope' : Scope) (n : Node) :
    fault? (annotations scope' n) = fault? (annotations scope n) := by
  have each : ∀ (σ : Scope) (a : Node), fault? (annotationName σ a) = fault? (childOr a "name") :=
    fun σ a => by rw [annotationName, fault?_bind (o := none) fun _ => rfl, Option.or_none]
  unfold annotations
  cases n.childOfKind? ["modifiers"] with
  | none => rfl
  | some modifiers => simp only [fault?_mapM, each]

theorem map_eq_of_fault? {ε α β : Type} {x y : Except ε α} {f : α → β}
    (same : fault? x = fault? y) (constant : ∀ a b, f a = f b) : x.map f = y.map f := by
  cases x with
  | error e => rw [fault?_eq_some_iff.mp same.symm]
  | ok a =>
    cases y with
    | error e => cases same
    | ok b => exact congrArg Except.ok (constant a b)

/-- The return type of a method and its parameters. -/
def signature (m : Method) : TypeRef × List Param := (m.returnType, m.params)

theorem signature_agree {m : Placed}
    (h : scope.AgreeOutside (· ∈ typeParameters scope.source m.node ++ vars) scope') :
    (method scope' vars m).map signature = (method scope vars m).map signature := by
  change signature <$> method scope' vars m = signature <$> method scope vars m
  simp only [method, map_bind, h.source, typeRef_agree h, parameters_agree h]
  refine bind_congr fun type => bind_congr fun returnType => bind_congr fun params =>
    bind_congr fun name => ?_
  exact map_eq_of_fault? (f := fun _ => (returnType, params))
    (fault?_annotations scope scope' m.node) fun _ _ => rfl

end Agreement

/-! ## Variables on their own -/

section Variables

variable {scope : Scope} {vars : List String} {n : Node}

theorem typeRef_variable (kind : n.kind = "type_identifier") (bound : n.text scope.source ∈ vars) :
    typeRef scope vars n = .ok ⟨.typeVar, n.text scope.source, none⟩ := by
  rw [typeRef_of_rendered (by simp [kind]) (render_identifier scope vars kind),
    Scope.resolve_of_mem bound]
  simp [classify, kind, bound, primitiveKinds]

/-- Each formal parameter of the list is among the parameters. -/
theorem exists_of_formalParameter {params : List Param} (read : parameters scope vars n = .ok params)
    {list p : Node} (found : n.childByField? "parameters" = some list)
    (mem : p ∈ list.namedChildren) (kind : p.kind = "formal_parameter") :
    ∃ q ∈ params, formalParameter scope vars p = .ok q := by
  unfold parameters at read
  rw [found] at read
  cases each : list.namedChildren.mapM (parameter? scope vars) with
  | error f => simp [each, Except.map] at read
  | ok results =>
    obtain ⟨o, ho, made⟩ := exists_ok_of_mem each mem
    rw [parameter?, if_pos kind] at made
    cases formal : formalParameter scope vars p with
    | error f => simp [formal, Except.map] at made
    | ok q =>
      rw [formal] at made
      cases made
      simp only [each, Except.map, Except.ok.injEq] at read
      exact ⟨q, by simpa [← read] using ho, rfl⟩

theorem type_of_formalParameter {p : Node} {q : Param} (read : formalParameter scope vars p = .ok q)
    (plain : p.childByField? "dimensions" = none) :
    ∃ n, p.childByField? "type" = some n ∧ typeRef scope vars n = .ok q.type := by
  obtain ⟨n, found, read⟩ := bind_eq_ok_iff.mp read
  obtain ⟨type, reference, read⟩ := bind_eq_ok_iff.mp read
  obtain ⟨_, -, read⟩ := bind_eq_ok_iff.mp read
  rw [plain] at read
  cases read
  exact ⟨n, childOr_eq_ok_iff.mp found, reference⟩

end Variables

/-- Where a variable is all of the return type, or of the type of a parameter, it is read as the
variable it is. -/
structure ReadsVariables (scope : Scope) (vars : List String) (m : Placed) (r : Method) : Prop where
  returned : ∀ n ∈ m.node.childByField? "type", n.kind = "type_identifier" →
    n.text scope.source ∈ vars → r.returnType = ⟨.typeVar, n.text scope.source, none⟩
  taken : ∀ list ∈ m.node.childByField? "parameters", ∀ p ∈ list.namedChildren,
    p.kind = "formal_parameter" → p.childByField? "dimensions" = none →
      ∀ n ∈ p.childByField? "type", n.kind = "type_identifier" → n.text scope.source ∈ vars →
        ∃ q ∈ r.params, formalParameter scope vars p = .ok q ∧
          q.type = ⟨.typeVar, n.text scope.source, none⟩

theorem readsVariables {scope : Scope} {vars : List String} {m : Placed} {r : Method}
    (read : method scope vars m = .ok r) :
    ReadsVariables scope (typeParameters scope.source m.node ++ vars) m r where
  returned n type kind bound := by
    obtain ⟨n', type', returned⟩ := returnType_of_method read
    cases type.symm.trans type'
    exact Except.ok.inj (returned.symm.trans (typeRef_variable kind bound))
  taken list found p hp formal plain n type kind bound := by
    obtain ⟨q, hq, made⟩ := exists_of_formalParameter (parts_of_method read).params found hp formal
    obtain ⟨n', type', reference⟩ := type_of_formalParameter made plain
    cases type.symm.trans type'
    exact ⟨q, hq, made, Except.ok.inj (reference.symm.trans (typeRef_variable kind bound))⟩

/-- In two scopes that differ on its type variables only, a method of the unit has one signature.
If it is well-formed it has one at all, and a variable that stands on its own in it is read as
such. -/
theorem variables_uncaptured {u : SourceUnit} (package : Option Package) {c : Nested}
    (hc : c ∈ u.nested) {m : Placed} (hm : m ∈ memberMethods c.place.node) {scope scope' : Scope}
    (source : scope.source = u.source)
    (agree : scope.AgreeOutside (IsVariable u.source c m) scope') :
    ∃ d ∈ u.declarations package, d.place = c.place ∧ m ∈ d.methods ∧
      (∀ name, name ∈ typeParameters u.source m.node ++ d.typeVars ↔ IsVariable u.source c m name) ∧
      (method scope' d.typeVars m).map signature = (method scope d.typeVars m).map signature ∧
      (WellFormed u.source m.node → ∃ r, method scope d.typeVars m = .ok r) ∧
      ∀ r, method scope d.typeVars m = .ok r →
        ReadsVariables scope (typeParameters u.source m.node ++ d.typeVars) m r := by
  have known : ∀ name, name ∈ typeParameters u.source m.node ++ c.typeVars u.source ↔
      IsVariable u.source c m name := fun _ => mem_methodVars_iff
  refine ⟨_, List.mem_map_of_mem hc, rfl, hm, known, ?_, fun complete => ?_, fun r read => ?_⟩
  · refine signature_agree ⟨agree.source, fun name other => ?_, fun name other => ?_⟩
    · exact agree.imports name fun bound => other (source ▸ (known name).mpr bound)
    · exact agree.locals name fun bound => other (source ▸ (known name).mpr bound)
  · have kind : m.node.kind ∈ methodKinds := (mem_memberMethods_iff.mp hm).2
    obtain ⟨r, read, -⟩ := method_gives (c.typeVars u.source) (source ▸ complete) kind
    exact ⟨r, read⟩
  · have reads := readsVariables read
    rwa [source] at reads

/-- The method `T m(U u, List<? extends T>[] l)` with a type parameter U, in a class A with a type
parameter T. -/
def variableMethod : Placed :=
  ⟨.mk "method_declaration" 2 13 true none
      [.mk "type_parameters" 6 7 true (some "type_parameters")
         [.mk "type_parameter" 6 7 true none [.mk "type_identifier" 6 7 true none []]],
       .mk "type_identifier" 2 3 true (some "type") [],
       .mk "identifier" 4 5 true (some "name") [],
       .mk "formal_parameters" 6 13 true (some "parameters")
         [.mk "formal_parameter" 6 9 true none
            [.mk "type_identifier" 6 7 true (some "type") [],
             .mk "identifier" 8 9 true (some "name") []],
          .mk "formal_parameter" 2 13 true none
            [.mk "array_type" 2 11 true (some "type")
               [.mk "generic_type" 2 11 true (some "element")
                  [.mk "type_identifier" 10 11 true none [],
                   .mk "type_arguments" 2 3 true none
                     [.mk "wildcard" 2 3 true none [.mk "type_identifier" 2 3 true none []]]]],
             .mk "identifier" 12 13 true (some "name") []]]], []⟩

def variableOwner : Nested :=
  ⟨[], ⟨.mk "class_declaration" 0 13 true none
      [.mk "identifier" 0 1 true (some "name") [],
       .mk "type_parameters" 2 3 true (some "type_parameters")
         [.mk "type_parameter" 2 3 true none [.mk "type_identifier" 2 3 true none []]],
       .mk "class_body" 2 13 true (some "body") [variableMethod.node]], []⟩⟩

def variableUnit : SourceUnit where
  source := Source.ofText "A T m U u L l"
  path := none
  tree := .mk "program" 0 13 true none [variableOwner.place.node]

/-- Nothing is known of any name. -/
def unknowingScope : Scope := ⟨variableUnit.source, .empty, .empty⟩

/-- A type T is imported, and one of the name U is declared in the unit. -/
def capturingScope : Scope where
  source := variableUnit.source
  imports := Table.empty.put "T" "p.T"
  locals := Table.empty.put "U" "q.U"

theorem variableOwner_mem : variableOwner ∈ variableUnit.nested := by
  refine mem_nested_iff.mpr ⟨⟨variableOwner.place, rfl, ?_⟩, .singleton _⟩
  exact List.mem_of_getElem? (i := 0) rfl

theorem variableMethod_mem : variableMethod ∈ memberMethods variableOwner.place.node :=
  List.mem_of_getElem? (i := 0) rfl

theorem agreeOutside_capturingScope :
    unknowingScope.AgreeOutside (IsVariable variableUnit.source variableOwner variableMethod)
      capturingScope := by
  have bound : methodVars variableUnit.source variableOwner variableMethod = ["U", "T"] := by
    decide +kernel
  have free : ∀ name, ¬ IsVariable variableUnit.source variableOwner variableMethod name →
      name ≠ "U" ∧ name ≠ "T" := fun name other => by
    simpa [← mem_methodVars_iff, bound] using other
  refine ⟨rfl, fun name other => ?_, fun name other => ?_⟩
  · rw [capturingScope, Table.get?_put, if_neg (free name other).2]
    rfl
  · rw [capturingScope, Table.get?_put, if_neg (free name other).1]
    rfl

theorem variables_uncaptured_bounded :
    variableOwner ∈ variableUnit.nested ∧
      variableMethod ∈ memberMethods variableOwner.place.node ∧
      unknowingScope.AgreeOutside (IsVariable variableUnit.source variableOwner variableMethod)
        capturingScope ∧
      WellFormed variableUnit.source variableMethod.node ∧
      (method capturingScope (variableOwner.typeVars variableUnit.source) variableMethod).map
          signature =
        .ok (⟨.typeVar, "T", none⟩,
          [⟨"u", ⟨.typeVar, "U", none⟩⟩, ⟨"l", ⟨.array, "L<? extends T>[]", none⟩⟩]) ∧
      ∃ d ∈ variableUnit.declarations none, d.place = variableOwner.place ∧
        variableMethod ∈ d.methods ∧
        (∀ name, name ∈ typeParameters variableUnit.source variableMethod.node ++ d.typeVars ↔
          IsVariable variableUnit.source variableOwner variableMethod name) ∧
        (method capturingScope d.typeVars variableMethod).map signature =
          (method unknowingScope d.typeVars variableMethod).map signature ∧
        (WellFormed variableUnit.source variableMethod.node →
          ∃ r, method unknowingScope d.typeVars variableMethod = .ok r) ∧
        ∀ r, method unknowingScope d.typeVars variableMethod = .ok r →
          ReadsVariables unknowingScope
            (typeParameters variableUnit.source variableMethod.node ++ d.typeVars)
            variableMethod r :=
  ⟨variableOwner_mem, variableMethod_mem, agreeOutside_capturingScope, by decide +kernel,
    by decide +kernel,
    variables_uncaptured none variableOwner_mem variableMethod_mem rfl agreeOutside_capturingScope⟩

end ApiDocs.Index
