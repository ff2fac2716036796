import ApiDocs.Proofs.Index.Coverage

/-! What the simple name of a member type means in the signatures next to it. All declarations of
a unit share one table of simple names, and the first declaration of a name stays in it. So the
methods of a declaration mean its own member type just when the first declaration of that simple
name in the whole unit has the same qualified name. -/

namespace ApiDocs.Index

open Node

/-- The first declaration of the unit with this simple name, wherever it stands. -/
def SourceUnit.first? (u : SourceUnit) (name : String) : Option Nested :=
  u.nested.find? fun c => simpleName u.source c.place = name

def SourceUnit.qualify (u : SourceUnit) (package : Option Package) (c : Nested) : String :=
  c.qualifiedName u.source (packagePrefix package)

@[simp] theorem ownScope_source (u : SourceUnit) (package : Option Package) :
    (u.ownScope package).source = u.source := rfl

theorem get?_ownLocals (u : SourceUnit) (package : Option Package) (name : String) :
    (u.ownScope package).locals.get? name = (u.first? name).map (u.qualify package) := by
  rw [SourceUnit.ownScope, SourceUnit.scope, get?_localsOf, SourceUnit.declarations,
    List.find?_map, Option.map_map]
  rfl

theorem exists_first? {u : SourceUnit} {c : Nested} (hc : c ∈ u.nested) :
    ∃ first, u.first? (simpleName u.source c.place) = some first :=
  Option.isSome_iff_exists.mp (List.find?_isSome.mpr ⟨c, hc, by simp⟩)

theorem render_identifier (scope : Scope) (vars : List String) {n : Node}
    (kind : n.kind = "type_identifier") :
    render scope vars n = .ok (scope.resolve vars (n.text scope.source)) := by
  rw [render_eq, assemble]
  simp only [kind]

theorem typeRef_identifier {scope : Scope} {vars : List String} {n : Node}
    (kind : n.kind = "type_identifier") (free : n.text scope.source ∉ vars) :
    typeRef scope vars n = .ok ⟨.declared, scope.resolve vars (n.text scope.source),
      some (scope.resolve vars (n.text scope.source))⟩ := by
  rw [typeRef_of_rendered (by simp [kind]) (render_identifier scope vars kind)]
  simp [classify, kind, free, primitiveKinds]

/-- The return type is the reference that is read off the type node. -/
theorem returnType_of_method {scope : Scope} {vars : List String} {p : Placed} {r : Method}
    (read : method scope vars p = .ok r) : ∃ n, p.node.childByField? "type" = some n ∧
      typeRef scope (typeParameters scope.source p.node ++ vars) n = .ok r.returnType := by
  obtain ⟨n, found, reference⟩ := (parts_of_method read).returnType
  exact ⟨n, childOr_eq_ok_iff.mp found, reference⟩

/-- The methods of a declaration of a unit without a fault can be read. -/
theorem exists_of_memberMethod {u : SourceUnit} {package : Option Package}
    {built : List (Nat × TypeDecl)}
    (read : (u.declarations package).mapM (typeDecl (u.ownScope package)) = .ok built)
    {c : Nested} (hc : c ∈ u.nested) {m : Placed} (hm : m ∈ memberMethods c.place.node) :
    ∃ r, method (u.ownScope package) (c.typeVars u.source) m = .ok r := by
  obtain ⟨t, -, made⟩ := exists_ok_of_mem read (List.mem_map_of_mem hc)
  obtain ⟨_, _, methods, readMethods, -⟩ := exists_of_typeDecl made
  obtain ⟨r, -, readMethod⟩ := exists_ok_of_mem readMethods hm
  exact ⟨r, readMethod⟩

/-- The type variables in scope in the signature of a method. -/
def methodVars (s : Source) (c : Nested) (m : Placed) : List String :=
  typeParameters s m.node ++ c.typeVars s

/-- How the signature of the method `m` spells out a simple name: by the qualified name of the
declaration `first`. -/
structure SpelledAs (u : SourceUnit) (package : Option Package) (c : Nested) (m : Placed)
    (name : String) (first : Nested) : Prop where
  /-- Wherever it stands, on its own or inside another type. -/
  rendered : ∀ n : Node, n.kind = "type_identifier" → n.text u.source = name →
    render (u.ownScope package) (methodVars u.source c m) n = .ok (u.qualify package first)
  /-- Where it is all of a type. -/
  reference : ∀ n : Node, n.kind = "type_identifier" → n.text u.source = name →
    typeRef (u.ownScope package) (methodVars u.source c m) n =
      .ok ⟨.declared, u.qualify package first, some (u.qualify package first)⟩
  returned : ∃ r, method (u.ownScope package) (c.typeVars u.source) m = .ok r ∧
    ∀ n, m.node.childByField? "type" = some n → n.kind = "type_identifier" →
      n.text u.source = name →
      r.returnType = ⟨.declared, u.qualify package first, some (u.qualify package first)⟩

/-- A simple name that no type variable hides is spelled as its first declaration. -/
theorem spelledAs_first {u : SourceUnit} {package : Option Package}
    {built : List (Nat × TypeDecl)}
    (read : (u.declarations package).mapM (typeDecl (u.ownScope package)) = .ok built)
    {c : Nested} (hc : c ∈ u.nested) {m : Placed} (hm : m ∈ memberMethods c.place.node)
    {name : String} (free : name ∉ methodVars u.source c m) {first : Nested}
    (found : u.first? name = some first) : SpelledAs u package c m name first := by
  have meaning : (u.ownScope package).resolve (methodVars u.source c m) name =
      u.qualify package first := by
    refine resolve_of_get? free ?_
    rw [get?_ownLocals, found, Option.map_some]
  have reference : ∀ n : Node, n.kind = "type_identifier" → n.text u.source = name →
      typeRef (u.ownScope package) (methodVars u.source c m) n =
        .ok ⟨.declared, u.qualify package first, some (u.qualify package first)⟩ := by
    rintro n kind rfl
    rw [typeRef_identifier kind free, ownScope_source, meaning]
  refine ⟨?_, reference, ?_⟩
  · rintro n kind rfl
    rw [render_identifier _ _ kind, ownScope_source, meaning]
  · obtain ⟨r, readMethod⟩ := exists_of_memberMethod read hc hm
    refine ⟨r, readMethod, fun n type kind text => ?_⟩
    obtain ⟨n', type', returned⟩ := returnType_of_method readMethod
    cases type.symm.trans type'
    exact Except.ok.inj (returned.symm.trans (reference n kind text))

theorem SpelledAs.congr {u : SourceUnit} {package : Option Package} {c first other : Nested}
    {m : Placed} {name : String} (h : SpelledAs u package c m name first)
    (same : u.qualify package first = u.qualify package other) :
    SpelledAs u package c m name other := by
  obtain ⟨rendered, reference, returned⟩ := h
  rw [same] at rendered reference returned
  exact ⟨rendered, reference, returned⟩

/-- A name can be spelled in one way only, if it stands anywhere in the source. -/
theorem SpelledAs.unique {u : SourceUnit} {package : Option Package} {c first other : Nested}
    {m : Placed} {n : Node} (h : SpelledAs u package c m (n.text u.source) first)
    (h' : SpelledAs u package c m (n.text u.source) other) :
    u.qualify package first = u.qualify package other := by
  let identifier : Node := .mk "type_identifier" n.start n.stop true none []
  have one := h.rendered identifier rfl rfl
  exact Except.ok.inj (one.symm.trans (h'.rendered identifier rfl rfl))

/-- In the signatures of the methods next to it, a member type is spelled as the first declaration
of the unit that has its simple name, and so as itself just when that one has the same qualified
name. -/
theorem memberType_spelled {u : SourceUnit} (h : u.WellFormed) {c : Nested} (hc : c ∈ u.nested)
    {m q : Placed} (hm : m ∈ memberMethods c.place.node) (hq : q ∈ memberTypes c.place.node)
    (free : simpleName u.source q ∉ methodVars u.source c m) :
    ∃ package first, packageOf u = .ok package ∧
      u.first? (simpleName u.source q) = some first ∧
      SpelledAs u package c m (simpleName u.source q) first ∧
      u.qualify package (c.member q) =
        u.qualify package c ++ "." ++ simpleName u.source q ∧
      (SpelledAs u package c m (simpleName u.source q) (c.member q) ↔
        u.qualify package first = u.qualify package (c.member q)) := by
  obtain ⟨package, l, built, hp, hl, read, -⟩ :=
    exists_of_fault_none (contribution_of_wellFormed h).1
  have member := member_mem_nested hc hq
  obtain ⟨first, found⟩ := exists_first? member
  have spelled : SpelledAs u package c m (simpleName u.source q) first :=
    spelledAs_first read hc hm free found
  refine ⟨package, first, hp, found, spelled, Nested.qualifiedName_member u.source _ c q,
    fun spelled' => ?_, spelled.congr⟩
  obtain ⟨n, named⟩ := Option.isSome_iff_exists.mp (isSome_name_of_mem_nested hl member)
  rw [Nested.member_place] at named
  rw [simpleName_of_field named] at spelled spelled'
  exact spelled.unique spelled'

def twinMember : Placed :=
  ⟨.mk "class_declaration" 4 5 true none [.mk "identifier" 4 5 true (some "name") []], []⟩

def twinType : Node := .mk "type_identifier" 4 5 true (some "type") []

def twinMethod : Placed :=
  ⟨.mk "method_declaration" 4 7 true none
      [twinType, .mk "identifier" 6 7 true (some "name") []], [twinMember.node]⟩

def twinClass (offset : Nat) (members : List Node) : Node :=
  .mk "class_declaration" offset 7 true none
    [.mk "identifier" offset (offset + 1) true (some "name") [],
     .mk "class_body" 4 7 true (some "body") members]

/-- Two classes, each with a member type of one simple name; a method of the second returns it. -/
def twinUnit : SourceUnit where
  source := Source.ofText "A C B m"
  path := none
  tree := .mk "program" 0 7 true none
    [twinClass 0 [twinMember.node], twinClass 2 [twinMember.node, twinMethod.node]]

def twinOwner : Nested :=
  ⟨[], ⟨twinClass 2 [twinMember.node, twinMethod.node], [twinClass 0 [twinMember.node]]⟩⟩

theorem twinOwner_mem : twinOwner ∈ twinUnit.nested := by
  refine mem_nested_iff.mpr ⟨⟨twinOwner.place, rfl, ?_⟩, .singleton _⟩
  exact List.mem_of_getElem? (i := 1) rfl

theorem twinMethod_mem : twinMethod ∈ memberMethods twinOwner.place.node :=
  List.mem_of_getElem? (i := 0) rfl

theorem twinMember_mem : twinMember ∈ memberTypes twinOwner.place.node :=
  List.mem_of_getElem? (i := 0) rfl

theorem memberType_spelled_twin :
    twinUnit.WellFormed ∧
      simpleName twinUnit.source twinMember ∉ methodVars twinUnit.source twinOwner twinMethod ∧
      ∃ package first, packageOf twinUnit = .ok package ∧
        twinUnit.first? (simpleName twinUnit.source twinMember) = some first ∧
        SpelledAs twinUnit package twinOwner twinMethod (simpleName twinUnit.source twinMember)
          first ∧
        twinUnit.qualify package (twinOwner.member twinMember) =
          twinUnit.qualify package twinOwner ++ "." ++ simpleName twinUnit.source twinMember ∧
        (SpelledAs twinUnit package twinOwner twinMethod (simpleName twinUnit.source twinMember)
            (twinOwner.member twinMember) ↔
          twinUnit.qualify package first =
            twinUnit.qualify package (twinOwner.member twinMember)) :=
  ⟨by decide +kernel, by decide +kernel,
    memberType_spelled (by decide +kernel) twinOwner_mem twinMethod_mem twinMember_mem
      (by decide +kernel)⟩

/-- The method of the second class returns the member type of the first. -/
theorem twin_captured :
    twinUnit.WellFormed ∧ packageOf twinUnit = .ok none ∧ twinOwner ∈ twinUnit.nested ∧
      twinMethod ∈ memberMethods twinOwner.place.node ∧
      twinMember ∈ memberTypes twinOwner.place.node ∧
      simpleName twinUnit.source twinMember = "B" ∧
      "B" ∉ methodVars twinUnit.source twinOwner twinMethod ∧
      twinMethod.node.childByField? "type" = some twinType ∧
      twinType.kind = "type_identifier" ∧ twinType.text twinUnit.source = "B" ∧
      twinUnit.qualify none twinOwner ++ "." ++ "B" = "C.B" ∧
      render (twinUnit.ownScope none) (methodVars twinUnit.source twinOwner twinMethod) twinType =
        .ok "A.B" ∧
      (method (twinUnit.ownScope none) (twinOwner.typeVars twinUnit.source) twinMethod).map
        Method.returnType = .ok ⟨.declared, "A.B", some "A.B"⟩ :=
  ⟨by decide +kernel, rfl, twinOwner_mem, twinMethod_mem, twinMember_mem, by decide +kernel,
    by decide +kernel, rfl, rfl, by decide +kernel, by decide +kernel, by decide +kernel,
    by decide +kernel⟩

end ApiDocs.Index
