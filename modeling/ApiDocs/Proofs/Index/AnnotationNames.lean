import ApiDocs.Proofs.Index.MemberTypes

/-! The names of annotations beside the names of types. A simple annotation name is resolved like a
type of this name, with no type variable in scope. A dotted one stays as it is written, whereas of
a dotted type name the first part is resolved and the blanks are dropped; so the two agree just
where resolution has nothing to change. -/

namespace ApiDocs.Index

open Node Text

/-! ## Dotted names -/

/-- The part of a dotted name before the first dot. -/
def leading (name : String) : String :=
  String.ofList (((withoutBlanks name.toList).splitOn '.').headD [])

/-- Of a dotted name without blanks, the first part is resolved and what follows it stays. -/
theorem exists_resolveScoped (name : String) : ∃ rest : List Char,
    withoutBlanks name.toList = (leading name).toList ++ rest ∧
      ∀ scope vars, (resolveScoped scope vars name).toList =
        (Scope.resolve scope vars (leading name)).toList ++ rest := by
  have joined : ['.'].intercalate ((withoutBlanks name.toList).splitOn '.') =
      withoutBlanks name.toList := List.intercalate_splitOn '.'
  unfold leading resolveScoped
  cases parts : (withoutBlanks name.toList).splitOn '.' with
  | nil => exact absurd parts (List.splitOn_ne_nil _ _)
  | cons head rest =>
    rw [← joined, parts]
    cases rest with
    | nil => exact ⟨[], by simp [dotted]⟩
    | cons next more => exact ⟨'.' :: ['.'].intercalate (next :: more), by simp [dotted]⟩

/-- The qualified names that the scope leads to have no blanks. -/
def Scope.Compact (scope : Scope) : Prop :=
  ∀ name qualified, scope.locals.get? name = some qualified ∨
    scope.imports.get? name = some qualified → compacted qualified = qualified

theorem withoutBlanks_eq_self_iff {s : List Char} :
    withoutBlanks s = s ↔ ∀ c ∈ s, isBlank c = false := by
  simp [withoutBlanks, List.filter_eq_self]

theorem compacted_eq_self_iff {s : String} : compacted s = s ↔ withoutBlanks s.toList = s.toList := by
  rw [← String.toList_inj, toList_compacted]

theorem compacted_resolve {scope : Scope} (compact : scope.Compact) (vars : List String)
    {name : String} (h : compacted name = name) :
    compacted (scope.resolve vars name) = scope.resolve vars name := by
  unfold Scope.resolve
  split
  · exact h
  split
  · next found => exact compact _ _ (.inl found)
  split
  · next found => exact compact _ _ (.inr found)
  split
  · rw [compacted_eq_self_iff, String.toList_append, withoutBlanks_append,
      compacted_eq_self_iff.mp h]
    rfl
  · exact h

/-- A dotted name has no blanks, and its first part means no other type. -/
structure Unaltered (scope : Scope) (name : String) : Prop where
  compact : compacted name = name
  head : scope.resolve [] (leading name) = leading name

theorem resolveScoped_eq_self_iff {scope : Scope} (compact : scope.Compact) (name : String) :
    resolveScoped scope [] name = name ↔ Unaltered scope name := by
  obtain ⟨rest, parts, resolved⟩ := exists_resolveScoped name
  constructor
  · intro same
    have unspaced : ∀ c ∈ (leading name).toList ++ rest, isBlank c = false := fun c hc => by
      rw [← parts] at hc
      simpa using (List.mem_filter.mp hc).2
    have head : withoutBlanks (scope.resolve [] (leading name)).toList =
        (scope.resolve [] (leading name)).toList := by
      refine compacted_eq_self_iff.mp (compacted_resolve compact [] (compacted_eq_self_iff.mpr ?_))
      exact withoutBlanks_eq_self_iff.mpr fun c hc => unspaced c (List.mem_append_left _ hc)
    have tail : withoutBlanks rest = rest :=
      withoutBlanks_eq_self_iff.mpr fun c hc => unspaced c (List.mem_append_right _ hc)
    have whole : name.toList = (scope.resolve [] (leading name)).toList ++ rest := by
      rw [← resolved, same]
    have kept : withoutBlanks name.toList = name.toList := by
      rw [whole, withoutBlanks_append, head, tail]
    refine ⟨compacted_eq_self_iff.mpr kept, String.toList_inj.mp ?_⟩
    rw [kept, whole] at parts
    exact List.append_cancel_right parts
  · rintro ⟨unspaced, head⟩
    rw [← String.toList_inj, resolved, head, ← parts, compacted_eq_self_iff.mp unspaced]

/-! ## Annotations -/

theorem render_scoped (scope : Scope) (vars : List String) {n : Node}
    (kind : n.kind = "scoped_type_identifier") :
    render scope vars n = .ok (resolveScoped scope vars (n.text scope.source)) := by
  rw [render_eq, assemble]
  simp only [kind]

/-- How the name node of an annotation is spelled, beside the type nodes that cover its text. -/
structure AnnotationSpelled (scope : Scope) (name : Node) (text : String) : Prop where
  simple : name.kind = "identifier" → ∀ t : Node, t.kind = "type_identifier" →
    t.text scope.source = name.text scope.source → render scope [] t = .ok text
  dotted : name.kind ≠ "identifier" → text = name.text scope.source
  altered : name.kind ≠ "identifier" → ∀ t : Node, t.kind = "scoped_type_identifier" →
    t.text scope.source = name.text scope.source → scope.Compact →
      (render scope [] t = .ok text ↔ Unaltered scope text)

theorem annotationSpelled (scope : Scope) (name : Node) :
    AnnotationSpelled scope name (if name.kind = "identifier" then
      scope.resolve [] (name.text scope.source) else name.text scope.source) := by
  refine ⟨fun simple t kind same => ?_, fun dotted => if_neg dotted,
    fun dotted t kind same compact => ?_⟩
  · rw [render_identifier scope [] kind, same, if_pos simple]
  · rw [render_scoped scope [] kind, same, if_neg dotted, Except.ok.injEq]
    exact resolveScoped_eq_self_iff compact _

theorem annotations_eq (scope : Scope) (n : Node) :
    annotations scope n = (annotationsOf n).mapM (annotationName scope) := by
  unfold annotations annotationsOf
  cases n.childOfKind? ["modifiers"] <;> rfl

/-- The names of a method's annotations, one by one: a simple one is the type of this name, and a
dotted one the type only if resolution leaves it as it is. -/
theorem annotations_spelled {scope : Scope} {n : Node}
    (named : ∀ a ∈ annotationsOf n, (a.childByField? "name").isSome) :
    ∃ names, annotations scope n = .ok names ∧
      List.Forall₂ (fun a text => ∃ name, a.childByField? "name" = some name ∧
        AnnotationSpelled scope name text) (annotationsOf n) names := by
  obtain ⟨names, read, -⟩ := annotations_gives scope named
  refine ⟨names, read, ?_⟩
  rw [annotations_eq] at read
  refine (forall₂_of_mapM read).imp fun a text made => ?_
  obtain ⟨name, found, made⟩ := bind_eq_ok_iff.mp made
  cases made
  exact ⟨name, childOr_eq_ok_iff.mp found, annotationSpelled scope name⟩

def dottedAnnotation : Node :=
  .mk "marker_annotation" 15 18 true none
    [.mk "scoped_identifier" 15 18 true (some "name") []]

/-- The method `@Override @A.C void m`. -/
def annotatedMethod : Placed :=
  ⟨.mk "method_declaration" 6 25 true none
      [.mk "modifiers" 6 18 true none
         [.mk "marker_annotation" 6 14 true none [.mk "identifier" 6 14 true (some "name") []],
          dottedAnnotation],
       .mk "void_type" 21 25 true (some "type") [],
       .mk "identifier" 19 20 true (some "name") []], []⟩

def importedClass : Node :=
  .mk "import_declaration" 0 3 true none [.mk "scoped_identifier" 0 3 true none []]

def annotatedOwner : Nested :=
  ⟨[], ⟨.mk "class_declaration" 4 25 true none
      [.mk "identifier" 4 5 true (some "name") [],
       .mk "class_body" 6 25 true (some "body") [annotatedMethod.node]], [importedClass]⟩⟩

/-- A unit that imports p.A, with the method in a class B. -/
def importingUnit : SourceUnit where
  source := Source.ofText "p.A B Override A.C m void"
  path := none
  tree := .mk "program" 0 25 true none [importedClass, annotatedOwner.place.node]

theorem annotatedOwner_mem : annotatedOwner ∈ importingUnit.nested := by
  refine mem_nested_iff.mpr ⟨⟨annotatedOwner.place, rfl, ?_⟩, .singleton _⟩
  exact List.mem_of_getElem? (i := 0) rfl

theorem annotations_spelled_dotted :
    (∀ a ∈ annotationsOf annotatedMethod.node, (a.childByField? "name").isSome) ∧
      annotations (importingUnit.ownScope none) annotatedMethod.node =
        .ok ["java.lang.Override", "A.C"] ∧
      ∃ names, annotations (importingUnit.ownScope none) annotatedMethod.node = .ok names ∧
        List.Forall₂ (fun a text => ∃ name, a.childByField? "name" = some name ∧
          AnnotationSpelled (importingUnit.ownScope none) name text)
            (annotationsOf annotatedMethod.node) names :=
  ⟨by decide +kernel, by decide +kernel, annotations_spelled (by decide +kernel)⟩

/-- The name of an annotation type inside an imported type stays as it is written, while the same
name of a type is resolved. -/
theorem dottedAnnotation_unresolved :
    importingUnit.WellFormed ∧ packageOf importingUnit = .ok none ∧
      annotatedOwner ∈ importingUnit.nested ∧
      annotatedMethod ∈ memberMethods annotatedOwner.place.node ∧
      dottedAnnotation ∈ annotationsOf annotatedMethod.node ∧
      annotationName (importingUnit.ownScope none) dottedAnnotation = .ok "A.C" ∧
      render (importingUnit.ownScope none) []
        (.mk "scoped_type_identifier" 15 18 true none []) = .ok "p.A.C" :=
  ⟨by decide +kernel, rfl, annotatedOwner_mem, List.mem_of_getElem? (i := 0) rfl,
    List.mem_of_getElem? (i := 1) rfl, by decide +kernel, by decide +kernel⟩

end ApiDocs.Index
