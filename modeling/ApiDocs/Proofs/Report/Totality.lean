import ApiDocs.Proofs.Index.Totality
import ApiDocs.Proofs.Report.Order
import ApiDocs.Proofs.Table

/-! Well-formed units always lead to a report: no unit has a fault, every supertype of a declared
kind is named, and so every class can be compiled. -/

namespace ApiDocs

namespace Report

theorem declaredName_gives {r : TypeRef} (named : r.Named) (declared : r.kind = .declared) :
    Gives r.declaredName fun _ => True := by
  obtain ⟨name, hn, ne⟩ := named declared
  have filled : name.isEmpty = false := by simpa using ne
  unfold TypeRef.declaredName
  rw [hn]
  simp only [filled]
  exact .ok trivial

theorem compileClass_gives {t : TypeDecl} (named : ∀ r ∈ t.supertypes, r.Named) :
    Gives (compileClass t) fun _ => True := by
  have superclass : Gives (compileSuperclass t.superclass) fun _ => True := by
    unfold compileSuperclass
    split
    · exact .ok trivial
    · next r found =>
      split
      · next declared =>
        have mem : r ∈ t.supertypes := by simp [TypeDecl.supertypes, found]
        exact (declaredName_gives (named r mem) declared).map
      · exact .ok trivial
  have interfaces : ∀ r ∈ t.interfaces.filter fun r => r.kind = .declared,
      Gives r.declaredName fun _ => True := by
    intro r hr
    obtain ⟨mem, declared⟩ := List.mem_filter.mp hr
    exact declaredName_gives (named r (List.mem_append_right _ mem)) (by simpa using declared)
  refine superclass.bind fun _ _ => ?_
  exact (Gives.mapM interfaces).bind fun _ _ => .ok trivial

theorem compile_gives (settings : Settings) {c : Catalog}
    (named : ∀ t ∈ c.types, ∀ r ∈ t.supertypes, r.Named) :
    Gives (compile settings c) fun _ => True := by
  have classes : ∀ t ∈ documented c, Gives (compileClass t) fun _ => True := fun t ht =>
    compileClass_gives (named t (List.mem_filter.mp ht).1)
  rw [compile_eq]
  exact Gives.map ((Gives.mapM classes).mono fun _ _ => trivial)

end Report

namespace Index

/-- Units without mistakes are indexed without a fault, whatever the index holds, each supertype of
a declared kind has a name, and the catalog can be compiled under any settings. -/
theorem compile_of_wellFormed {us : List SourceUnit} (h : ∀ u ∈ us, u.WellFormed) :
    (∀ x : Index, (x.addAll us).result = us.map fun _ => none) ∧
      (∀ t ∈ (empty.addAll us).index.catalog.types, ∀ r ∈ t.supertypes, r.kind = .declared →
        ∃ name, r.qualifiedName = some name ∧ name ≠ "") ∧
      ∀ settings, ∃ report,
        Report.compile settings (empty.addAll us).index.catalog = .ok report := by
  have named : ∀ t ∈ (empty.addAll us).index.catalog.types, ∀ r ∈ t.supertypes, r.Named := by
    intro t ht
    obtain ⟨u, hu, built⟩ := mem_types_of_mem_catalog ht
    exact (contribution_of_wellFormed (h u hu)).2 t built
  refine ⟨fun x => ?_, named, fun settings => ?_⟩
  · rw [addAll_result]
    exact List.map_congr_left fun u hu => (contribution_of_wellFormed (h u hu)).1
  · obtain ⟨report, compiled, _⟩ := Report.compile_gives settings named
    exact ⟨report, compiled⟩

/-- A generic class with supertypes of several shapes, and a method with an annotation, an array
type and a parameter of variable arity. -/
def genericUnit : SourceUnit where
  source := Source.ofText "p q.S A T B m N x y int"
  path := some "p/A.java"
  tree := .mk "program" 0 23 true none
    [.mk "package_declaration" 0 1 true none [.mk "identifier" 0 1 true none []],
     .mk "import_declaration" 2 5 true none [.mk "scoped_identifier" 2 5 true none []],
     .mk "class_declaration" 6 23 true none
       [.mk "identifier" 6 7 true (some "name") [],
        .mk "type_parameters" 8 9 true (some "type_parameters")
          [.mk "type_parameter" 8 9 true none [.mk "type_identifier" 8 9 true none []]],
        .mk "superclass" 8 11 true none
          [.mk "generic_type" 8 11 true none
            [.mk "type_identifier" 10 11 true none [],
             .mk "type_arguments" 8 9 true none
               [.mk "wildcard" 8 9 true none [.mk "type_identifier" 8 9 true none []]]]],
        .mk "super_interfaces" 2 5 true none
          [.mk "type_list" 2 5 true none
            [.mk "scoped_type_identifier" 2 5 true none [],
             .mk "annotated_type" 4 5 true none
               [.mk "marker_annotation" 14 15 true none [],
                .mk "type_identifier" 4 5 true none []]]],
        .mk "class_body" 12 23 true (some "body")
          [.mk "method_declaration" 12 23 true none
            [.mk "modifiers" 14 15 true none
               [.mk "marker_annotation" 14 15 true none
                 [.mk "identifier" 14 15 true (some "name") []]],
             .mk "array_type" 8 9 true (some "type")
               [.mk "type_identifier" 8 9 true (some "element") []],
             .mk "identifier" 12 13 true (some "name") [],
             .mk "formal_parameters" 16 23 true (some "parameters")
               [.mk "formal_parameter" 16 23 true none
                  [.mk "integral_type" 20 23 true (some "type") [],
                   .mk "identifier" 16 17 true (some "name") []],
                .mk "spread_parameter" 8 19 true none
                  [.mk "type_identifier" 8 9 true none [],
                   .mk "variable_declarator" 18 19 true none
                     [.mk "identifier" 18 19 true (some "name") []]]]]]]]

theorem compile_of_wellFormed_generic :
    (∀ u ∈ [genericUnit], u.WellFormed) ∧
      ((∀ x : Index, (x.addAll [genericUnit]).result = [none]) ∧
        (∀ t ∈ (empty.addAll [genericUnit]).index.catalog.types, ∀ r ∈ t.supertypes,
          r.kind = .declared → ∃ name, r.qualifiedName = some name ∧ name ≠ "") ∧
        ∀ settings, ∃ report,
          Report.compile settings (empty.addAll [genericUnit]).index.catalog = .ok report) :=
  ⟨by decide +kernel, compile_of_wellFormed (by decide +kernel)⟩

end Index

end ApiDocs
