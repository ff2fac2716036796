import ApiDocs.Proofs.Comment.Descriptions
import ApiDocs.Proofs.Outcome
import ApiDocs.Proofs.Report.Order

/-! The descriptions in a report on source units. Each is a trimmed text, one that may be absent is
never empty, and that of a class or a method is empty only for want of one in the source. -/

namespace ApiDocs

open Text

/-- A description that need not be there, and is no empty one. -/
def SaysSomething (doc : Option String) : Prop := ∀ s, doc = some s → IsTrimmed s ∧ s ≠ ""

/-- No documentation comment stands before the declaration, or one that is blank up to its first
block tag. -/
def Undescribed (source : Source) (p : Node.Placed) : Prop :=
  ∀ raw, p.precedingComment source = some raw → Comment.isDocumentation raw = true →
    allBlank (Comment.leadText raw) = true

/-- The description of a declaration that need not have one. -/
structure Describes (source : Source) (p : Node.Placed) (doc : String) : Prop where
  trimmed : IsTrimmed doc
  empty : doc = "" ↔ Undescribed source p

/-! ## A declaration and its comment -/

namespace Index

/-- A comment of the source comes from a raw text before the declaration. -/
theorem exists_of_commentOf {source : Source} {p : Node.Placed} {c : Comment}
    (h : commentOf source p = some c) :
    ∃ raw, p.precedingComment source = some raw ∧ Comment.parse? raw = some c :=
  Option.bind_eq_some_iff.mp h

theorem undescribed_of_commentOf_eq_none {source : Source} {p : Node.Placed}
    (h : commentOf source p = none) : Undescribed source p := by
  intro raw before documents
  rw [commentOf, before, Option.bind_some, Comment.parse?, if_pos documents] at h
  cases h

end Index

namespace Report

open Index

theorem describes_narrativeOf (source : Source) (p : Node.Placed) :
    Describes source p (narrativeOf (commentOf source p)) := by
  cases comment : commentOf source p with
  | none => exact ⟨rfl, fun _ => undescribed_of_commentOf_eq_none comment, fun _ => rfl⟩
  | some c =>
    obtain ⟨raw, before, parsed⟩ := exists_of_commentOf comment
    obtain ⟨trimmed, empty⟩ := Comment.narrative_parse? parsed
    refine ⟨trimmed, empty.trans ⟨fun blank raw' before' _ => ?_, fun none => ?_⟩⟩
    · cases before.symm.trans before'
      exact blank
    · exact none raw before (Comment.exists_of_parse? parsed).1

/-! ## Descriptions that may be absent -/

theorem saysSomething_unlessBlank {s : String} (h : IsTrimmed s) :
    SaysSomething (unlessBlank s) := by
  intro s' said
  unfold unlessBlank at said
  split at said
  · cases said
  · next filled =>
    cases said
    refine ⟨h, ?_⟩
    rintro rfl
    exact filled rfl

theorem saysSomething_compileReturn {source : Source} {p : Node.Placed} {m : ApiDocs.Method}
    (h : m.comment = commentOf source p) : SaysSomething (compileReturn m).doc := by
  intro s said
  obtain ⟨joined, found, kept⟩ := Option.bind_eq_some_iff.mp said
  obtain ⟨c, comment, first⟩ := Option.bind_eq_some_iff.mp found
  obtain ⟨raw, _, parsed⟩ := exists_of_commentOf (h ▸ comment)
  exact saysSomething_unlessBlank (Comment.isTrimmed_returnDoc? parsed first) s kept

/-- Of any comment, from a source or not. -/
theorem saysSomething_compileArgument (c : Option Comment) (p : Param) :
    SaysSomething (compileArgument ((c.map Comment.paramDocs).getD Table.empty) p).doc := by
  intro s said
  obtain ⟨found, filled⟩ := Option.filter_eq_some_iff.mp said
  cases c with
  | none => cases found
  | some c =>
    refine ⟨Comment.isTrimmed_paramDocs found, ?_⟩
    rintro rfl
    cases filled

/-! ## Methods and classes -/

/-- A method's record describes the declaration at this place. -/
structure MethodDocs (source : Source) (p : Node.Placed) (m : Method) : Prop where
  doc : Describes source p m.doc
  returns : SaysSomething m.returns.doc
  arguments : ∀ a ∈ m.arguments, SaysSomething a.doc

theorem methodDocs_compileMethod {source : Source} {p : Node.Placed} {m : ApiDocs.Method}
    (h : m.comment = commentOf source p) : MethodDocs source p (compileMethod m) := by
  refine ⟨?_, saysSomething_compileReturn h, fun a mem => ?_⟩
  · rw [compileMethod, h]
    exact describes_narrativeOf source p
  · obtain ⟨param, _, rfl⟩ := List.mem_map.mp mem
    exact saysSomething_compileArgument m.comment param

/-- A class's record describes this declaration, and its methods the declared ones in order. -/
structure ClassDocs (source : Source) (d : Declaration) (c : Class) : Prop where
  doc : Describes source d.place c.doc
  methods : List.Forall₂ (MethodDocs source) d.methods c.methods

theorem classDocs_compileClass {scope : Scope} {d : Declaration} {t : Nat × TypeDecl} {c : Class}
    (read : typeDecl scope d = .ok t) (compiled : compileClass t.2 = .ok c) :
    ClassDocs scope.source d c := by
  obtain ⟨_, _, methods, made, same⟩ := exists_of_typeDecl read
  rw [same] at compiled
  obtain ⟨_, _, rfl⟩ := exists_of_compileClass compiled
  refine ⟨describes_narrativeOf scope.source d.place, ?_⟩
  refine List.forall₂_map_right_iff.mpr ((forall₂_of_mapM made).imp fun p m built => ?_)
  exact methodDocs_compileMethod (parts_of_method built).comment

end Report

/-! ## The catalog of a run -/

namespace Index

/-- The unit reads the type from this declaration of its. -/
def SourceUnit.Builds (u : SourceUnit) (d : Declaration) (t : TypeDecl) : Prop :=
  ∃ package l, packageOf u = .ok package ∧ u.outlines = .ok l ∧ d ∈ u.preorder package l ∧
    ∃ line, typeDecl (u.scope (u.preorder package l)) d = .ok (line, t)

theorem exists_builds_of_mem_types {u : SourceUnit} {t : TypeDecl} (h : t ∈ u.types) :
    ∃ d, u.Builds d t := by
  obtain ⟨⟨line, t⟩, mem, rfl⟩ := List.mem_map.mp h
  unfold SourceUnit.contribution at mem
  cases package : packageOf u with
  | error f => simp [package] at mem
  | ok p =>
    cases outlines : u.outlines with
    | error f => simp [package, outlines] at mem
    | ok l =>
      simp only [package, outlines] at mem
      obtain ⟨d, inside, read⟩ := Progress.exists_of_mem_done mem
      exact ⟨d, p, l, package, outlines, inside, line, read⟩

/-- A comment on a package of the catalog is one of a source. -/
theorem exists_of_package_comment {us : List SourceUnit} {p : Package} {c : Comment}
    (mem : p ∈ (empty.addAll us).index.catalog.packages) (h : p.comment = some c) :
    ∃ source place, commentOf source place = some c := by
  obtain ⟨⟨name, comment⟩, entry, rfl⟩ := List.mem_map.mp mem
  cases h
  have history := isHistory_addAll_empty us
  have found := (Table.mem_entries_iff history.nodup_packages).mp entry
  have known : name ∈ (empty.addAll us).index.packages.names := List.mem_map_of_mem entry
  rw [history.comments name known, Option.some.injEq] at found
  obtain ⟨u, _, given⟩ := List.mem_filterMap.mp (List.mem_of_getLast? found)
  obtain ⟨_, place, comment⟩ := exists_of_commentFor given
  exact ⟨u.source, place, comment⟩

/-- In a report on source units every description is trimmed. Those of packages, arguments and
returned values are absent or not empty. Each class is the record of a type of the catalog, which
some unit read from a declaration; its description and those of its methods are empty just where
the declaration has none. -/
theorem docs_of_run {us : List SourceUnit} {settings : Settings} {r : Report}
    (compiled : Report.compile settings (empty.addAll us).index.catalog = .ok r) :
    (∀ p ∈ r.packages, SaysSomething p.doc) ∧
      ∀ c ∈ r.classes, ∃ t ∈ (empty.addAll us).index.catalog.types,
        Report.compileClass t = .ok c ∧ (∃ u ∈ us, ∃ d, u.Builds d t) ∧
          ∀ (u : SourceUnit) (d : Declaration), u.Builds d t → Report.ClassDocs u.source d c := by
  obtain ⟨classes, made, perm, packages⟩ := Report.exists_classes_of_compile compiled
  constructor
  · intro p mem
    obtain ⟨package, inside, rfl⟩ := List.mem_map.mp (packages.mem_iff.mp mem)
    refine Report.saysSomething_unlessBlank ?_
    cases comment : package.comment with
    | none => rfl
    | some c =>
      obtain ⟨source, place, given⟩ := exists_of_package_comment inside comment
      rw [← given]
      exact (Report.describes_narrativeOf source place).trimmed
  · intro c mem
    obtain ⟨t, documented, compiledClass⟩ := exists_of_mem_mapM made (perm.mem_iff.mp mem)
    have inside := (List.mem_filter.mp documented).1
    obtain ⟨u, used, built⟩ := mem_types_of_mem_catalog inside
    refine ⟨t, inside, compiledClass, ⟨u, used, exists_builds_of_mem_types built⟩, fun v d builds => ?_⟩
    obtain ⟨package, l, _, _, _, line, read⟩ := builds
    exact Report.classDocs_compileClass read compiledClass

/-- A package, a class and a method, the method with tags and nothing before them. -/
def describedUnit : SourceUnit where
  source := Source.ofText "/** P. */ p /** C. */ A /** @param x  the x @return r */ m void int x"
  path := some "p/package-info.java"
  tree := .mk "program" 0 69 true none
    [.mk "block_comment" 0 9 true none [],
     .mk "package_declaration" 10 11 true none [.mk "identifier" 10 11 true none []],
     .mk "block_comment" 12 21 true none [],
     .mk "class_declaration" 22 69 true none
       [.mk "identifier" 22 23 true (some "name") [],
        .mk "class_body" 24 69 true (some "body")
          [.mk "block_comment" 24 56 true none [],
           .mk "method_declaration" 57 69 true none
             [.mk "void_type" 59 63 true (some "type") [],
              .mk "identifier" 57 58 true (some "name") [],
              .mk "formal_parameters" 64 69 true (some "parameters")
                [.mk "formal_parameter" 64 69 true none
                   [.mk "integral_type" 64 67 true (some "type") [],
                    .mk "identifier" 68 69 true (some "name") []]]]]]]

def describedReport : Report where
  classes := [⟨"p.A", "C.", none, [], [⟨"m", "", ⟨"void", some "r"⟩, [⟨"x", "int", some "the x"⟩], []⟩]⟩]
  packages := [⟨"p", some "P."⟩]

theorem compile_describedUnit :
    Report.compile {} (empty.addAll [describedUnit]).index.catalog = .ok describedReport := by
  decide +kernel

theorem docs_of_run_described :
    Report.compile {} (empty.addAll [describedUnit]).index.catalog = .ok describedReport ∧
      (∀ p ∈ describedReport.packages, SaysSomething p.doc) ∧
      ∀ c ∈ describedReport.classes, ∃ t ∈ (empty.addAll [describedUnit]).index.catalog.types,
        Report.compileClass t = .ok c ∧ (∃ u ∈ [describedUnit], ∃ d, u.Builds d t) ∧
          ∀ (u : SourceUnit) (d : Declaration), u.Builds d t → Report.ClassDocs u.source d c :=
  ⟨compile_describedUnit, docs_of_run compile_describedUnit⟩

end Index

end ApiDocs
