import ApiDocs.Proofs.Index.Totality

/-! What the qualified name of a reference to a declared type is made of. Type arguments behind the
name are left to the text of the reference. Those inside the name are not told from it: a qualified
name is free of angle brackets just when the name is so as it is written. -/

namespace ApiDocs.Index

open Node Text

/-! ## Characters of a resolved name -/

/-- No name that the scope knows has this character, and no name that it leads to. -/
def Scope.Lacks (scope : Scope) (c : Char) : Prop :=
  ∀ name qualified, scope.locals.get? name = some qualified ∨
    scope.imports.get? name = some qualified → c ∉ name.toList ∧ c ∉ qualified.toList

/-- Resolution puts neither this character into a name nor takes it away. -/
def Foreign (c : Char) : Prop := isBlank c = false ∧ c ∉ "java.lang.".toList

instance (c : Char) : Decidable (Foreign c) :=
  inferInstanceAs (Decidable (isBlank c = false ∧ c ∉ "java.lang.".toList))

theorem Foreign.ne_dot {c : Char} (h : Foreign c) : c ≠ '.' := by
  rintro rfl
  exact h.2 (by decide)

theorem mem_resolve_iff {scope : Scope} {c : Char} (lacks : scope.Lacks c) (foreign : Foreign c)
    (vars : List String) (name : String) :
    c ∈ (scope.resolve vars name).toList ↔ c ∈ name.toList := by
  have absent : ∀ {qualified}, scope.locals.get? name = some qualified ∨
      scope.imports.get? name = some qualified → (c ∈ qualified.toList ↔ c ∈ name.toList) :=
    fun found => iff_of_false (lacks _ _ found).2 (lacks _ _ found).1
  unfold Scope.resolve
  split
  · rfl
  split
  · next found => exact absent (.inl found)
  split
  · next found => exact absent (.inr found)
  split
  · rw [String.toList_append, List.mem_append]
    exact or_iff_right foreign.2
  · rfl

theorem mem_intercalate_iff {c dot : Char} (ne : c ≠ dot) (l : List (List Char)) :
    c ∈ [dot].intercalate l ↔ ∃ part ∈ l, c ∈ part := by
  induction l with
  | nil => simp
  | cons part rest ih =>
    cases rest with
    | nil => simp
    | cons next rest =>
      rw [List.intercalate_cons_cons, List.mem_append, List.mem_append, ih, List.mem_singleton]
      simp only [ne, or_false, List.exists_mem_cons_iff]

theorem mem_resolveScoped_iff {scope : Scope} {c : Char} (lacks : scope.Lacks c)
    (foreign : Foreign c) (vars : List String) (name : String) :
    c ∈ (resolveScoped scope vars name).toList ↔ c ∈ name.toList := by
  have joined : c ∈ ['.'].intercalate ((withoutBlanks name.toList).splitOn '.') ↔
      c ∈ name.toList := by
    rw [List.intercalate_splitOn, withoutBlanks, List.mem_filter]
    simp [foreign.1]
  unfold resolveScoped
  split
  · next none => exact absurd none (List.splitOn_ne_nil _ _)
  · next head rest parts =>
    have first := mem_resolve_iff lacks foreign vars (String.ofList head)
    rw [String.toList_ofList] at first
    rw [← joined, parts, dotted, String.toList_ofList, mem_intercalate_iff foreign.ne_dot,
      mem_intercalate_iff foreign.ne_dot, List.exists_mem_cons_iff, List.exists_mem_cons_iff, first]

theorem mem_typeName_iff {scope : Scope} {c : Char} (lacks : scope.Lacks c)
    (foreign : Foreign c) {vars : List String} {n : Node} (kind : n.kind ∈ typeNameKinds)
    {name : String} (rendered : render scope vars n = .ok name) :
    c ∈ name.toList ↔ c ∈ (n.text scope.source).toList := by
  rw [render_eq, assemble] at rendered
  simp only [typeNameKinds, List.mem_cons, List.not_mem_nil, or_false] at kind
  rcases kind with kind | kind <;> simp only [kind] at rendered <;> cases rendered
  · exact mem_resolve_iff lacks foreign vars _
  · exact mem_resolveScoped_iff lacks foreign vars _

/-- A unit's own scope lacks the characters that its declarations and its imports lack. -/
theorem lacks_scope {u : SourceUnit} {l : List Declaration} {c : Char} (foreign : Foreign c)
    (declared : ∀ d ∈ l, c ∉ d.simpleName.toList ∧ c ∉ d.qualifiedName.toList)
    (imported : ∀ n ∈ u.tree.childrenOfKind ["import_declaration"],
      ∀ text ∈ importedType? u.source n, c ∉ text.toList) : (u.scope l).Lacks c := by
  rintro name qualified (found | found)
  · obtain ⟨d, hd, rfl, rfl⟩ := mem_of_get?_localsOf found
    exact declared d hd
  · obtain ⟨⟨n, hn, text⟩, rfl⟩ := mem_of_get?_importsOf found
    have absent := imported n hn qualified text
    refine ⟨fun last => absent ?_, absent⟩
    -- the last part is one of those that the text is made of
    have joined : ['.'].intercalate (qualified.toList.splitOn '.') = qualified.toList :=
      List.intercalate_splitOn '.'
    have parts := List.splitOn_ne_nil '.' qualified.toList
    rw [lastPart, String.toList_ofList, List.getLastD_eq_getLast?,
      List.getLast?_eq_some_getLast parts] at last
    rw [← joined, mem_intercalate_iff foreign.ne_dot]
    exact ⟨_, List.getLast_mem parts, last⟩

/-- The text has an angle bracket. -/
def Angled (s : String) : Prop := '<' ∈ s.toList ∨ '>' ∈ s.toList

instance (s : String) : Decidable (Angled s) :=
  inferInstanceAs (Decidable ('<' ∈ s.toList ∨ '>' ∈ s.toList))

/-- No angle brackets in the names that the scope knows, or in those that it leads to. -/
def Scope.Plain (scope : Scope) : Prop := scope.Lacks '<' ∧ scope.Lacks '>'

theorem angled_typeName_iff {scope : Scope} (plain : scope.Plain) {vars : List String} {n : Node}
    (kind : n.kind ∈ typeNameKinds) {name : String} (rendered : render scope vars n = .ok name) :
    Angled name ↔ Angled (n.text scope.source) :=
  or_congr (mem_typeName_iff plain.1 (by decide) kind rendered)
    (mem_typeName_iff plain.2 (by decide) kind rendered)

/-! ## The name and the arguments of a reference -/

/-- Where the name of a type stands: of a generic type, in front of its arguments. -/
def nameNode (n : Node) : Node :=
  if (unannotated n).kind = "generic_type" then
    (unannotated n).namedChildren.head?.getD (unannotated n)
  else unannotated n

/-- What a reference to a declared type is made of: a name, and type arguments behind it. -/
structure Erased (scope : Scope) (vars : List String) (n : Node) (r : TypeRef) (name : String) :
    Prop where
  qualifiedName : r.qualifiedName = some name
  named : (nameNode n).kind ∈ typeNameKinds
  rendered : render scope vars (nameNode n) = .ok name
  text : r.text = name ∨
    ∃ args ∈ (unannotated n).children, args.kind = "type_arguments" ∧
      ∃ texts, args.namedChildren.mapM (render scope vars) = .ok texts ∧
        r.text = name ++ ("<" ++ ",".intercalate texts ++ ">")
  angled : scope.Plain → (Angled name ↔ Angled ((nameNode n).text scope.source))

section Reference

variable {scope : Scope} {vars : List String} {n : Node}

theorem render_arguments {args : String} (kind : n.kind = "type_arguments")
    (rendered : render scope vars n = .ok args) :
    ∃ texts, n.namedChildren.mapM (render scope vars) = .ok texts ∧
      args = "<" ++ ",".intercalate texts ++ ">" := by
  rw [render_eq, assemble] at rendered
  simp only [kind] at rendered
  obtain ⟨texts, each, joined⟩ := bind_eq_ok_iff.mp rendered
  rw [namedParts_map, List.mapM_map] at each
  cases joined
  exact ⟨texts, each, rfl⟩

/-- A type is declared by a name of its own or as a generic type. -/
theorem declared_of_classify {text : String} {r : TypeRef}
    (classified : classify scope vars text n = .ok r) (declared : r.kind = .declared) :
    r.text = text ∧
      ((n.kind = "generic_type" ∧ ∃ base, n.namedChildren.head? = some base ∧
          ∃ name, render scope vars base = .ok name ∧ r.qualifiedName = some name) ∨
        (n.kind ∈ typeNameKinds ∧ r.qualifiedName = some text)) := by
  unfold classify at classified
  split at classified
  · cases classified; cases declared
  split at classified
  · cases classified; cases declared
  split at classified
  · cases classified; cases declared
  split at classified
  · cases classified; cases declared
  split at classified
  · next generic =>
    split at classified
    · cases classified
    · next base first =>
      cases named : render scope vars base with
      | error f => simp [named, Except.map] at classified
      | ok name =>
        rw [named] at classified
        cases classified
        exact ⟨rfl, .inl ⟨generic, base, first, name, named, rfl⟩⟩
  split at classified
  · next kind =>
    cases classified
    exact ⟨rfl, .inr ⟨by simpa [typeNameKinds] using kind, rfl⟩⟩
  · cases classified; cases declared

/-- The qualified name of a declared type is its name as it is written, resolved, and the type
arguments behind the name are all that the text has more. -/
theorem declared_erased (h : WellFormed scope.source n) {r : TypeRef}
    (read : typeRef scope vars n = .ok r) (declared : r.kind = .declared) :
    ∃ name, Erased scope vars n r name := by
  obtain ⟨text, rendered, classified⟩ := bind_eq_ok_iff.mp read
  obtain ⟨same, form⟩ := declared_of_classify classified declared
  rw [← render_unannotated vars h.complete] at rendered
  have complete := (wellFormed_unannotated h).complete
  rcases form with ⟨generic, base, first, name, named, qualified⟩ | ⟨kind, qualified⟩
  · have node : nameNode n = base := by simp [nameNode, generic, first]
    obtain ⟨base', first', kind⟩ := complete.generic generic
    cases (Option.mem_def.mp first').symm.trans first
    refine ⟨name, qualified, node ▸ kind, node ▸ named, ?_, fun plain => ?_⟩
    · obtain ⟨name', named', parts⟩ := render_generic generic first rendered
      cases named.symm.trans named'
      rw [same]
      refine parts.imp_right ?_
      rintro ⟨args, hargs, argsKind, rest, argsText, rfl⟩
      obtain ⟨texts, each, rfl⟩ := render_arguments argsKind argsText
      exact ⟨args, hargs, argsKind, texts, each, rfl⟩
    · rw [node]
      exact angled_typeName_iff plain kind named
  · have node : nameNode n = unannotated n := by
      have other : (unannotated n).kind ≠ "generic_type" := by
        intro generic
        rw [generic] at kind
        exact absurd kind (by decide)
      rw [nameNode, if_neg other]
    refine ⟨text, qualified, node ▸ kind, node ▸ rendered, .inl same, fun plain => ?_⟩
    rw [node]
    exact angled_typeName_iff plain kind rendered

end Reference

/-- The scope of a unit that imports nothing and declares B in the package q. -/
def namedScope (text : String) : Scope :=
  SourceUnit.scope ⟨Source.ofText text, none, .mk "program" 0 0 true none []⟩
    [⟨⟨.mk "class_declaration" 0 0 true none [], []⟩, "B", "q.B", [], []⟩]

theorem plain_namedScope (text : String) : (namedScope text).Plain :=
  ⟨lacks_scope (by decide) (by decide) (by simp [childrenOfKind, Node.children]),
    lacks_scope (by decide) (by decide) (by simp [childrenOfKind, Node.children])⟩

/-- The annotated type `@D p.C<B>`. -/
def annotatedGeneric : Node :=
  .mk "annotated_type" 0 9 true none
    [.mk "marker_annotation" 0 2 true none [],
     .mk "generic_type" 3 9 true none
      [.mk "scoped_type_identifier" 3 6 true none [],
       .mk "type_arguments" 6 9 true none [.mk "type_identifier" 7 8 true none []]]]

theorem declared_erased_annotated :
    WellFormed (namedScope "@D p.C<B>").source annotatedGeneric ∧
      typeRef (namedScope "@D p.C<B>") [] annotatedGeneric =
        .ok ⟨.declared, "p.C<q.B>", some "p.C"⟩ ∧
      (namedScope "@D p.C<B>").Plain ∧
      ∃ name, Erased (namedScope "@D p.C<B>") [] annotatedGeneric
        ⟨.declared, "p.C<q.B>", some "p.C"⟩ name :=
  ⟨by decide +kernel, by decide +kernel, plain_namedScope _,
    declared_erased (by decide +kernel) (by decide +kernel) rfl⟩

/-- The type `A<B>.C`: a member of a generic type. -/
def memberOfGeneric : Node :=
  .mk "scoped_type_identifier" 0 6 true none
    [.mk "generic_type" 0 4 true none
      [.mk "type_identifier" 0 1 true none [],
       .mk "type_arguments" 1 4 true none [.mk "type_identifier" 2 3 true none []]],
     .mk "type_identifier" 5 6 true none []]

/-- Type arguments inside a name stay in it, as they are written. -/
theorem memberOfGeneric_angled :
    WellFormed (namedScope "A<B>.C").source memberOfGeneric ∧
      (∀ n ∈ memberOfGeneric.subtree, n.isComment = false) ∧
      (namedScope "A<B>.C").Plain ∧
      typeRef (namedScope "A<B>.C") [] memberOfGeneric =
        .ok ⟨.declared, "A<B>.C", some "A<B>.C"⟩ ∧ Angled "A<B>.C" :=
  ⟨by decide +kernel, by decide +kernel, plain_namedScope _, by decide +kernel, by decide +kernel⟩

end ApiDocs.Index
