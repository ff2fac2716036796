import ApiDocs.Index.Basic

/-! Adding a unit to an index, told in two steps: what the unit contributes, which no index takes
part in, and how an index takes it in. The walk over the declarations reads and writes the index
all the way; `add_types`, `add_packages` and `add_result` say that the outcome is that of the
contribution. -/

namespace ApiDocs

namespace Index

/-- The types that the unit builds, up to its first fault. -/
def SourceUnit.types (u : SourceUnit) : List TypeDecl := u.contribution.types.map Prod.snd

def named (l : List TypeDecl) : List (String × TypeDecl) := l.map fun t => (t.qualifiedName, t)

/-! ## The walk as a list of declarations -/

/-- Declarations entered one after the other. -/
def enterAll (scope : Scope) (x : Index) : List Declaration → Step (Option Fault)
  | [] => ⟨x, [], none⟩
  | d :: rest => (x.enter scope d).andThen fun y => enterAll scope y rest

private theorem andThen_assoc (s : Step (Option Fault)) (f g : Index → Step (Option Fault)) :
    (s.andThen f).andThen g = s.andThen fun x => (f x).andThen g := by
  cases hs : s.result with
  | some fault => simp [Step.andThen, hs]
  | none => cases hf : (f s.index).result <;> simp [Step.andThen, hs, hf]

private theorem nothing_andThen (x : Index) (f : Index → Step (Option Fault)) :
    (Step.mk x [] none).andThen f = f x := by
  simp [Step.andThen]

/-- A report changes neither index nor result. -/
private theorem andThen_report (s : Step (Option Fault)) (events : List Event) :
    (s.andThen fun z => ⟨z, events, none⟩).index = s.index ∧
      (s.andThen fun z => ⟨z, events, none⟩).result = s.result := by
  cases hs : s.result <;> simp [Step.andThen, hs]

theorem enterAll_append (scope : Scope) (x : Index) (l l' : List Declaration) :
    x.enterAll scope (l ++ l') = (x.enterAll scope l).andThen fun y => y.enterAll scope l' := by
  induction l generalizing x with
  | nil => rw [List.nil_append, enterAll, nothing_andThen]
  | cons d rest ih =>
    rw [List.cons_append, enterAll, enterAll, andThen_assoc]
    congr 1
    funext y
    exact ih y

mutual

/-- Walking a declaration enters it and those inside it in preorder. -/
theorem walk_eq_enterAll (scope : Scope) (before : String) (vars : List String) (x : Index)
    (d : Decl) :
    x.walk scope before vars d = x.enterAll scope (d.preorder scope.source before vars) := by
  cases d with
  | mk place name methods nested =>
    rw [walk, Decl.preorder, enterAll]
    congr 1
    funext y
    exact walkAll_eq_enterAll scope _ _ y nested

theorem walkAll_eq_enterAll (scope : Scope) (before : String) (vars : List String) (x : Index)
    (l : List Decl) :
    x.walkAll scope before vars l =
      x.enterAll scope (preorderAll scope.source before vars l) := by
  cases l with
  | nil => rw [walkAll, preorderAll, enterAll]
  | cons d rest =>
    rw [walkAll, preorderAll, enterAll_append, walk_eq_enterAll scope before vars x d]
    congr 1
    funext y
    exact walkAll_eq_enterAll scope before vars y rest

end

/-! ## What declarations and methods are read as -/

/-- Each part of a method that can be read is read off the method's own node. -/
structure MethodParts (scope : Scope) (vars : List String) (p : Node.Placed) (m : Method) :
    Prop where
  returnType : ∃ type, childOr p.node "type" = .ok type ∧
    typeRef scope (typeParameters scope.source p.node ++ vars) type = .ok m.returnType
  params : parameters scope (typeParameters scope.source p.node ++ vars) p.node = .ok m.params
  name : textOfField scope.source p.node "name" = .ok m.name
  annotations : annotations scope p.node = .ok m.annotations
  comment : m.comment = commentOf scope.source p

theorem parts_of_method {scope : Scope} {vars : List String} {p : Node.Placed} {m : Method}
    (h : method scope vars p = .ok m) : MethodParts scope vars p m := by
  unfold method at h
  obtain ⟨type, found, h⟩ := bind_eq_ok_iff.mp h
  obtain ⟨returnType, reference, h⟩ := bind_eq_ok_iff.mp h
  obtain ⟨params, readParams, h⟩ := bind_eq_ok_iff.mp h
  obtain ⟨name, readName, h⟩ := bind_eq_ok_iff.mp h
  obtain ⟨annotations, readAnnotations, h⟩ := bind_eq_ok_iff.mp h
  cases h
  exact ⟨⟨type, found, reference⟩, readParams, readName, readAnnotations, rfl⟩

/-- What a declaration that can be read is read as. -/
theorem exists_of_typeDecl {scope : Scope} {d : Declaration} {t : Nat × TypeDecl}
    (h : typeDecl scope d = .ok t) :
    ∃ superclass interfaces methods, d.methods.mapM (method scope d.typeVars) = .ok methods ∧
      t.2 = ⟨d.qualifiedName, d.simpleName, superclass, interfaces, methods,
        commentOf scope.source d.place⟩ := by
  unfold typeDecl at h
  obtain ⟨superclass, _, h⟩ := bind_eq_ok_iff.mp h
  obtain ⟨interfaces, _, h⟩ := bind_eq_ok_iff.mp h
  obtain ⟨methods, made, h⟩ := bind_eq_ok_iff.mp h
  cases h
  exact ⟨superclass, interfaces, methods, made, rfl⟩

/-! ## What entering a list of declarations does -/

theorem typeDecl_qualifiedName {scope : Scope} {d : Declaration} {t : Nat × TypeDecl}
    (h : typeDecl scope d = .ok t) : t.2.qualifiedName = d.qualifiedName := by
  obtain ⟨_, _, _, _, same⟩ := exists_of_typeDecl h
  rw [same]

private theorem enter_of_error {scope : Scope} {d : Declaration} {f : Fault} (x : Index)
    (h : typeDecl scope d = .error f) : x.enter scope d = ⟨x, [], some f⟩ := by
  simp [enter, h]

/-- A declaration that can be read is put into the table, where only a new name counts. -/
private theorem enter_of_ok {scope : Scope} {d : Declaration} {t : Nat × TypeDecl} (x : Index)
    (h : typeDecl scope d = .ok t) :
    (x.enter scope d).index = ⟨x.packages, x.types.putNew t.2.qualifiedName t.2⟩ ∧
      (x.enter scope d).result = none := by
  rw [typeDecl_qualifiedName h]
  by_cases known : x.types.contains d.qualifiedName = true
  · simp [enter, h, known, Table.putNew]
  · simp [enter, h, known]

theorem enterAll_eq (scope : Scope) (x : Index) (l : List Declaration) :
    (x.enterAll scope l).index =
        ⟨x.packages, x.types.putNewAll
          (named ((Progress.run (typeDecl scope) l).done.map Prod.snd))⟩ ∧
      (x.enterAll scope l).result = (Progress.run (typeDecl scope) l).fault := by
  induction l generalizing x with
  | nil => exact ⟨rfl, rfl⟩
  | cons d rest ih =>
    cases h : typeDecl scope d with
    | error f =>
      have entered : x.enterAll scope (d :: rest) = ⟨x, [], some f⟩ := by
        rw [enterAll, enter_of_error x h]
        rfl
      rw [entered, Progress.run, h]
      exact ⟨rfl, rfl⟩
    | ok t =>
      obtain ⟨index, result⟩ := enter_of_ok x h
      obtain ⟨indexRest, resultRest⟩ := ih (x.enter scope d).index
      rw [enterAll, Progress.run, h]
      simp only [Step.andThen, result, indexRest, resultRest, and_true]
      rw [index]
      rfl

/-! ## A unit -/

/-- The state and the fault after a unit are those of its contribution. -/
private theorem add_eq (x : Index) (u : SourceUnit) :
    (x.add u).index =
        ⟨u.contribution.package.elim x.packages (addPackage x.packages),
          x.types.putNewAll (named u.types)⟩ ∧
      (x.add u).result = u.contribution.fault := by
  unfold add SourceUnit.types SourceUnit.contribution
  cases packageOf u with
  | error f => exact ⟨rfl, rfl⟩
  | ok package =>
    cases u.outlines with
    | error f => exact ⟨rfl, rfl⟩
    | ok l =>
      let declarations := u.preorder package l
      have walked : (x.enterPackage package).walkAll (u.scope declarations)
          (packagePrefix package) [] l =
          (x.enterPackage package).enterAll (u.scope declarations) declarations :=
        walkAll_eq_enterAll (u.scope declarations) _ _ _ l
      obtain ⟨index, result⟩ := enterAll_eq (u.scope declarations)
        (x.enterPackage package) declarations
      simp only [declarations] at walked index result
      simp only [walked, andThen_report, index, result, and_true]
      rfl

theorem add_packages (x : Index) (u : SourceUnit) :
    (x.add u).index.packages =
      u.contribution.package.elim x.packages (addPackage x.packages) := by
  rw [(add_eq x u).1]

theorem add_types (x : Index) (u : SourceUnit) :
    (x.add u).index.types = x.types.putNewAll (named u.types) := by
  rw [(add_eq x u).1]

theorem add_result (x : Index) (u : SourceUnit) : (x.add u).result = u.contribution.fault :=
  (add_eq x u).2

/-! ## A run -/

theorem addAll_result (x : Index) (us : List SourceUnit) :
    (x.addAll us).result = us.map fun u => u.contribution.fault := by
  induction us generalizing x with
  | nil => rfl
  | cons u rest ih => simp [addAll, add_result, ih]

theorem addAll_types (x : Index) (us : List SourceUnit) :
    (x.addAll us).index.types = x.types.putNewAll (named (us.flatMap SourceUnit.types)) := by
  induction us generalizing x with
  | nil => rfl
  | cons u rest ih =>
    simp [addAll, ih, add_types, named, Table.putNewAll]

theorem addAll_packages (x : Index) (us : List SourceUnit) :
    (x.addAll us).index.packages =
      (us.filterMap fun u => u.contribution.package).foldl addPackage x.packages := by
  induction us generalizing x with
  | nil => rfl
  | cons u rest ih =>
    simp only [addAll, ih, add_packages]
    cases h : u.contribution.package with
    | none => simp [h]
    | some p => simp [h]

end Index

end ApiDocs
