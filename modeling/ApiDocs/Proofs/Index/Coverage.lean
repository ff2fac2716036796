import ApiDocs.Proofs.Index.Nesting
import ApiDocs.Proofs.Index.Order
import ApiDocs.Proofs.Index.Totality

/-! What the index of a single unit holds. If the unit has no fault, its types are the declarations
that member lists lead to, in preorder, and the names that signatures are resolved with lead to no
other types. The names are gathered by a walk of their own, before the walk that reads the
signatures; both see the same declarations. -/

namespace ApiDocs

namespace Index

open Node

/-! ## The walk that gathers names -/

mutual

/-- Notes a type under its simple name, and then those that it holds. -/
def collect (before : String) (t : Table String) : Decl → Table String
  | .mk _ name _ nested =>
    collectAll (before ++ name ++ ".") (t.putNew name (before ++ name)) nested

def collectAll (before : String) (t : Table String) : List Decl → Table String
  | [] => t
  | d :: rest => collectAll before (collect before t d) rest

end

/-- Of two types with one simple name the first stays. -/
def note (t : Table String) (d : Declaration) : Table String :=
  t.putNew d.simpleName d.qualifiedName

mutual

theorem collect_eq (s : Source) (before : String) (vars : List String) (t : Table String)
    (d : Decl) : collect before t d = (d.preorder s before vars).foldl note t := by
  cases d with
  | mk place name methods nested =>
    rw [collect, Decl.preorder, List.foldl_cons]
    exact collectAll_eq s _ _ _ nested

theorem collectAll_eq (s : Source) (before : String) (vars : List String) (t : Table String)
    (l : List Decl) : collectAll before t l = (preorderAll s before vars l).foldl note t := by
  cases l with
  | nil => rw [collectAll, preorderAll, List.foldl_nil]
  | cons d rest =>
    rw [collectAll, preorderAll, List.foldl_append, collect_eq s before vars t d]
    exact collectAll_eq s before vars _ rest

end

/-! ## Units without a fault -/

/-- The scope in which the unit's signatures are read. -/
def SourceUnit.ownScope (u : SourceUnit) (package : Option Package) : Scope :=
  u.scope (u.declarations package)

/-- Without a fault every declaration is read, and in the unit's own scope. -/
theorem exists_of_fault_none {u : SourceUnit} (h : u.contribution.fault = none) :
    ∃ package l built, packageOf u = .ok package ∧ u.outlines = .ok l ∧
      (u.declarations package).mapM (typeDecl (u.ownScope package)) = .ok built ∧
      u.types = built.map Prod.snd := by
  unfold SourceUnit.types SourceUnit.contribution at *
  cases hp : packageOf u with
  | error f => simp [hp] at h
  | ok package =>
    cases hl : u.outlines with
    | error f => simp [hp, hl] at h
    | ok l =>
      simp only [hp, hl, preorder_eq hl] at h ⊢
      exact ⟨package, l, _, rfl, rfl, Progress.mapM_of_fault_none h, rfl⟩

theorem isSome_name_of_mem_nested {u : SourceUnit} {l : List Decl} (read : u.outlines = .ok l)
    {c : Nested} (hc : c ∈ u.nested) : (c.place.node.childByField? "name").isSome := by
  obtain ⟨p, hp, hc⟩ := List.mem_flatMap.mp hc
  obtain ⟨d, -, outlined⟩ := exists_ok_of_mem read hp
  exact isSome_name_of_outline outlined hc

/-- A simple name means the first declaration that has it. -/
theorem get?_localsOf (l : List Declaration) (name : String) :
    (localsOf l).get? name =
      (l.find? fun d => d.simpleName = name).map Declaration.qualifiedName := by
  rw [localsOf_eq, Table.get?_putNewAll]
  change (l.map fun d => (d.simpleName, d.qualifiedName)).lookup name = _
  induction l with
  | nil => rfl
  | cons d rest ih =>
    rw [List.map_cons, Table.lookup_cons_eq, ih, List.find?_cons]
    by_cases h : name = d.simpleName
    · simp [h]
    · have differs : d.simpleName ≠ name := Ne.symm h
      simp [h, differs]

theorem exists_get?_localsOf {l : List Declaration} {d : Declaration} (hd : d ∈ l) :
    ∃ first ∈ l, (localsOf l).get? d.simpleName = some first.qualifiedName := by
  have named : (l.find? fun e => e.simpleName = d.simpleName).isSome := by
    rw [List.find?_isSome]
    exact ⟨d, hd, by simp⟩
  obtain ⟨first, found⟩ := Option.isSome_iff_exists.mp named
  refine ⟨first, List.mem_of_find?_eq_some found, ?_⟩
  rw [get?_localsOf, found, Option.map_some]

theorem resolve_of_get? {scope : Scope} {vars : List String} {name qualified : String}
    (free : name ∉ vars) (found : scope.locals.get? name = some qualified) :
    scope.resolve vars name = qualified := by
  simp [Scope.resolve, free, found]

/-- What is found among results was made from what is found among their origins. -/
theorem exists_find?_of_forall₂ {α β : Type} {R : α → β → Prop} {l : List α} {r : List β}
    (related : List.Forall₂ R l r) {p : α → Bool} {q : β → Bool}
    (same : ∀ a b, R a b → p a = q b) {b : β} (found : r.find? q = some b) :
    ∃ a, l.find? p = some a ∧ R a b := by
  induction related with
  | nil => cases found
  | cons head tail ih =>
    rw [List.find?_cons] at found ⊢
    rw [same _ _ head]
    split at found
    · cases found
      exact ⟨_, rfl, head⟩
    · exact ih found

/-- What an index holds of a unit that was read without a fault. -/
structure Covers (u : SourceUnit) (package : Option Package) (x : Index) : Prop where
  /-- The declarations are those that member lists lead to from the top of the unit. -/
  reached : ∀ c, c ∈ u.nested ↔ Reached u.tree c.chain
  named : ∀ c ∈ u.nested, (c.place.node.childByField? "name").isSome
  /-- In preorder, each under its first declaration. -/
  names : x.types.names =
    (u.nested.map (Nested.qualifiedName u.source (packagePrefix package))).eraseDups
  /-- The methods of a type are the method members of its first declaration, one by one. -/
  methods : ∀ name t, (name, t) ∈ x.types.entries → ∃ c,
    u.nested.find? (fun c => c.qualifiedName u.source (packagePrefix package) = name) = some c ∧
      List.Forall₂ (fun m r => method (u.ownScope package) (c.typeVars u.source) m = .ok r)
        (memberMethods c.place.node) t.methods
  /-- The walk that gathers names comes by the same declarations. -/
  collected : ∃ l, u.outlines = .ok l ∧
    collectAll (packagePrefix package) Table.empty l = (u.ownScope package).locals
  locals : ∀ simple qualified, (u.ownScope package).locals.get? simple = some qualified →
    qualified ∈ x.types.names
  /-- The simple name of a declaration means a type of the index, unless a variable hides it. -/
  resolved : ∀ c ∈ u.nested, ∀ vars, simpleName u.source c.place ∉ vars →
    (u.ownScope package).resolve vars (simpleName u.source c.place) ∈ x.types.names

theorem names_eq_of_read {u : SourceUnit} {package : Option Package}
    {built : List (Nat × TypeDecl)}
    (read : (u.declarations package).mapM (typeDecl (u.ownScope package)) = .ok built) :
    (built.map Prod.snd).map TypeDecl.qualifiedName =
      u.nested.map (Nested.qualifiedName u.source (packagePrefix package)) := by
  have each := (forall₂_of_mapM read).imp fun d t made => typeDecl_qualifiedName made
  have names : built.map (fun t => t.2.qualifiedName) =
      (u.declarations package).map Declaration.qualifiedName := by
    rw [← List.forall₂_eq_eq_eq, List.forall₂_map_left_iff, List.forall₂_map_right_iff]
    exact each.flip
  rw [List.map_map]
  exact names.trans (List.map_map ..)

/-- The first type of a name comes from the first declaration of that name, and its methods from
the method members. -/
theorem methods_of_read {u : SourceUnit} {package : Option Package}
    {built : List (Nat × TypeDecl)}
    (read : (u.declarations package).mapM (typeDecl (u.ownScope package)) = .ok built)
    {name : String} {t : TypeDecl}
    (found : (built.map Prod.snd).find? (fun t => t.qualifiedName = name) = some t) :
    ∃ c, u.nested.find? (fun c => c.qualifiedName u.source (packagePrefix package) = name) = some c ∧
      List.Forall₂ (fun m r => method (u.ownScope package) (c.typeVars u.source) m = .ok r)
        (memberMethods c.place.node) t.methods := by
  rw [List.find?_map] at found
  obtain ⟨b, foundBuilt, rfl⟩ := Option.map_eq_some_iff.mp found
  obtain ⟨d, foundRead, made⟩ := exists_find?_of_forall₂ (forall₂_of_mapM read)
    (p := fun d => d.qualifiedName = name)
    (fun d b made => by simp [typeDecl_qualifiedName made]) foundBuilt
  rw [SourceUnit.declarations, List.find?_map] at foundRead
  obtain ⟨c, foundNested, rfl⟩ := Option.map_eq_some_iff.mp foundRead
  obtain ⟨_, _, methods, readMethods, shape⟩ := exists_of_typeDecl made
  refine ⟨c, foundNested, ?_⟩
  rw [shape]
  exact forall₂_of_mapM readMethods

/-- A unit that is read without a fault is covered by its index. -/
theorem covers_of_read {u : SourceUnit} (read : (empty.add u).result = none) :
    ∃ package, packageOf u = .ok package ∧ Covers u package (empty.add u).index := by
  rw [add_result] at read
  obtain ⟨package, l, built, hp, hl, made, types⟩ := exists_of_fault_none read
  have history : IsHistory [u] (empty.add u).index := isHistory_addAll_empty [u]
  have names : (empty.add u).index.types.names =
      (u.nested.map (Nested.qualifiedName u.source (packagePrefix package))).eraseDups := by
    rw [history.typeNames, List.flatMap_singleton, types, names_eq_of_read made]
  have known : ∀ d ∈ u.declarations package,
      d.qualifiedName ∈ (empty.add u).index.types.names := by
    intro d hd
    obtain ⟨c, hc, rfl⟩ := List.mem_map.mp hd
    rw [names, List.mem_eraseDups]
    exact List.mem_map_of_mem hc
  refine ⟨package, hp, fun c => mem_nested_iff, fun c => isSome_name_of_mem_nested hl, names,
    ?_, ⟨l, hl, ?_⟩, ?_, ?_⟩
  · intro name t entry
    have found := (Table.mem_entries_iff history.nodup_types).mp entry
    rw [history.types, List.flatMap_singleton, types] at found
    exact methods_of_read made found
  · rw [collectAll_eq u.source (packagePrefix package) [] Table.empty l]
    change (u.preorder package l).foldl note Table.empty = _
    rw [preorder_eq hl]
    rfl
  · intro simple qualified found
    obtain ⟨d, hd, -, rfl⟩ := mem_of_get?_localsOf found
    exact known d hd
  · intro c hc vars free
    have declared : c.declaration u.source (packagePrefix package) ∈ u.declarations package :=
      List.mem_map_of_mem hc
    obtain ⟨first, hfirst, meaning⟩ := exists_get?_localsOf declared
    rw [SourceUnit.ownScope, SourceUnit.scope, resolve_of_get? free meaning]
    exact known first hfirst

/-- Types inside a class, inside the body of an enumeration and inside a second class of a name
that is taken; classes inside a constant and inside a method, which do not count. -/
def nestedUnit : SourceUnit where
  source := Source.ofText "p A m B C x D"
  path := none
  tree := .mk "program" 0 13 true none
    [.mk "package_declaration" 0 1 true none [.mk "identifier" 0 1 true none []],
     .mk "class_declaration" 2 9 true none
       [.mk "identifier" 2 3 true (some "name") [],
        .mk "class_body" 4 9 true (some "body")
          [.mk "method_declaration" 4 7 true none
             [.mk "type_identifier" 6 7 true (some "type") [],
              .mk "identifier" 4 5 true (some "name") [],
              .mk "block" 12 13 true (some "body")
                [.mk "class_declaration" 12 13 true none
                  [.mk "identifier" 12 13 true (some "name") []]]],
           .mk "class_declaration" 6 7 true none
             [.mk "identifier" 6 7 true (some "name") []]]],
     .mk "enum_declaration" 8 13 true none
       [.mk "identifier" 8 9 true (some "name") [],
        .mk "enum_body" 6 13 true (some "body")
          [.mk "enum_constant" 10 13 true none
             [.mk "class_body" 12 13 true (some "body")
               [.mk "class_declaration" 12 13 true none
                 [.mk "identifier" 12 13 true (some "name") []]]],
           .mk "enum_body_declarations" 6 13 true none
             [.mk "class_declaration" 6 7 true none
                [.mk "identifier" 6 7 true (some "name") []],
              .mk "method_declaration" 4 9 true none
                [.mk "type_identifier" 8 9 true (some "type") [],
                 .mk "identifier" 4 5 true (some "name") []]]]],
     .mk "class_declaration" 2 13 true none
       [.mk "identifier" 2 3 true (some "name") [],
        .mk "class_body" 12 13 true (some "body")
          [.mk "class_declaration" 12 13 true none
            [.mk "identifier" 12 13 true (some "name") []]]]]

theorem covers_of_read_nested :
    (empty.add nestedUnit).result = none ∧
      (empty.add nestedUnit).index.types.names = ["p.A", "p.A.B", "p.C", "p.C.B", "p.A.D"] ∧
      (empty.add nestedUnit).index.types.entries.map
          (fun e => e.2.methods.map fun m => (m.name, m.returnType.text)) =
        [[("m", "p.A.B")], [], [("m", "p.C")], [], []] ∧
      ∃ package, packageOf nestedUnit = .ok package ∧
        Covers nestedUnit package (empty.add nestedUnit).index :=
  ⟨by decide +kernel, by decide +kernel, by decide +kernel, covers_of_read (by decide +kernel)⟩

end Index

end ApiDocs
