import ApiDocs.Index.Basic
import ApiDocs.Proofs.Outcome
import Mathlib.Data.List.Chain

/-! The type declarations of a unit, told by what they stand in. A declaration is reached from the
top of the unit through member lists, and the chain of declarations on the way gives its qualified
name and the type variables in scope; `preorder_eq` says that these are the declarations the unit
is outlined into. -/

namespace ApiDocs.Index

open Node

def simpleName (s : Source) (p : Placed) : String :=
  ((p.node.childByField? "name").map fun c => c.text s).getD ""

theorem simpleName_of_field {s : Source} {p : Placed} {n : Node}
    (named : p.node.childByField? "name" = some n) : simpleName s p = n.text s := by
  simp [simpleName, named]

def topTypes (n : Node) : List Placed := n.placedChildren.filter isTypeDeclaration

/-- The types that a declaration holds directly. -/
def memberTypes (n : Node) : List Placed := (members n).filter isTypeDeclaration

def memberMethods (n : Node) : List Placed := (members n).filter isMethod

theorem mem_memberTypes_iff {n : Node} {p : Placed} : p ∈ memberTypes n ↔
    p ∈ members n ∧ p.node.kind ∈ ["class_declaration", "interface_declaration",
      "enum_declaration", "record_declaration", "annotation_type_declaration"] := by
  rw [memberTypes, List.mem_filter, isTypeDeclaration_iff]

theorem mem_memberMethods_iff {n : Node} {p : Placed} : p ∈ memberMethods n ↔
    p ∈ members n ∧
      p.node.kind ∈ ["method_declaration", "annotation_type_element_declaration"] := by
  rw [memberMethods, List.mem_filter, isMethod_iff]

theorem sizeOf_lt_of_mem_memberTypes {n : Node} {p : Placed} (h : p ∈ memberTypes n) :
    sizeOf p.node < sizeOf n :=
  sizeOf_lt_of_mem_members (mem_memberTypes_iff.mp h).1

/-- A type declaration with those around it, the outermost first. -/
structure Nested where
  around : List Placed
  place : Placed

namespace Nested

def chain (c : Nested) : List Placed := c.around ++ [c.place]

/-- One of the types it holds. -/
def member (c : Nested) (m : Placed) : Nested := ⟨c.chain, m⟩

def qualifiedName (s : Source) (before : String) (c : Nested) : String :=
  before ++ ".".intercalate (c.chain.map (simpleName s))

/-- The type variables in scope inside, the innermost first. -/
def typeVars (s : Source) (c : Nested) : List String :=
  c.chain.reverse.flatMap fun p => typeParameters s p.node

def declaration (s : Source) (before : String) (c : Nested) : Declaration :=
  ⟨c.place, simpleName s c.place, c.qualifiedName s before, c.typeVars s,
    memberMethods c.place.node⟩

@[simp] theorem member_place (c : Nested) (m : Placed) : (c.member m).place = m := rfl

theorem eq_of_chain {c d : Nested} (h : c.chain = d.chain) : c = d := by
  obtain ⟨around, place⟩ := c
  obtain ⟨rfl, last⟩ := List.append_inj' h rfl
  cases last
  rfl

theorem qualifiedName_top (s : Source) (before : String) (p : Placed) :
    qualifiedName s before ⟨[], p⟩ = before ++ simpleName s p := by
  simp [qualifiedName, chain]

theorem intercalate_snoc (sep : String) (l : List String) (a b : String) :
    sep.intercalate (l ++ [a] ++ [b]) = sep.intercalate (l ++ [a]) ++ sep ++ b := by
  induction l with
  | nil => simp
  | cons c l ih => cases l <;> simp_all [String.append_assoc]

theorem qualifiedName_member (s : Source) (before : String) (c : Nested) (m : Placed) :
    (c.member m).qualifiedName s before = c.qualifiedName s before ++ "." ++ simpleName s m := by
  simp only [qualifiedName, member, chain, List.map_append, List.map_cons, List.map_nil,
    intercalate_snoc, String.append_assoc]

theorem typeVars_top (s : Source) (p : Placed) :
    typeVars s ⟨[], p⟩ = typeParameters s p.node := by
  simp [typeVars, chain]

theorem typeVars_member (s : Source) (c : Nested) (m : Placed) :
    (c.member m).typeVars s = typeParameters s m.node ++ c.typeVars s := by
  simp [typeVars, member, chain]

end Nested

/-- The declaration and all inside it, each before its members. -/
def nestedIn (around : List Placed) (p : Placed) : List Nested :=
  ⟨around, p⟩ :: (memberTypes p.node).attach.flatMap fun m => nestedIn (around ++ [p]) m.1
termination_by sizeOf p.node
decreasing_by exact sizeOf_lt_of_mem_memberTypes m.2

theorem nestedIn_eq (around : List Placed) (p : Placed) :
    nestedIn around p = ⟨around, p⟩ :: (memberTypes p.node).flatMap (nestedIn (around ++ [p])) := by
  rw [nestedIn, List.flatMap_subtype (fun _ _ => rfl), List.unattach_attach]

/-- All declarations of the unit, each before its members. -/
def SourceUnit.nested (u : SourceUnit) : List Nested := (topTypes u.tree).flatMap (nestedIn [])

/-! ## Which declarations there are -/

/-- Each declaration of the chain is a member of the one before it. -/
abbrev Descends (chain : List Placed) : Prop :=
  chain.IsChain fun p q => q ∈ memberTypes p.node

/-- The chain starts at the top of the unit. -/
structure Reached (tree : Node) (chain : List Placed) : Prop where
  top : ∃ p ∈ chain.head?, p ∈ topTypes tree
  descends : Descends chain

theorem mem_nestedIn_iff {around : List Placed} {p : Placed} {c : Nested} :
    c ∈ nestedIn around p ↔ ∃ below, c.chain = around ++ p :: below ∧ Descends (p :: below) := by
  rw [nestedIn_eq, List.mem_cons, List.mem_flatMap]
  have inner : ∀ m ∈ memberTypes p.node, c ∈ nestedIn (around ++ [p]) m ↔
      ∃ below, c.chain = around ++ [p] ++ m :: below ∧ Descends (m :: below) := by
    intro m hm
    exact mem_nestedIn_iff
  constructor
  · rintro (rfl | ⟨m, hm, hc⟩)
    · exact ⟨[], rfl, .singleton p⟩
    · obtain ⟨below, chain, descends⟩ := (inner m hm).mp hc
      exact ⟨m :: below, by simpa using chain, .cons_cons hm descends⟩
  · rintro ⟨below, chain, descends⟩
    cases below with
    | nil => exact .inl (Nested.eq_of_chain chain)
    | cons m below =>
      obtain ⟨hm, descends⟩ := List.isChain_cons_cons.mp descends
      exact .inr ⟨m, hm, (inner m hm).mpr ⟨below, by simpa using chain, descends⟩⟩
termination_by sizeOf p.node
decreasing_by exact sizeOf_lt_of_mem_memberTypes hm

theorem mem_nested_iff {u : SourceUnit} {c : Nested} : c ∈ u.nested ↔ Reached u.tree c.chain := by
  rw [SourceUnit.nested, List.mem_flatMap]
  constructor
  · rintro ⟨p, hp, hc⟩
    obtain ⟨below, chain, descends⟩ := mem_nestedIn_iff.mp hc
    rw [chain, List.nil_append]
    exact ⟨⟨p, rfl, hp⟩, descends⟩
  · rintro ⟨⟨p, first, hp⟩, descends⟩
    obtain ⟨below, chain⟩ := List.head?_eq_some_iff.mp first
    rw [chain] at descends
    exact ⟨p, hp, mem_nestedIn_iff.mpr ⟨below, chain, descends⟩⟩

/-- What a declaration holds follows it among the declarations of the unit. -/
theorem member_mem_nested {u : SourceUnit} {c : Nested} (hc : c ∈ u.nested) {m : Placed}
    (hm : m ∈ memberTypes c.place.node) : c.member m ∈ u.nested := by
  obtain ⟨⟨p, first, hp⟩, descends⟩ := mem_nested_iff.mp hc
  refine mem_nested_iff.mpr ⟨⟨p, ?_, hp⟩, ?_⟩
  · rw [Nested.member, Nested.chain, List.head?_append_of_ne_nil _ (by simp [Nested.chain])]
    exact first
  · refine descends.append (.singleton m) ?_
    simpa [Nested.chain, Nested.member] using hm

/-! ## The outline of the unit -/

theorem childOr_eq_ok_iff {n c : Node} {field : String} :
    childOr n field = .ok c ↔ n.childByField? field = some c := by
  unfold childOr
  cases n.childByField? field <;> simp

theorem textOfField_eq_ok_iff {s : Source} {n : Node} {field text : String} :
    textOfField s n field = .ok text ↔ ∃ c, n.childByField? field = some c ∧ c.text s = text := by
  unfold textOfField childOr
  cases n.childByField? field <;> simp [Except.map]

/-- The name of an outlined declaration and its members. -/
theorem exists_of_outline {s : Source} {p : Placed} {d : Decl} (h : outline s p = .ok d) :
    (p.node.childByField? "name").isSome ∧ ∃ nested,
      (memberTypes p.node).mapM (outline s) = .ok nested ∧
        d = .mk p (simpleName s p) (memberMethods p.node) nested := by
  rw [outline_eq] at h
  obtain ⟨name, named, h⟩ := bind_eq_ok_iff.mp h
  obtain ⟨nested, read, h⟩ := bind_eq_ok_iff.mp h
  obtain ⟨c, found, rfl⟩ := textOfField_eq_ok_iff.mp named
  cases h
  refine ⟨by simp [found], nested, read, ?_⟩
  rw [simpleName_of_field found]
  rfl

/-- Lists of declarations follow from their elements. -/
theorem preorderAll_eq_nested {s : Source} {before front : String} {vars : List String}
    {around : List Placed} {l : List Placed} {ds : List Decl}
    (read : List.Forall₂ (fun p d => outline s p = .ok d) l ds)
    (each : ∀ p ∈ l, ∀ d, outline s p = .ok d →
      d.preorder s front vars = (nestedIn around p).map (Nested.declaration s before)) :
    preorderAll s front vars ds =
      (l.flatMap (nestedIn around)).map (Nested.declaration s before) := by
  induction read with
  | nil => simp [preorderAll]
  | cons head tail ih =>
    obtain ⟨first, others⟩ := List.forall_mem_cons.mp each
    rw [preorderAll, first _ head, ih others, List.flatMap_cons, List.map_append]

/-- A declaration comes before its members under its own name, and they come with the name as
their prefix. -/
theorem preorder_eq_nestedIn {s : Source} {before front : String} {vars : List String}
    {around : List Placed} {p : Placed} {d : Decl} (read : outline s p = .ok d)
    (name : front ++ simpleName s p = Nested.qualifiedName s before ⟨around, p⟩)
    (scope : typeParameters s p.node ++ vars = Nested.typeVars s ⟨around, p⟩) :
    d.preorder s front vars = (nestedIn around p).map (Nested.declaration s before) := by
  obtain ⟨-, nested, inner, rfl⟩ := exists_of_outline read
  have members : ∀ m ∈ memberTypes p.node, ∀ e, outline s m = .ok e →
      e.preorder s (front ++ simpleName s p ++ ".") (typeParameters s p.node ++ vars) =
        (nestedIn (around ++ [p]) m).map (Nested.declaration s before) := by
    intro m hm e hread
    refine preorder_eq_nestedIn hread ?_ ?_
    · rw [name]
      exact (Nested.qualifiedName_member s before ⟨around, p⟩ m).symm
    · rw [scope]
      exact (Nested.typeVars_member s ⟨around, p⟩ m).symm
  rw [Decl.preorder, nestedIn_eq, List.map_cons,
    preorderAll_eq_nested (forall₂_of_mapM inner) members, Nested.declaration, name, scope]
termination_by sizeOf p.node
decreasing_by exact sizeOf_lt_of_mem_memberTypes hm

/-- A declaration can be outlined only if it and all inside it have names. -/
theorem isSome_name_of_outline {s : Source} {around : List Placed} {p : Placed} {d : Decl}
    (read : outline s p = .ok d) {c : Nested} (hc : c ∈ nestedIn around p) :
    (c.place.node.childByField? "name").isSome := by
  obtain ⟨named, nested, inner, -⟩ := exists_of_outline read
  rw [nestedIn_eq, List.mem_cons, List.mem_flatMap] at hc
  rcases hc with rfl | ⟨m, hm, hc⟩
  · exact named
  · obtain ⟨e, -, hread⟩ := exists_ok_of_mem inner hm
    exact isSome_name_of_outline hread hc
termination_by sizeOf p.node
decreasing_by exact sizeOf_lt_of_mem_memberTypes hm

/-! ## The unit -/

/-- The declarations of the unit as the index reads them. -/
def SourceUnit.declarations (u : SourceUnit) (package : Option Package) : List Declaration :=
  u.nested.map (Nested.declaration u.source (packagePrefix package))

theorem preorder_eq {u : SourceUnit} {l : List Decl} (read : u.outlines = .ok l)
    (package : Option Package) : u.preorder package l = u.declarations package := by
  refine preorderAll_eq_nested (forall₂_of_mapM read) fun p _ d hread => ?_
  refine preorder_eq_nestedIn hread ?_ ?_
  · exact (Nested.qualifiedName_top u.source _ p).symm
  · rw [Nested.typeVars_top, List.append_nil]

end ApiDocs.Index
