import ApiDocs.Index.Signature

/-! The type declarations of a source unit as a tree, and in preorder with qualified names.
Members of an enumeration stand in a node of their own after its constants; they count as members
of the body. Nothing inside methods, fields or constants is looked at. -/

namespace ApiDocs.Index

open Node

def typeDeclarationKinds : List String :=
  ["class_declaration", "interface_declaration", "enum_declaration", "record_declaration",
   "annotation_type_declaration"]

def methodKinds : List String := ["method_declaration", "annotation_type_element_declaration"]

def isTypeDeclaration (p : Placed) : Bool := typeDeclarationKinds.contains p.node.kind

def isMethod (p : Placed) : Bool := methodKinds.contains p.node.kind

def namedPlaced (n : Node) : List Placed := n.placedChildren.filter fun p => p.node.named

def members (n : Node) : List Placed :=
  match n.childByField? "body" with
  | none => []
  | some body =>
    (namedPlaced body).flatMap fun p =>
      if p.node.kind = "enum_body_declarations" then namedPlaced p.node else [p]

theorem mem_children_of_mem_namedPlaced {n : Node} {p : Placed} (h : p ∈ namedPlaced n) :
    p.node ∈ n.children :=
  mem_children_of_mem_placed (List.mem_filter.mp h).1

theorem isTypeDeclaration_iff {p : Placed} : isTypeDeclaration p = true ↔
    p.node.kind ∈ ["class_declaration", "interface_declaration", "enum_declaration",
      "record_declaration", "annotation_type_declaration"] := by
  simp [isTypeDeclaration, typeDeclarationKinds]

theorem isMethod_iff {p : Placed} : isMethod p = true ↔
    p.node.kind ∈ ["method_declaration", "annotation_type_element_declaration"] := by
  simp [isMethod, methodKinds]

theorem mem_members_iff {n : Node} {p : Placed} : p ∈ members n ↔
    ∃ body, n.childByField? "body" = some body ∧ ∃ q ∈ namedPlaced body,
      if q.node.kind = "enum_body_declarations" then p ∈ namedPlaced q.node else p = q := by
  unfold members
  cases n.childByField? "body" with
  | none => simp
  | some body =>
    simp only [List.mem_flatMap, Option.some.injEq, exists_eq_left']
    refine exists_congr fun q => and_congr_right fun _ => ?_
    split
    · exact Iff.rfl
    · exact List.mem_singleton

theorem sizeOf_lt_of_mem_members {n : Node} {p : Placed} (h : p ∈ members n) :
    sizeOf p.node < sizeOf n := by
  obtain ⟨body, hbody, q, hq, hp⟩ := mem_members_iff.mp h
  have hb := sizeOf_lt_of_mem_children (mem_children_of_childByField hbody)
  have hq := sizeOf_lt_of_mem_children (mem_children_of_mem_namedPlaced hq)
  split at hp
  · have hp := sizeOf_lt_of_mem_children (mem_children_of_mem_namedPlaced hp)
    omega
  · subst hp
    omega

inductive Decl where
  | mk (place : Placed) (name : String) (methods : List Placed) (nested : List Decl)

/-- A declaration needs a name, and so does each that it holds. -/
def outline (source : Source) (p : Placed) : Except Fault Decl := do
  let name ← textOfField source p.node "name"
  let nested ← ((members p.node).filter isTypeDeclaration).attach.mapM fun m => outline source m.1
  return .mk p name ((members p.node).filter isMethod) nested
termination_by sizeOf p.node
decreasing_by exact sizeOf_lt_of_mem_members (List.mem_filter.mp m.2).1

theorem outline_eq (source : Source) (p : Placed) :
    outline source p = do
      let name ← textOfField source p.node "name"
      let nested ← ((members p.node).filter isTypeDeclaration).mapM (outline source)
      return .mk p name ((members p.node).filter isMethod) nested := by
  rw [outline, List.mapM_subtype (fun _ _ => rfl), List.unattach_attach]

/-- A type declaration on its own. -/
structure Declaration where
  place : Placed
  simpleName : String
  qualifiedName : String
  /-- The type variables in scope inside, its own and those of the declarations around it. -/
  typeVars : List String
  methods : List Placed

mutual

/-- The declaration and all inside it, each before its members; `before` stands in front of the
name. -/
def Decl.preorder (source : Source) (before : String) (vars : List String) :
    Decl → List Declaration
  | .mk place name methods nested =>
    let vars := typeParameters source place.node ++ vars
    ⟨place, name, before ++ name, vars, methods⟩ ::
      preorderAll source (before ++ name ++ ".") vars nested

def preorderAll (source : Source) (before : String) (vars : List String) :
    List Decl → List Declaration
  | [] => []
  | d :: rest => d.preorder source before vars ++ preorderAll source before vars rest

end

end ApiDocs.Index
