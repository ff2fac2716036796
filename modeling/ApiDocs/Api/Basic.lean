import ApiDocs.Api.TypeRef
import ApiDocs.Comment.Descriptions

/-! The declarations that are documented: packages, and types with their methods. -/

namespace ApiDocs

structure Param where
  name : String
  type : TypeRef
deriving DecidableEq, Repr

structure Method where
  /-- Overloads share it. -/
  name : String
  returnType : TypeRef
  params : List Param := []
  annotations : List String := []
  comment : Option Comment := none
deriving DecidableEq, Repr

structure TypeDecl where
  qualifiedName : String
  simpleName : String
  superclass : Option TypeRef := none
  interfaces : List TypeRef := []
  /-- Those the type declares itself. -/
  methods : List Method := []
  comment : Option Comment := none
deriving DecidableEq, Repr

structure Package where
  qualifiedName : String
  comment : Option Comment := none
deriving DecidableEq, Repr

/-- Packages and types, each in the order in which they were found. -/
structure Catalog where
  packages : List Package := []
  types : List TypeDecl := []
deriving DecidableEq, Repr

end ApiDocs
