import ApiDocs.Proofs.Index.Totality
import ApiDocs.Proofs.Outcome
import ApiDocs.Proofs.Report.Order

/-! What a catalog is compiled to. Only a reference to a declared supertype without a name stands in
the way, and the first one of the documented types is reported. Otherwise each documented type and
each package has its record; sorting moves the records of classes and packages as a whole and leaves
those of one name in their order. -/

namespace ApiDocs

/-- A reference to a declared type that does not say which. -/
def TypeRef.Unnamed (r : TypeRef) : Prop :=
  r.kind = .declared ∧ (r.qualifiedName = none ∨ r.qualifiedName = some "")

instance (r : TypeRef) : Decidable r.Unnamed :=
  inferInstanceAs (Decidable (r.kind = .declared ∧
    (r.qualifiedName = none ∨ r.qualifiedName = some "")))

/-- The reference says which declared type it means. -/
def TypeRef.NamedBy (r : TypeRef) (name : String) : Prop :=
  r.qualifiedName = some name ∧ name ≠ ""

namespace Report

/-! ## References without a name -/

/-- What a supertype stands in the way with. -/
def faultOf (r : TypeRef) : Option UnnamedReference := if r.Unnamed then some ⟨r.text⟩ else none

theorem fault?_declaredName {r : TypeRef} (declared : r.kind = .declared) :
    fault? r.declaredName = faultOf r := by
  cases name : r.qualifiedName with
  | none => simp [TypeRef.declaredName, faultOf, TypeRef.Unnamed, declared, name, fault?]
  | some text =>
    by_cases empty : text = "" <;>
      simp [TypeRef.declaredName, faultOf, TypeRef.Unnamed, declared, name, empty, fault?]

theorem faultOf_of_ne_declared {r : TypeRef} (other : r.kind ≠ .declared) : faultOf r = none := by
  simp [faultOf, TypeRef.Unnamed, other]

theorem fault?_compileSuperclass (o : Option TypeRef) :
    fault? (compileSuperclass o) = o.toList.findSome? faultOf := by
  cases o with
  | none => rfl
  | some r =>
    rw [Option.toList_some, List.findSome?_singleton, compileSuperclass]
    split
    · next declared => rw [fault?_map, fault?_declaredName declared]
    · next other => rw [faultOf_of_ne_declared other]; rfl

theorem fault?_interfaces (l : List TypeRef) :
    fault? ((l.filter fun r => r.kind = .declared).mapM TypeRef.declaredName) =
      l.findSome? faultOf := by
  rw [fault?_mapM]
  induction l with
  | nil => rfl
  | cons r rest ih =>
    by_cases declared : r.kind = .declared
    · rw [List.filter_cons_of_pos (by simpa using declared), List.findSome?_cons,
        List.findSome?_cons, fault?_declaredName declared, ih]
    · rw [List.filter_cons_of_neg (by simpa using declared), List.findSome?_cons,
        faultOf_of_ne_declared declared, ih]

/-- The superclass is looked at before the interfaces. -/
theorem fault?_compileClass (t : TypeDecl) :
    fault? (compileClass t) = t.supertypes.findSome? faultOf := by
  unfold compileClass
  rw [fault?_bind fun _ => fault?_bind (o := none) fun _ => rfl, fault?_compileSuperclass,
    fault?_interfaces, Option.or_none, TypeDecl.supertypes, List.findSome?_append]

/-- The supertypes of the documented types, in the order of the catalog. -/
def references (c : Catalog) : List TypeRef := (documented c).flatMap TypeDecl.supertypes

theorem findSome?_flatMap {α β γ : Type} (f : β → Option γ) (g : α → List β) (l : List α) :
    (l.flatMap g).findSome? f = l.findSome? fun a => (g a).findSome? f := by
  induction l with
  | nil => rfl
  | cons a rest ih =>
    rw [List.flatMap_cons, List.findSome?_append, ih, List.findSome?_cons]
    cases (g a).findSome? f <;> rfl

theorem findSome?_faultOf (l : List TypeRef) :
    l.findSome? faultOf = (l.find? fun r => r.Unnamed).map fun r => ⟨r.text⟩ := by
  induction l with
  | nil => rfl
  | cons r rest ih =>
    rw [List.findSome?_cons, List.find?_cons, ih]
    by_cases unnamed : r.Unnamed <;> simp [faultOf, unnamed]

theorem fault?_compile (settings : Settings) (c : Catalog) :
    fault? (compile settings c) =
      ((references c).find? fun r => r.Unnamed).map fun r => ⟨r.text⟩ := by
  rw [compile_eq, fault?_map, fault?_mapM, ← findSome?_faultOf, references, findSome?_flatMap]
  simp only [fault?_compileClass]

theorem mem_references_iff {c : Catalog} {r : TypeRef} :
    r ∈ references c ↔ ∃ t ∈ c.types, t.methods ≠ [] ∧ r ∈ t.supertypes := by
  simp [references, documented, and_assoc]

/-! ## Records -/

structure ArgumentOf (p : Param) (r : Argument) : Prop where
  name : r.name = p.name
  type : r.type = p.type.text

structure MethodOf (m : ApiDocs.Method) (r : Method) : Prop where
  name : r.name = m.name
  returns : r.returns.type = m.returnType.text
  arguments : List.Forall₂ ArgumentOf m.params r.arguments
  annotations : r.annotations = m.annotations

/-- Supertypes of other kinds than the declared one are left out, and all else is kept in order. -/
structure ClassOf (t : TypeDecl) (r : Class) : Prop where
  name : r.name = t.qualifiedName
  superclass : List.Forall₂ TypeRef.NamedBy
    (t.superclass.toList.filter fun s => s.kind = .declared) r.superclass.toList
  interfaces : List.Forall₂ TypeRef.NamedBy
    (t.interfaces.filter fun s => s.kind = .declared) r.interfaces
  methods : List.Forall₂ MethodOf t.methods r.methods

def PackageOf (p : ApiDocs.Package) (r : Package) : Prop := r.name = p.qualifiedName

theorem methodOf_compileMethod (m : ApiDocs.Method) : MethodOf m (compileMethod m) where
  name := rfl
  returns := rfl
  arguments := by
    rw [compileMethod, List.forall₂_map_right_iff, List.forall₂_same]
    exact fun p _ => ⟨rfl, rfl⟩
  annotations := rfl

theorem namedBy_of_declaredName {r : TypeRef} {name : String} (h : r.declaredName = .ok name) :
    r.NamedBy name := by
  unfold TypeRef.declaredName at h
  split at h
  · cases h
  · next known found =>
    split at h
    · cases h
    · next filled =>
      cases h
      exact ⟨found, by simpa using filled⟩

theorem superclass_of_compiled {o : Option TypeRef} {r : Option String}
    (h : compileSuperclass o = .ok r) :
    List.Forall₂ TypeRef.NamedBy (o.toList.filter fun s => s.kind = .declared) r.toList := by
  cases o with
  | none =>
    cases h
    exact .nil
  | some s =>
    by_cases declared : s.kind = .declared
    · rw [compileSuperclass, if_pos declared] at h
      cases named : s.declaredName with
      | error f => rw [named] at h; cases h
      | ok name =>
        rw [named] at h
        cases h
        simpa [declared] using namedBy_of_declaredName named
    · rw [compileSuperclass, if_neg declared] at h
      cases h
      simp [declared]

theorem classOf_of_compiled {t : TypeDecl} {r : Class} (h : compileClass t = .ok r) :
    ClassOf t r := by
  obtain ⟨superclass, readSuperclass, h⟩ := bind_eq_ok_iff.mp h
  obtain ⟨interfaces, readInterfaces, h⟩ := bind_eq_ok_iff.mp h
  cases h
  refine ⟨rfl, superclass_of_compiled readSuperclass, ?_, ?_⟩
  · exact (forall₂_of_mapM readInterfaces).imp fun _ _ named => namedBy_of_declaredName named
  · rw [List.forall₂_map_right_iff, List.forall₂_same]
    exact fun m _ => methodOf_compileMethod m

/-! ## Sorting -/

/-- The first name stands before the second by their code points, compared one after the other. -/
def Precedes (s t : String) : Prop :=
  List.Lex (· < ·) (s.toList.map Char.toNat) (t.toList.map Char.toNat)

theorem lex_of_lex_toNat {l m : List Char}
    (h : List.Lex (· < ·) (l.map Char.toNat) (m.map Char.toNat)) : List.Lex (· < ·) l m := by
  induction l generalizing m with
  | nil =>
    cases m with
    | nil => cases h
    | cons d m => exact .nil
  | cons c l ih =>
    cases m with
    | nil => cases h
    | cons d m =>
      rw [List.map_cons, List.map_cons, List.cons_lex_cons_iff] at h
      rw [List.cons_lex_cons_iff]
      exact h.imp_right fun ⟨same, rest⟩ => ⟨Char.toNat_inj.mp same, ih rest⟩

theorem not_precedes_of_le {s t : String} (h : s ≤ t) : ¬ Precedes t s :=
  fun before => String.not_lt.mpr h (lex_of_lex_toNat before)

/-- The list by the code points of the names; what has one name stays in its order. -/
structure StablySorted {α : Type} (name : α → String) (l sorted : List α) : Prop where
  perm : sorted.Perm l
  ordered : sorted.Pairwise fun a b => ¬ Precedes (name b) (name a)
  stable : ∀ s, (sorted.filter fun a => name a = s) = l.filter fun a => name a = s

/-- What stands in order already is not moved. -/
theorem sublist_sortedBy {α : Type} {name : α → String} {l kept : List α} (among : kept.Sublist l)
    (ordered : kept.Pairwise fun a b => name a ≤ name b) : kept.Sublist (sortedBy name l) := by
  refine List.sublist_mergeSort ?_ ?_ (ordered.imp fun h => decide_eq_true h) among
  · exact fun a b c hab hbc => decide_eq_true
      (String.le_trans (of_decide_eq_true hab) (of_decide_eq_true hbc))
  · exact fun a b => by simpa using String.le_total (name a) (name b)

theorem stablySorted_sortedBy {α : Type} (name : α → String) (l : List α) :
    StablySorted name l (sortedBy name l) where
  perm := sortedBy_perm name l
  ordered := (pairwise_sortedBy name l).imp not_precedes_of_le
  stable s := by
    have alike : (l.filter fun a => name a = s).Pairwise fun a b => name a ≤ name b := by
      refine List.pairwise_of_forall_mem_list fun a ha b hb => ?_
      have nameA : name a = s := by simpa using (List.mem_filter.mp ha).2
      have nameB : name b = s := by simpa using (List.mem_filter.mp hb).2
      exact nameA.symm ▸ nameB.symm ▸ String.le_refl s
    have kept := (sublist_sortedBy List.filter_sublist alike).filter fun a => name a = s
    rw [List.filter_filter] at kept
    simp only [Bool.and_self] at kept
    exact (kept.eq_of_length ((sortedBy_perm name l).filter _).length_eq.symm).symm

/-! ## The whole report -/

/-- The records stay in the order of the catalog, unless they are to be sorted by name. -/
def Arranged {α : Type} (settings : Settings) (name : α → String) (l arranged : List α) : Prop :=
  if settings.sortByName then StablySorted name l arranged else arranged = l

/-- One record for each documented type, and one for each package. -/
structure Records (settings : Settings) (c : Catalog) (r : Report) : Prop where
  classes : ∃ l, List.Forall₂ ClassOf (documented c) l ∧ Arranged settings Class.name l r.classes
  packages : ∃ l, List.Forall₂ PackageOf c.packages l ∧
    Arranged settings Package.name l r.packages

theorem arranged_arrange (settings : Settings) (r : Report) :
    Arranged settings Class.name r.classes (arrange settings r).classes ∧
      Arranged settings Package.name r.packages (arrange settings r).packages := by
  unfold Arranged arrange
  split
  · exact ⟨stablySorted_sortedBy _ _, stablySorted_sortedBy _ _⟩
  · exact ⟨rfl, rfl⟩

theorem records_of_compile {settings : Settings} {c : Catalog} {r : Report}
    (h : compile settings c = .ok r) : Records settings c r := by
  rw [compile_eq] at h
  cases made : (documented c).mapM compileClass with
  | error f => rw [made] at h; cases h
  | ok classes =>
    rw [made] at h
    cases h
    obtain ⟨sortedClasses, sortedPackages⟩ :=
      arranged_arrange settings ⟨classes, c.packages.map compilePackage⟩
    refine ⟨⟨classes, ?_, sortedClasses⟩, ⟨c.packages.map compilePackage, ?_, sortedPackages⟩⟩
    · exact (forall₂_of_mapM made).imp fun _ _ compiled => classOf_of_compiled compiled
    · rw [List.forall₂_map_right_iff, List.forall₂_same]
      exact fun p _ => rfl

/-- A catalog is compiled unless a documented type has a declared supertype without a name; the
first such reference is then reported by its text. What it is compiled to has a record for each
documented type and each package. -/
theorem compile_outcome (settings : Settings) (c : Catalog) :
    ((∃ f, compile settings c = .error f) ↔
        ∃ t ∈ c.types, t.methods ≠ [] ∧ ∃ r ∈ t.supertypes, r.Unnamed) ∧
      (∀ f, compile settings c = .error f →
        ∃ r, ((references c).find? fun r => r.Unnamed) = some r ∧
          f.message = "Declared type reference " ++ Text.quoted r.text ++ " has no qualified name") ∧
      ∀ report, compile settings c = .ok report → Records settings c report := by
  have first : ∀ f, compile settings c = .error f ↔
      ∃ r, ((references c).find? fun r => r.Unnamed) = some r ∧ f = ⟨r.text⟩ := by
    intro f
    rw [← fault?_eq_some_iff, fault?_compile, Option.map_eq_some_iff]
    simp only [eq_comm]
  refine ⟨⟨?_, ?_⟩, fun f failed => ?_, fun report => records_of_compile⟩
  · rintro ⟨f, failed⟩
    obtain ⟨r, found, -⟩ := (first f).mp failed
    obtain ⟨t, ht, methods, hr⟩ := mem_references_iff.mp (List.mem_of_find?_eq_some found)
    exact ⟨t, ht, methods, r, hr, by simpa using List.find?_some found⟩
  · rintro ⟨t, ht, methods, r, hr, unnamed⟩
    have mem : r ∈ references c := mem_references_iff.mpr ⟨t, ht, methods, hr⟩
    have some : ((references c).find? fun r => r.Unnamed).isSome := by
      rw [List.find?_isSome]
      exact ⟨r, mem, by simpa using unnamed⟩
    obtain ⟨s, found⟩ := Option.isSome_iff_exists.mp some
    exact ⟨⟨s.text⟩, (first _).mpr ⟨s, found, rfl⟩⟩
  · obtain ⟨r, found, rfl⟩ := (first f).mp failed
    exact ⟨r, found, rfl⟩

end Report

end ApiDocs
