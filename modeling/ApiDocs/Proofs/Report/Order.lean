import ApiDocs.Proofs.Index.Order
import ApiDocs.Report.Compile
import ApiDocs.Report.Json

/-! A sorted report does not show in which order its declarations were found. Names are distinct in
every index, so sorting by name leaves no choice. -/

namespace ApiDocs

namespace Report

/-! ## Sorting by a distinct name -/

theorem sortedBy_perm {α : Type} (name : α → String) (l : List α) : (sortedBy name l).Perm l :=
  List.mergeSort_perm l _

theorem pairwise_sortedBy {α : Type} (name : α → String) (l : List α) :
    (sortedBy name l).Pairwise fun a b => name a ≤ name b := by
  have sorted := @List.pairwise_mergeSort α (fun a b => decide (name a ≤ name b))
    (fun a b c hab hbc => decide_eq_true
      (String.le_trans (of_decide_eq_true hab) (of_decide_eq_true hbc)))
    (fun a b => by simpa using String.le_total (name a) (name b)) l
  exact sorted.imp fun h => of_decide_eq_true h

theorem sortedBy_eq_of_perm {α : Type} {name : α → String} {l l' : List α} (perm : l.Perm l')
    (distinct : (l.map name).Nodup) : sortedBy name l = sortedBy name l' := by
  have chain : (sortedBy name l).Perm (sortedBy name l') :=
    (sortedBy_perm name l).trans (perm.trans (sortedBy_perm name l').symm)
  refine List.Perm.eq_of_pairwise ?_ (pairwise_sortedBy name l) (pairwise_sortedBy name l') chain
  intro a b ha hb hab hba
  have ha' : a ∈ l := (sortedBy_perm name l).mem_iff.mp ha
  have hb' : b ∈ l := perm.mem_iff.mpr ((sortedBy_perm name l').mem_iff.mp hb)
  exact List.inj_on_of_nodup_map distinct ha' hb' (String.le_antisymm hab hba)

/-! ## Compiling in another order -/

/-- Work on a list in another order gives the same results in another order, or a fault in both. -/
theorem mapM_perm {α β ε : Type} {f : α → Except ε β} {l l' : List α} (perm : l.Perm l') :
    (∃ r r', l.mapM f = .ok r ∧ l'.mapM f = .ok r' ∧ r.Perm r') ∨
      ∃ e e', l.mapM f = .error e ∧ l'.mapM f = .error e' := by
  induction perm with
  | nil => exact .inl ⟨[], [], rfl, rfl, .refl _⟩
  | @cons a l l' _ ih =>
    simp only [List.mapM_cons]
    cases ha : f a with
    | error e => exact .inr ⟨e, e, rfl, rfl⟩
    | ok b =>
      rcases ih with ⟨r, r', hr, hr', perm⟩ | ⟨e, e', he, he'⟩
      · exact .inl ⟨b :: r, b :: r', by rw [hr]; rfl, by rw [hr']; rfl, perm.cons b⟩
      · exact .inr ⟨e, e', by rw [he]; rfl, by rw [he']; rfl⟩
  | swap a b l =>
    simp only [List.mapM_cons]
    cases ha : f a with
    | error e =>
      cases hb : f b with
      | error e' => exact .inr ⟨e', e, rfl, rfl⟩
      | ok b' => exact .inr ⟨e, e, rfl, rfl⟩
    | ok a' =>
      cases hb : f b with
      | error e => exact .inr ⟨e, e, rfl, rfl⟩
      | ok b' =>
        cases hl : l.mapM f with
        | error e => exact .inr ⟨e, e, rfl, rfl⟩
        | ok r => exact .inl ⟨b' :: a' :: r, a' :: b' :: r, rfl, rfl, .swap a' b' r⟩
  | trans _ _ ih ih' =>
    rcases ih with ⟨r, m, hr, hm, perm⟩ | ⟨e, m, he, hm⟩
    · rcases ih' with ⟨m', r', hm', hr', perm'⟩ | ⟨e, e', he, _⟩
      · rw [hm] at hm'
        cases hm'
        exact .inl ⟨r, r', hr, hr', perm.trans perm'⟩
      · rw [hm] at he
        cases he
    · rcases ih' with ⟨m', r', hm', _, _⟩ | ⟨_, e', _, he'⟩
      · rw [hm] at hm'
        cases hm'
      · exact .inr ⟨e, e', he, he'⟩

/-- What a type that can be compiled is compiled to. -/
theorem exists_of_compileClass {t : TypeDecl} {c : Class} (h : compileClass t = .ok c) :
    ∃ superclass interfaces, c = ⟨t.qualifiedName, narrativeOf t.comment, superclass, interfaces,
      t.methods.map compileMethod⟩ := by
  unfold compileClass at h
  obtain ⟨superclass, _, h⟩ := bind_eq_ok_iff.mp h
  obtain ⟨interfaces, _, h⟩ := bind_eq_ok_iff.mp h
  cases h
  exact ⟨superclass, interfaces, rfl⟩

theorem compileClass_name {t : TypeDecl} {c : Class} (h : compileClass t = .ok c) :
    c.name = t.qualifiedName := by
  obtain ⟨_, _, rfl⟩ := exists_of_compileClass h
  rfl

theorem mapM_compileClass_names {l : List TypeDecl} {r : List Class}
    (h : l.mapM compileClass = .ok r) :
    r.map Class.name = l.map TypeDecl.qualifiedName := by
  induction l generalizing r with
  | nil =>
    cases h
    rfl
  | cons t rest ih =>
    rw [List.mapM_cons] at h
    obtain ⟨c, ht, h⟩ := bind_eq_ok_iff.mp h
    obtain ⟨cs, hr, h⟩ := bind_eq_ok_iff.mp h
    cases h
    rw [List.map_cons, List.map_cons, compileClass_name ht, ih hr]

theorem compile_eq (settings : Settings) (c : Catalog) :
    compile settings c =
      ((documented c).mapM compileClass).map fun classes =>
        arrange settings ⟨classes, c.packages.map compilePackage⟩ := by
  unfold compile compileClasses
  rw [Progress.result_run]
  cases (documented c).mapM compileClass <;> rfl

/-- Sorted or not, a report holds the class of each documented type and the record of each package. -/
theorem exists_classes_of_compile {settings : Settings} {c : Catalog} {r : Report}
    (h : compile settings c = .ok r) :
    ∃ classes, (documented c).mapM compileClass = .ok classes ∧ r.classes.Perm classes ∧
      r.packages.Perm (c.packages.map compilePackage) := by
  rw [compile_eq] at h
  cases made : (documented c).mapM compileClass with
  | error f =>
    rw [made] at h
    cases h
  | ok classes =>
    rw [made] at h
    cases h
    refine ⟨classes, rfl, ?_⟩
    unfold arrange
    split
    · exact ⟨sortedBy_perm _ _, sortedBy_perm _ _⟩
    · exact ⟨.refl _, .refl _⟩

/-- Sorted, catalogs that differ only in order give one report, or none of them gives any. -/
theorem compile_perm (settings : Settings) (sorted : settings.sortByName = true) {c d : Catalog}
    (types : c.types.Perm d.types) (packages : c.packages.Perm d.packages)
    (typeNames : (c.types.map TypeDecl.qualifiedName).Nodup)
    (packageNames : (c.packages.map ApiDocs.Package.qualifiedName).Nodup) :
    (∃ r, compile settings c = .ok r ∧ compile settings d = .ok r) ∨
      ∃ f g, compile settings c = .error f ∧ compile settings d = .error g := by
  have documentedPerm : (documented c).Perm (documented d) := types.filter _
  rw [compile_eq, compile_eq]
  rcases mapM_perm (f := compileClass) documentedPerm with
    ⟨r, r', hr, hr', perm⟩ | ⟨f, g, hf, hg⟩
  · have classNames : (r.map Class.name).Nodup := by
      rw [mapM_compileClass_names hr]
      exact typeNames.sublist (List.filter_sublist.map _)
    have recordNames : ((c.packages.map compilePackage).map Package.name).Nodup := by
      rw [List.map_map]
      exact packageNames
    refine .inl ⟨_, by rw [hr]; rfl, ?_⟩
    rw [hr']
    simp only [Except.map, arrange, sorted, ↓reduceIte, Except.ok.injEq, ApiDocs.Report.mk.injEq]
    exact ⟨(sortedBy_eq_of_perm perm classNames).symm,
      (sortedBy_eq_of_perm (packages.map _) recordNames).symm⟩
  · exact .inr ⟨f, g, by rw [hf]; rfl, by rw [hg]; rfl⟩

end Report

namespace Index

/-- The text of the sorted report of units that are added in this order. -/
def sortedText (settings : Settings) (indent : Int) (us : List SourceUnit) :
    Except UnnamedReference String :=
  (Report.compile { settings with sortByName := true } (empty.addAll us).index.catalog).map
    fun r => r.text indent

/-- Compatible units in any order give the same text, or no text in any order. -/
theorem sortedText_perm {us vs : List SourceUnit} (perm : us.Perm vs)
    (compatible : AllCompatible us) (settings : Settings) (indent : Int) :
    (∃ text, sortedText settings indent us = .ok text ∧
        sortedText settings indent vs = .ok text) ∨
      ∃ f g, sortedText settings indent us = .error f ∧
        sortedText settings indent vs = .error g := by
  obtain ⟨types, packages⟩ := catalog_perm perm compatible
  unfold sortedText
  rcases Report.compile_perm { settings with sortByName := true } rfl types packages
    (nodup_catalog_types us) (nodup_catalog_packages us) with ⟨r, hr, hr'⟩ | ⟨f, g, hf, hg⟩
  · exact .inl ⟨r.text indent, congrArg (Except.map _) hr, congrArg (Except.map _) hr'⟩
  · exact .inr ⟨f, g, congrArg (Except.map _) hf, congrArg (Except.map _) hg⟩

/-- A package p with its comment, and a class p.B without members. -/
def commentedUnit : SourceUnit where
  source := Source.ofText "/** D */ p B"
  path := some "p/package-info.java"
  tree := .mk "program" 0 12 true none
    [.mk "block_comment" 0 8 true none [],
     .mk "package_declaration" 9 10 true none [.mk "identifier" 9 10 true none []],
     .mk "class_declaration" 11 12 true none [.mk "identifier" 11 12 true (some "name") []]]

/-- A class p.A with a method. -/
def methodUnit : SourceUnit where
  source := Source.ofText "p A m void"
  path := some "p/A.java"
  tree := .mk "program" 0 10 true none
    [.mk "package_declaration" 0 1 true none [.mk "identifier" 0 1 true none []],
     .mk "class_declaration" 2 10 true none
       [.mk "identifier" 2 3 true (some "name") [],
        .mk "class_body" 4 10 true (some "body")
          [.mk "method_declaration" 4 10 true none
            [.mk "void_type" 6 10 true (some "type") [],
             .mk "identifier" 4 5 true (some "name") []]]]]

theorem allCompatible_pair : AllCompatible [commentedUnit, methodUnit] := by
  have types : ∀ s ∈ commentedUnit.types, ∀ t ∈ methodUnit.types,
      s.qualifiedName ≠ t.qualifiedName := by decide +kernel
  have silent : ∀ name, methodUnit.commentFor name = none := by
    intro name
    cases h : methodUnit.commentFor name with
    | none => rfl
    | some c => exact absurd (documentsPackage_of_commentFor h) (by decide)
  intro u hu v hv differ
  simp only [List.mem_cons, List.not_mem_nil, or_false] at hu hv
  rcases hu with rfl | rfl
  · rcases hv with rfl | rfl
    · exact absurd rfl differ
    · exact ⟨types, fun name => .inr (silent name)⟩
  · rcases hv with rfl | rfl
    · exact ⟨fun s hs t ht e => types t ht s hs e.symm, fun name => .inl (silent name)⟩
    · exact absurd rfl differ

theorem sortedText_perm_pair :
    [commentedUnit, methodUnit].Perm [methodUnit, commentedUnit] ∧
      AllCompatible [commentedUnit, methodUnit] ∧
      ((∃ text, sortedText {} 2 [commentedUnit, methodUnit] = .ok text ∧
          sortedText {} 2 [methodUnit, commentedUnit] = .ok text) ∨
        ∃ f g, sortedText {} 2 [commentedUnit, methodUnit] = .error f ∧
          sortedText {} 2 [methodUnit, commentedUnit] = .error g) :=
  ⟨.swap _ _ _, allCompatible_pair, sortedText_perm (.swap _ _ _) allCompatible_pair {} 2⟩

end Index

end ApiDocs
