import ApiDocs.Proofs.Files.Relisting
import Mathlib.Tactic.Choose

/-! Which files a search finds, and in which order, said without searching. A trail is the list of
names that leads down to a file; the search follows the trails of all files, each once, and of two
trails in one directory that of the directory's own file comes first. -/

namespace ApiDocs.Files

/-- Own files by name, then what lies below, by the name of the subdirectory and in it likewise. -/
inductive Precedes : List String → List String → Prop
  | own {a b : String} : a < b → Precedes [a] [b]
  | ownFirst (a b c : String) (t : List String) : Precedes [a] (b :: c :: t)
  | deeper {a b : String} (c d : String) (t u : List String) : a < b →
      Precedes (a :: c :: t) (b :: d :: u)
  | inside (a : String) {t u : List String} : Precedes t u → Precedes (a :: t) (a :: u)

theorem Precedes.irrefl {t : List String} : ¬ Precedes t t := by
  intro h
  induction t with
  | nil => cases h
  | cons a t ih =>
    cases h with
    | own less => exact String.lt_irrefl a less
    | deeper _ _ _ _ less => exact String.lt_irrefl a less
    | inside _ h => exact ih h

def Entry.isFile : Entry → Bool
  | .dir _ => false
  | _ => true

def Entry.bytes? : Entry → Option (List UInt8)
  | .file bytes => some bytes
  | _ => none

/-- A trail leads to a file. -/
def holdsFile (l : Listing) (t : List String) : Bool := (find? t l).any Entry.isFile

def lastName (t : List String) : String := t.getLastD ""

/-- What is found at the end of a trail. -/
def foundAt (directory : String) (l : Listing) (t : List String) : Found :=
  ⟨t.foldl Path.below directory, lastName t, (find? t l).bind Entry.bytes?⟩

/-! ## One step down -/

theorem lookup_eq_some_iff {l : Listing} (own : (l.map Prod.fst).Nodup) {name : String}
    {e : Entry} : l.lookup name = some e ↔ (name, e) ∈ l :=
  (Table.mem_entries_iff (t := ⟨l⟩) own).symm

theorem find?_own {l : Listing} {name : String} {e : Entry} (h : l.lookup name = some e) :
    find? [name] l = some e := by
  cases e <;> simp [find?, h]

theorem find?_inside {l entries : Listing} {name : String}
    (h : l.lookup name = some (.dir entries)) (t : List String) :
    find? (name :: t) l = find? t entries := by
  simp [find?, h]

theorem holdsFile_nil (l : Listing) : holdsFile l [] = false := rfl

theorem holdsFile_cons {l : Listing} (own : (l.map Prod.fst).Nodup) {name : String}
    {t : List String} :
    holdsFile l (name :: t) = true ↔
      (t = [] ∧ ∃ e, (name, e) ∈ l ∧ e.isFile = true) ∨
        ∃ entries, (name, .dir entries) ∈ l ∧ holdsFile entries t = true := by
  cases found : l.lookup name with
  | none =>
    have absent : ∀ e, (name, e) ∉ l := fun e mem => by
      simp [(lookup_eq_some_iff own).mpr mem] at found
    simp [holdsFile, find?, found, absent]
  | some e =>
    have only : ∀ e', (name, e') ∈ l ↔ e' = e := fun e' => by
      rw [← lookup_eq_some_iff own, found, Option.some.injEq, eq_comm]
    simp only [only]
    cases e <;> cases t <;> simp [holdsFile, find?, found, Entry.isFile]

theorem ne_nil_of_holdsFile {l : Listing} {t : List String} (h : holdsFile l t = true) :
    t ≠ [] := by
  rintro rfl
  cases h

theorem foundAt_inside {l entries : Listing} {name : String}
    (h : l.lookup name = some (.dir entries)) {t : List String} (ne : t ≠ []) (directory : String) :
    foundAt directory l (name :: t) = foundAt (Path.below directory name) entries t := by
  obtain ⟨first, rest, rfl⟩ := List.exists_cons_of_ne_nil ne
  simp [foundAt, find?_inside h, lastName]

/-! ## The trails of one directory -/

/-- The trails of all files, in the order of the search. -/
structure SearchedBy (l : Listing) (trails : List (List String)) : Prop where
  ordered : trails.Pairwise Precedes
  files : ∀ t, t ∈ trails ↔ holdsFile l t = true
  walk : ∀ directory, walk directory l = trails.map (foundAt directory l)

/-- An entry's trails below it, if it is a directory. -/
structure BranchedBy (l : Listing) (e : String × Entry) (trails : List (List String)) : Prop where
  ordered : trails.Pairwise Precedes
  files : ∀ t, t ∈ trails ↔ ∃ entries, e.2 = .dir entries ∧ holdsFile entries t = true
  below : ∀ directory, (e.2.branch directory e.1).below =
    trails.map fun t => foundAt directory l (e.1 :: t)

theorem exists_branchedBy {l : Listing} (own : (l.map Prod.fst).Nodup) {e : String × Entry}
    (mem : e ∈ l)
    (inside : ∀ entries, e.2 = .dir entries → ∃ trails, SearchedBy entries trails) :
    ∃ trails, BranchedBy l e trails := by
  obtain ⟨name, entry⟩ := e
  cases entry with
  | file bytes => exact ⟨[], .nil, by simp, fun _ => rfl⟩
  | dangling => exact ⟨[], .nil, by simp, fun _ => rfl⟩
  | dir entries =>
    obtain ⟨trails, searched⟩ := inside entries rfl
    refine ⟨trails, searched.ordered, fun t => ?_, fun directory => ?_⟩
    · simpa using searched.files t
    · have found := (lookup_eq_some_iff own).mpr mem
      change Files.walk (Path.below directory name) entries = _
      rw [searched.walk]
      refine List.map_congr_left fun t ht => (foundAt_inside found ?_ directory).symm
      exact ne_nil_of_holdsFile ((searched.files t).mp ht)

def byEntryName (l : Listing) : Listing := Report.sortedBy Prod.fst l

theorem mem_byEntryName {l : Listing} {e : String × Entry} : e ∈ byEntryName l ↔ e ∈ l :=
  (Report.sortedBy_perm Prod.fst l).mem_iff

theorem pairwise_byEntryName {l : Listing} (own : (l.map Prod.fst).Nodup) :
    (byEntryName l).Pairwise fun a b => a.1 < b.1 := by
  have sorted := Report.pairwise_sortedBy Prod.fst l
  have distinct : (byEntryName l).Pairwise fun a b => a.1 ≠ b.1 :=
    List.pairwise_map.mp (((Report.sortedBy_perm Prod.fst l).map Prod.fst).nodup_iff.mpr own)
  refine List.Pairwise.imp₂ (fun a b le ne => ?_) sorted distinct
  exact String.not_le.mp fun ge => ne (String.le_antisymm le ge)

/-- Sorting the branches by name is sorting the entries by name. -/
theorem byName_branches (directory : String) (l : Listing) :
    byName (branches directory l) =
      (byEntryName l).map fun e => e.2.branch directory e.1 := by
  rw [branches_eq_map, byEntryName, Report.sortedBy, byName]
  exact (List.map_mergeSort fun a _ b _ => by simp [name_branch]).symm

theorem walk_eq (directory : String) (l : Listing) :
    walk directory l =
      ((byEntryName l).filterMap fun e => (e.2.branch directory e.1).own) ++
        (byEntryName l).flatMap fun e => (e.2.branch directory e.1).below := by
  rw [walk, inOrder, byName_branches, List.filterMap_map, List.flatMap_map]
  rfl

def ownTrails (l : Listing) : List (List String) :=
  (byEntryName l).filterMap fun e => if e.2.isFile then some [e.1] else none

def trailsBelow (l : Listing) (inside : String × Entry → List (List String)) :
    List (List String) :=
  (byEntryName l).flatMap fun e => (inside e).map (e.1 :: ·)

theorem mem_ownTrails {l : Listing} {t : List String} :
    t ∈ ownTrails l ↔ ∃ name e, t = [name] ∧ (name, e) ∈ l ∧ e.isFile = true := by
  simp only [ownTrails, List.mem_filterMap, mem_byEntryName, Option.ite_none_right_eq_some,
    Option.some.injEq, Prod.exists]
  constructor
  · rintro ⟨name, e, mem, file, rfl⟩
    exact ⟨name, e, rfl, mem, file⟩
  · rintro ⟨name, e, rfl, mem, file⟩
    exact ⟨name, e, mem, file, rfl⟩

theorem pairwise_ownTrails {l : Listing} (own : (l.map Prod.fst).Nodup) :
    (ownTrails l).Pairwise Precedes := by
  refine List.pairwise_filterMap.mpr ((pairwise_byEntryName own).imp fun less t ht u hu => ?_)
  simp only [Option.ite_none_right_eq_some, Option.some.injEq] at ht hu
  obtain ⟨_, rfl⟩ := ht
  obtain ⟨_, rfl⟩ := hu
  exact .own less

theorem own_eq_ownTrails {l : Listing} (own : (l.map Prod.fst).Nodup) (directory : String) :
    ((byEntryName l).filterMap fun e => (e.2.branch directory e.1).own) =
      (ownTrails l).map (foundAt directory l) := by
  rw [ownTrails, List.map_filterMap]
  refine List.filterMap_congr fun e mem => ?_
  obtain ⟨name, e⟩ := e
  have found := find?_own ((lookup_eq_some_iff own).mpr (mem_byEntryName.mp mem))
  cases e <;> simp [Entry.branch, Entry.isFile, Entry.bytes?, foundAt, lastName, found]

section Below

variable {l : Listing} {inside : String × Entry → List (List String)}

theorem mem_trailsBelow (branched : ∀ e ∈ l, BranchedBy l e (inside e)) {t : List String} :
    t ∈ trailsBelow l inside ↔
      ∃ name u entries, t = name :: u ∧ (name, .dir entries) ∈ l ∧ holdsFile entries u = true := by
  simp only [trailsBelow, List.mem_flatMap, List.mem_map, mem_byEntryName]
  constructor
  · rintro ⟨⟨name, e⟩, mem, u, hu, rfl⟩
    obtain ⟨entries, rfl, file⟩ := ((branched _ mem).files u).mp hu
    exact ⟨name, u, entries, rfl, mem, file⟩
  · rintro ⟨name, u, entries, rfl, mem, file⟩
    exact ⟨(name, .dir entries), mem, u, ((branched _ mem).files u).mpr ⟨entries, rfl, file⟩, rfl⟩

theorem pairwise_trailsBelow (own : (l.map Prod.fst).Nodup)
    (branched : ∀ e ∈ l, BranchedBy l e (inside e)) :
    (trailsBelow l inside).Pairwise Precedes := by
  -- a trail below an entry has a name of its own, so entries decide between two of them
  have longer : ∀ e ∈ l, ∀ t ∈ inside e, ∃ c u, t = c :: u := by
    intro e mem t ht
    obtain ⟨entries, _, file⟩ := ((branched e mem).files t).mp ht
    exact List.exists_cons_of_ne_nil (ne_nil_of_holdsFile file)
  rw [trailsBelow, List.pairwise_flatMap]
  constructor
  · intro e mem
    rw [List.pairwise_map]
    exact (branched e (mem_byEntryName.mp mem)).ordered.imp (.inside e.1)
  · refine (pairwise_byEntryName own).imp_of_mem fun ha hb less t ht u hu => ?_
    obtain ⟨t', mem, rfl⟩ := List.mem_map.mp ht
    obtain ⟨u', mem', rfl⟩ := List.mem_map.mp hu
    obtain ⟨c, t', rfl⟩ := longer _ (mem_byEntryName.mp ha) t' mem
    obtain ⟨d, u', rfl⟩ := longer _ (mem_byEntryName.mp hb) u' mem'
    exact .deeper c d t' u' less

theorem below_eq_trailsBelow (branched : ∀ e ∈ l, BranchedBy l e (inside e)) (directory : String) :
    ((byEntryName l).flatMap fun e => (e.2.branch directory e.1).below) =
      (trailsBelow l inside).map (foundAt directory l) := by
  rw [trailsBelow, List.map_flatMap]
  refine List.flatMap_congr fun e mem => ?_
  rw [(branched e (mem_byEntryName.mp mem)).below, List.map_map]
  rfl

end Below

/-! ## All trails -/

theorem exists_searchedBy {l : Listing} (distinct : DistinctNames l) :
    ∃ trails, SearchedBy l trails := by
  induction distinct with
  | @intro l own _ ih =>
    have each : ∀ e : String × Entry, ∃ trails, e ∈ l → BranchedBy l e trails := by
      intro e
      by_cases mem : e ∈ l
      · obtain ⟨trails, branched⟩ := exists_branchedBy own mem
          fun entries dir => ih e.1 entries (dir ▸ mem)
        exact ⟨trails, fun _ => branched⟩
      · exact ⟨[], fun h => absurd h mem⟩
    choose inside branched using each
    refine ⟨ownTrails l ++ trailsBelow l inside, ?_, fun t => ?_, fun directory => ?_⟩
    · refine List.pairwise_append.mpr ⟨pairwise_ownTrails own, pairwise_trailsBelow own branched, ?_⟩
      intro t ht u hu
      obtain ⟨a, _, rfl, _⟩ := mem_ownTrails.mp ht
      obtain ⟨b, u, _, rfl, _, file⟩ := (mem_trailsBelow branched).mp hu
      obtain ⟨c, u, rfl⟩ := List.exists_cons_of_ne_nil (ne_nil_of_holdsFile file)
      exact .ownFirst a b c u
    · rw [List.mem_append, mem_ownTrails, mem_trailsBelow branched]
      cases t with
      | nil => simp [holdsFile_nil]
      | cons name t => simp [holdsFile_cons own, and_assoc]
    · rw [walk_eq, own_eq_ownTrails own, below_eq_trailsBelow branched, List.map_append]

/-- The trails of the source files, each once, in the order of the search. -/
structure SourceTrails (l : Listing) (trails : List (List String)) : Prop where
  ordered : trails.Pairwise Precedes
  once : trails.Nodup
  files : ∀ t, t ∈ trails ↔ holdsFile l t = true ∧ (lastName t).endsWith ".java" = true

theorem exists_sourceTrails {l : Listing} (distinct : DistinctNames l) :
    ∃ trails, SourceTrails l trails ∧
      ∀ directory, sourceFiles directory l = trails.map (foundAt directory l) := by
  obtain ⟨trails, searched⟩ := exists_searchedBy distinct
  let isSource := fun t : List String => (lastName t).endsWith ".java"
  have ordered : (trails.filter isSource).Pairwise Precedes := searched.ordered.filter _
  refine ⟨trails.filter isSource, ⟨ordered, ?_, fun t => ?_⟩, fun directory => ?_⟩
  · refine ordered.imp ?_
    rintro t _ before rfl
    exact before.irrefl
  · rw [List.mem_filter, searched.files]
  · rw [sourceFiles, searched.walk, List.filter_map]
    rfl

end ApiDocs.Files
