import ApiDocs.Comment.Parse
import ApiDocs.Proofs.Text.Lines

/-! The plain layout of a comment: the body, then each tag on a line of its own, and a star in front
of every line. The stars come off again, whatever the lines begin with and whatever blanks stand
around them. -/

namespace ApiDocs

open Text

/-- What comes behind the kind. -/
def Tag.rest (t : Tag) : List Char :=
  let text := (t.segments.map String.toList).flatten
  match t.name with
  | none => text
  | some name => name.toList ++ if t.segments.isEmpty then [] else ' ' :: text

/-- A name character right behind the kind would be read as a part of it. -/
def Tag.gap (t : Tag) : List Char := if t.rest.head?.any Comment.isTagNameChar then [' '] else []

def Tag.laidOut (t : Tag) : List Char := '@' :: (t.kind.toList ++ (t.gap ++ t.rest))

namespace Comment

def laidOut (c : Comment) : List Char :=
  (c.body.map String.toList).flatten ++ c.tags.flatMap fun t => '\n' :: t.laidOut

def decorate (text : List Char) : List Char :=
  "/**\n".toList ++ ((lines text).flatMap fun l => " * ".toList ++ l ++ ['\n']) ++ " */".toList

def canonical (c : Comment) : String := String.ofList (decorate c.laidOut)

/-! ## Taking the stars off -/

theorem undecorateLine_suffix (line : List Char) : undecorateLine line <:+ trimEnd line := by
  have suffix := trimStart_suffix (trimEnd line)
  unfold undecorateLine
  split
  · next star =>
    rw [star] at suffix
    exact ((List.suffix_cons ' ' _).trans (List.suffix_cons '*' _)).trans suffix
  · next star =>
    rw [star] at suffix
    exact (List.suffix_cons '*' _).trans suffix
  · exact List.suffix_rfl

theorem not_mem_undecorateLine {line : List Char} (h : '\n' ∉ line) :
    '\n' ∉ undecorateLine line := fun mem =>
  h ((prefix_trimEnd line).mem ((undecorateLine_suffix line).mem mem))

theorem flush_undecorate (raw : List Char) : Flush (undecorate raw) := by
  rw [flush_iff, undecorate, lines_unlines]
  · intro l hl
    obtain ⟨line, _, rfl⟩ := List.mem_map.mp hl
    exact (solidEnd_trimEnd line).suffix (undecorateLine_suffix line)
  · intro l hl
    obtain ⟨line, mem, rfl⟩ := List.mem_map.mp hl
    exact not_mem_undecorateLine (not_mem_of_mem_lines mem)
  · simpa using lines_ne_nil _

/-- Nothing is left of the blanks around a line, nor of the star and one space in front of it. -/
theorem undecorateLine_margins {w l v : List Char} (before : allBlank w = true) (h : SolidEnd l)
    (after : allBlank v = true) : undecorateLine (w ++ ('*' :: ' ' :: l) ++ v) = l := by
  by_cases empty : l = []
  · have kept : trimEnd (w ++ ['*', ' '] ++ v) = w ++ ['*'] := by
      have split : w ++ ['*', ' '] ++ v = w ++ ['*'] ++ ([' '] ++ v) := by simp
      have blank : allBlank ([' '] ++ v) = true := by
        rw [allBlank, List.all_append, Bool.and_eq_true]
        exact ⟨rfl, after⟩
      have star : SolidEnd ['*'] := by decide
      rw [split, trimEnd_append_of_allBlank blank, (star.append_left (by simp) w).trimEnd]
    have star : trimStart (w ++ ['*']) = ['*'] := trimStart_append_of_allBlank before _
    rw [empty]
    simp only [undecorateLine, kept, star]
  · have kept : trimEnd (w ++ ('*' :: ' ' :: l) ++ v) = w ++ ('*' :: ' ' :: l) := by
      rw [trimEnd_append_of_allBlank after]
      exact ((h.append_left empty ['*', ' ']).append_left (by simp) w).trimEnd
    have star : trimStart (w ++ ('*' :: ' ' :: l)) = '*' :: ' ' :: l :=
      trimStart_append_of_allBlank before _
    simp only [undecorateLine, kept, star]

theorem undecorateLine_of_allBlank {w : List Char} (h : allBlank w = true) :
    undecorateLine w = [] := by
  have nothing : trimEnd w = [] := (trimEnd_eq_nil_iff w).mpr h
  simp only [undecorateLine, nothing]
  rfl

/-! ## The frame -/

/-- The text between the opening and the closing of a comment. -/
def framed (text : String) : String := "/**" ++ text ++ "*/"

theorem toList_framed (text : String) :
    (framed text).toList = "/**".toList ++ (text.toList ++ ['*', '/']) := by
  simp [framed]

theorem isDocumentation_framed (text : String) : isDocumentation (framed text) = true := by
  rw [isDocumentation, toList_framed, Bool.and_eq_true, bne_iff_ne]
  refine ⟨rfl, fun same => ?_⟩
  have size := congrArg List.length same
  simp at size

theorem parse?_framed (text : String) :
    parse? (framed text) = some (ofText (undecorate (framed text).toList)) := by
  rw [parse?, if_pos (isDocumentation_framed text)]

theorem dropClosing_closing (s : List Char) : dropClosing (s ++ ['*', '/']) = s := by
  have closes : ['*', '/'].isSuffixOf (s ++ ['*', '/']) = true :=
    List.isSuffixOf_iff_suffix.mpr (List.suffix_append _ _)
  rw [dropClosing, if_pos closes, List.length_append]
  exact List.take_left' rfl

theorem undecorate_framed (text : String) :
    undecorate (framed text).toList = unlines ((lines text.toList).map undecorateLine) := by
  have inner : (framed text).toList.drop 3 = text.toList ++ ['*', '/'] := by
    rw [toList_framed]
    rfl
  rw [undecorate, inner, dropClosing_closing]

/-- An empty line is left where the comment opens and one where it closes. -/
theorem undecorate_framed_lines {u v : List Char} {ls : List (List Char)} (ne : ls ≠ [])
    (opening : allBlank u = true) (closing : allBlank v = true)
    (single : ∀ l ∈ u :: (ls ++ [v]), '\n' ∉ l) :
    undecorate (framed (String.ofList
        (u ++ '\n' :: (ls.flatMap fun l => l ++ ['\n']) ++ v))).toList =
      '\n' :: unlines (ls.map undecorateLine) ++ ['\n'] := by
  have whole : lines (u ++ '\n' :: (ls.flatMap fun l => l ++ ['\n']) ++ v) = u :: (ls ++ [v]) := by
    obtain ⟨first, rest⟩ := List.forall_mem_cons.mp single
    obtain ⟨each, last⟩ := List.forall_mem_append.mp rest
    rw [List.append_assoc, List.cons_append, lines_append_line, lines_of_not_mem first,
      lines_append_lines each, lines_of_not_mem (last v List.mem_cons_self)]
    rfl
  rw [undecorate_framed, String.toList_ofList, whole, List.map_cons, List.map_append,
    List.map_singleton, undecorateLine_of_allBlank opening, undecorateLine_of_allBlank closing,
    unlines_cons [] (by simp), unlines_concat (by simpa using ne)]
  rfl

theorem decorate_eq (text : List Char) :
    decorate text = (framed (String.ofList ([] ++ '\n' ::
      (((lines text).map (" * ".toList ++ ·)).flatMap fun l => l ++ ['\n']) ++ [' ']))).toList := by
  simp [decorate, toList_framed, List.flatMap_map]

theorem undecorate_decorate {text : List Char} (h : Flush text) :
    undecorate (decorate text) = '\n' :: text ++ ['\n'] := by
  have single : ∀ l ∈ [] :: ((lines text).map (" * ".toList ++ ·) ++ [[' ']]), '\n' ∉ l := by
    intro l hl
    simp only [List.mem_cons, List.mem_append, List.mem_map, List.not_mem_nil, or_false] at hl
    rcases hl with rfl | ⟨m, mem, rfl⟩ | rfl
    · simp
    · simpa using not_mem_of_mem_lines mem
    · decide
  have bare : (lines text).map (undecorateLine ∘ (" * ".toList ++ ·)) = lines text := by
    refine (List.map_congr_left fun l hl => ?_).trans (List.map_id _)
    have line := undecorateLine_margins (w := [' ']) (v := []) rfl (flush_iff.mp h l hl) rfl
    rwa [List.append_nil] at line
  rw [decorate_eq, undecorate_framed_lines (by simpa using lines_ne_nil text) rfl rfl single,
    List.map_map, bare, unlines_lines]

theorem isDocumentation_canonical (c : Comment) : isDocumentation c.canonical = true := by
  rw [canonical, decorate_eq, String.ofList_toList]
  exact isDocumentation_framed _

end Comment

end ApiDocs
