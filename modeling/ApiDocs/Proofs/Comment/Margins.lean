import ApiDocs.Proofs.Comment.Layout

/-! Comments with a star in front of every line, in any margins: blanks before the stars, blanks or
a carriage return behind the lines. The margins come off whole and the lines stay whole, so what is
read is a matter of the lines alone. -/

namespace ApiDocs.Comment

open Text

/-- Blanks within a line. -/
structure Margin where
  text : String
  blank : isBlankText text = true
  single : '\n' ∉ text.toList

/-- A line of the comment's text. It may begin with blanks or stars, or be empty, but has no blank
at its end. -/
structure StarredLine where
  before : Margin
  text : String
  after : Margin
  single : '\n' ∉ text.toList
  finish : SolidEnd text.toList

def StarredLine.written (l : StarredLine) : String :=
  l.before.text ++ "* " ++ l.text ++ l.after.text

structure Starred where
  opening : Margin
  lines : List StarredLine
  nonempty : lines ≠ []
  closing : Margin

namespace Starred

def texts (x : Starred) : List String := x.lines.map StarredLine.text

def written (x : Starred) : String :=
  framed (x.opening.text ++ "\n" ++ String.join (x.lines.map fun l => l.written ++ "\n") ++
    x.closing.text)

end Starred

theorem StarredLine.undecorateLine_written (l : StarredLine) :
    undecorateLine l.written.toList = l.text.toList := by
  have line : l.written.toList =
      l.before.text.toList ++ ('*' :: ' ' :: l.text.toList) ++ l.after.text.toList := by
    simp [written]
  rw [line]
  exact undecorateLine_margins l.before.blank l.finish l.after.blank

theorem StarredLine.not_mem_written (l : StarredLine) : '\n' ∉ l.written.toList := by
  simp [written, l.before.single, l.single, l.after.single]

theorem Starred.undecorate_written (x : Starred) :
    undecorate x.written.toList =
      '\n' :: unlines (x.texts.map String.toList) ++ ['\n'] := by
  have text : x.opening.text ++ "\n" ++ String.join (x.lines.map fun l => l.written ++ "\n") ++
      x.closing.text = String.ofList (x.opening.text.toList ++ '\n' ::
        ((x.lines.map fun l => l.written.toList).flatMap fun l => l ++ ['\n']) ++
          x.closing.text.toList) := by
    apply String.ext
    simp [List.flatMap_map]
  have single : ∀ l ∈ x.opening.text.toList ::
      ((x.lines.map fun l => l.written.toList) ++ [x.closing.text.toList]), '\n' ∉ l := by
    intro l hl
    simp only [List.mem_cons, List.mem_append, List.mem_map, List.not_mem_nil, or_false] at hl
    rcases hl with rfl | ⟨line, _, rfl⟩ | rfl
    · exact x.opening.single
    · exact line.not_mem_written
    · exact x.closing.single
  have bare : (x.lines.map fun l => l.written.toList).map undecorateLine =
      x.texts.map String.toList := by
    rw [Starred.texts, List.map_map, List.map_map]
    exact List.map_congr_left fun l _ => l.undecorateLine_written
  rw [written, text, undecorate_framed_lines (by simpa using x.nonempty) x.opening.blank
    x.closing.blank single, bare]

/-- Whatever the margins, a comment with these lines is a documentation comment, its text is that of
the lines, and it is read as the same comment. -/
theorem parse?_starred (x : Starred) :
    isDocumentation x.written = true ∧
      stripDecoration x.written = "\n" ++ "\n".intercalate x.texts ++ "\n" ∧
      ∃ c, ∀ y : Starred, y.texts = x.texts → parse? y.written = some c := by
  refine ⟨isDocumentation_framed _, ?_,
    ofText ('\n' :: unlines (x.texts.map String.toList) ++ ['\n']), ?_⟩
  · rw [stripDecoration, x.undecorate_written]
    apply String.ext
    simp [unlines, String.toList_intercalate]
  · intro y same
    have read := y.undecorate_written
    rw [same] at read
    rw [← read]
    exact parse?_framed _

def noMargin : Margin := ⟨"", by decide, by decide⟩

def oneSpace : Margin := ⟨" ", by decide, by decide⟩

/-- A line that is empty, one that begins with a blank and a star, and a tag. -/
def plainStarred : Starred where
  opening := noMargin
  lines := [⟨oneSpace, "", noMargin, by decide, by decide⟩,
    ⟨oneSpace, " * a", noMargin, by decide, by decide⟩,
    ⟨oneSpace, "@see b", noMargin, by decide, by decide⟩]
  nonempty := by simp
  closing := oneSpace

def carriageReturn : Margin := ⟨"\r", by decide, by decide⟩

def wideMargin : Margin := ⟨"\t\u3000\u0085", by decide, by decide⟩

/-- The same lines with carriage returns behind them, or with blanks that are no spaces. -/
def wideStarred : Starred where
  opening := carriageReturn
  lines := [⟨wideMargin, "", carriageReturn, by decide, by decide⟩,
    ⟨noMargin, " * a", wideMargin, by decide, by decide⟩,
    ⟨oneSpace, "@see b", carriageReturn, by decide, by decide⟩]
  nonempty := by simp
  closing := wideMargin

theorem parse?_starred_wide :
    wideStarred.texts = plainStarred.texts ∧
      wideStarred.written =
        "/**\r\n\t\u3000\u0085* \r\n*  * a\t\u3000\u0085\n * @see b\r\n\t\u3000\u0085*/" ∧
      plainStarred.written = "/**\n * \n *  * a\n * @see b\n */" ∧
      ∃ c, parse? plainStarred.written = some c ∧ parse? wideStarred.written = some c := by
  have same : wideStarred.texts = plainStarred.texts := rfl
  obtain ⟨_, _, c, read⟩ := parse?_starred plainStarred
  exact ⟨same, by decide, by decide, c, read plainStarred rfl, read wideStarred same⟩

end ApiDocs.Comment
