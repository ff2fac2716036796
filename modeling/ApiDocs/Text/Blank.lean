/-! Blank characters, and what follows from them: trimming and words. A blank is any character of
Unicode white space or one of the separator controls U+001C to U+001F. -/

namespace ApiDocs.Text

def isBlank (c : Char) : Bool :=
  let n := c.toNat
  (0x09 ≤ n && n ≤ 0x0D) || (0x1C ≤ n && n ≤ 0x20) || n == 0x85 || n == 0xA0 || n == 0x1680 ||
    (0x2000 ≤ n && n ≤ 0x200A) || n == 0x2028 || n == 0x2029 || n == 0x202F || n == 0x205F ||
    n == 0x3000

def trimStart (s : List Char) : List Char := s.dropWhile isBlank

def trimEnd : List Char → List Char
  | [] => []
  | c :: r =>
    match trimEnd r with
    | [] => if isBlank c then [] else [c]
    | t => c :: t

def trim (s : List Char) : List Char := trimEnd (trimStart s)

/-- Every character counts as blank; so does the empty text. -/
def allBlank (s : List Char) : Bool := s.all isBlank

def withoutBlanks (s : List Char) : List Char := s.filter fun c => !isBlank c

/-- The maximal runs without a blank. -/
def words (s : List Char) : List (List Char) :=
  (s.splitOnP isBlank).filter fun w => !w.isEmpty

/-- A line ends at a line feed and nowhere else. -/
def lines (s : List Char) : List (List Char) := s.splitOn '\n'

def unlines (l : List (List Char)) : List Char := ['\n'].intercalate l

theorem trimEnd_eq_nil_iff (s : List Char) : trimEnd s = [] ↔ allBlank s := by
  induction s with
  | nil => simp [trimEnd, allBlank]
  | cons c r ih =>
    cases h : trimEnd r with
    | nil =>
      have hr : allBlank r = true := ih.mp h
      by_cases hc : isBlank c <;> simp_all [trimEnd, allBlank]
    | cons d t =>
      have hr : ¬ allBlank r = true := fun hr => by simp [ih.mpr hr] at h
      simp_all [trimEnd, allBlank]

theorem withoutBlanks_append (s t : List Char) :
    withoutBlanks (s ++ t) = withoutBlanks s ++ withoutBlanks t := by
  simp [withoutBlanks]

theorem withoutBlanks_trimStart (s : List Char) :
    withoutBlanks (trimStart s) = withoutBlanks s := by
  induction s with
  | nil => rfl
  | cons c r ih =>
    by_cases h : isBlank c = true
    · simpa [trimStart, withoutBlanks, h] using ih
    · simp [trimStart, h]

theorem withoutBlanks_trimEnd (s : List Char) : withoutBlanks (trimEnd s) = withoutBlanks s := by
  induction s with
  | nil => rfl
  | cons c r ih =>
    have head : withoutBlanks (c :: r) = withoutBlanks [c] ++ withoutBlanks r :=
      withoutBlanks_append [c] r
    rw [head, ← ih, trimEnd]
    cases trimEnd r with
    | nil => by_cases h : isBlank c = true <;> simp [withoutBlanks, h]
    | cons d t => exact withoutBlanks_append [c] (d :: t)

theorem withoutBlanks_trim (s : List Char) : withoutBlanks (trim s) = withoutBlanks s := by
  rw [trim, withoutBlanks_trimEnd, withoutBlanks_trimStart]

/-! ## Whole strings -/

def trimmed (s : String) : String := String.ofList (trim s.toList)

/-- Nothing is left after trimming. -/
def isBlankText (s : String) : Bool := allBlank s.toList

/-- The words with one space between neighbours. -/
def collapsed (s : String) : String :=
  String.ofList ([' '].intercalate (words s.toList))

def compacted (s : String) : String := String.ofList (withoutBlanks s.toList)

@[simp] theorem toList_trimmed (s : String) : (trimmed s).toList = trim s.toList := by
  simp [trimmed]

@[simp] theorem toList_compacted (s : String) : (compacted s).toList = withoutBlanks s.toList := by
  simp [compacted]

end ApiDocs.Text
