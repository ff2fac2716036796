import ApiDocs.Proofs.Text.Utf8
import ApiDocs.Syntax.Node
import Mathlib.Data.List.Basic

/-! The texts of nodes. Nodes have offsets in bytes, and texts have characters of one to four bytes;
between offsets where characters begin, a node's text is the part of the source that stands there.
-/

namespace ApiDocs

open Text

/-- An offset where a character begins, or where the text ends. -/
def IsBoundary (text : String) (offset : Nat) : Prop :=
  ∃ before after, text = before ++ after ∧ before.utf8ByteSize = offset

/-- From the offset on, each node begins where the one before it ends, and the last one ends with
the text. -/
def Tile (text : String) (offset : Nat) : List Node → Prop
  | [] => offset = text.utf8ByteSize
  | n :: rest =>
    n.start = offset ∧ offset ≤ n.stop ∧ IsBoundary text n.stop ∧ Tile text n.stop rest

theorem Source.slice_between (a b c : String) :
    (ofText (a ++ b ++ c)).slice a.utf8ByteSize (a ++ b).utf8ByteSize = b := by
  have bytes : Utf8.encode (a ++ b ++ c).toList =
      Utf8.encode a.toList ++ (Utf8.encode b.toList ++ Utf8.encode c.toList) := by
    simp [Utf8.encode_append]
  have size : (a ++ b).utf8ByteSize - a.utf8ByteSize = (Utf8.encode b.toList).length := by
    rw [String.utf8ByteSize_append, Utf8.length_encode]
    omega
  have cut : ((Utf8.encode (a ++ b ++ c).toList).drop a.utf8ByteSize).take
      ((a ++ b).utf8ByteSize - a.utf8ByteSize) = Utf8.encode b.toList := by
    rw [bytes, size, List.drop_left' (Utf8.length_encode a), List.take_left]
  rw [slice, ofText, Array.toList_extract, List.extract, cut, Utf8.decode_encode,
    String.ofList_toList]

/-- Of two cuts of one text, the later one leaves a part in between. -/
theorem exists_between {a b c d : String} (same : a ++ b = c ++ d)
    (le : a.utf8ByteSize ≤ c.utf8ByteSize) : ∃ m, c = a ++ m ∧ b = m ++ d := by
  have chars : a.toList ++ b.toList = c.toList ++ d.toList := by
    rw [← String.toList_append, same, String.toList_append]
  rcases List.append_eq_append_iff.mp chars with ⟨m, hc, hb⟩ | ⟨m, ha, hd⟩
  · refine ⟨String.ofList m, ?_, ?_⟩
    · apply String.ext
      simp [hc]
    · apply String.ext
      simp [hb]
  · -- the cuts are not in this order, so they are the same
    have split : a = c ++ String.ofList m := by
      apply String.ext
      simp [ha]
    have empty : m = [] := by
      rw [split, String.utf8ByteSize_append] at le
      have size : (String.ofList m).utf8ByteSize = 0 := by omega
      simpa using String.utf8ByteSize_eq_zero_iff.mp size
    subst empty
    refine ⟨"", ?_, ?_⟩
    · simpa using split.symm
    · apply String.ext
      simp [hd]

namespace Node

theorem text_between {a b c : String} {n : Node} (start : n.start = a.utf8ByteSize)
    (stop : n.stop = (a ++ b).utf8ByteSize) : n.text (Source.ofText (a ++ b ++ c)) = b := by
  rw [text, start, stop]
  exact Source.slice_between a b c

/-- The nodes behind an offset hold what stands behind it. -/
theorem join_texts_of_tile {before after : String} {nodes : List Node}
    (h : Tile (before ++ after) before.utf8ByteSize nodes) :
    String.join (nodes.map fun n => n.text (Source.ofText (before ++ after))) = after := by
  generalize whole : before ++ after = text at h
  induction nodes generalizing before after with
  | nil =>
    have size : before.utf8ByteSize = text.utf8ByteSize := h
    rw [← whole, String.utf8ByteSize_append] at size
    have empty : after = "" := String.utf8ByteSize_eq_zero_iff.mp (by omega)
    rw [empty]
    rfl
  | cons n rest ih =>
    obtain ⟨start, forward, ⟨upTo, behind, cut, stop⟩, tile⟩ := h
    rw [← stop] at forward tile
    obtain ⟨part, rfl, rfl⟩ := exists_between (whole.trans cut) forward
    have own : n.text (Source.ofText text) = part := by
      rw [cut]
      exact text_between start stop.symm
    rw [List.map_cons, String.join_cons, own, ih cut.symm tile]

/-- The text of a node between two boundaries is exactly what stands between them, and the texts of
nodes that tile the source are the source. -/
theorem texts_exact :
    (∀ (a b c : String) (n : Node), n.start = a.utf8ByteSize → n.stop = (a ++ b).utf8ByteSize →
      n.text (Source.ofText (a ++ b ++ c)) = b) ∧
    (∀ (source : String) (nodes : List Node), Tile source 0 nodes →
      String.join (nodes.map fun n => n.text (Source.ofText source)) = source) := by
  constructor
  · intro a b c n start stop
    exact text_between start stop
  · intro source nodes tile
    have whole : "" ++ source = source := String.empty_append
    have joined := @join_texts_of_tile "" source nodes
    rw [whole] at joined
    exact joined tile

/-- Characters of one, two, three and four bytes. -/
def mixedText : String := "a\u00e9\u20ac😀"

def wordNode (start stop : Nat) : Node := .mk "word" start stop true none []

/-- The second node is empty. -/
def mixedNodes : List Node := [wordNode 0 3, wordNode 3 3, wordNode 3 10]

theorem tile_mixedNodes : Tile mixedText 0 mixedNodes := by
  have inner : IsBoundary mixedText 3 := ⟨"a\u00e9", "\u20ac😀", by decide, by decide⟩
  have last : IsBoundary mixedText 10 := ⟨mixedText, "", by decide, by decide⟩
  have size : mixedText.utf8ByteSize = 10 := by decide
  exact ⟨rfl, by decide, inner, rfl, by decide, inner, rfl, by decide, last, size.symm⟩

theorem texts_exact_mixed :
    Tile mixedText 0 mixedNodes ∧
      String.join (mixedNodes.map fun n => n.text (Source.ofText mixedText)) = mixedText ∧
      (wordNode 1 6).start = "a".utf8ByteSize ∧
      (wordNode 1 6).stop = ("a" ++ "\u00e9\u20ac").utf8ByteSize ∧
      (wordNode 1 6).text (Source.ofText ("a" ++ "\u00e9\u20ac" ++ "😀")) = "\u00e9\u20ac" := by
  have start : (wordNode 1 6).start = "a".utf8ByteSize := by decide
  have stop : (wordNode 1 6).stop = ("a" ++ "\u00e9\u20ac").utf8ByteSize := by decide
  exact ⟨tile_mixedNodes, texts_exact.2 _ _ tile_mixedNodes, start, stop,
    texts_exact.1 _ _ _ _ start stop⟩

end Node

end ApiDocs
