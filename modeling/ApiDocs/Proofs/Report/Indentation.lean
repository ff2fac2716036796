import ApiDocs.Proofs.Json.Indentation
import ApiDocs.Proofs.Report.RoundTrip

/-! The text of a report, line by line. -/

namespace ApiDocs.Report

open Json Text

/-- The text of a report holds no controls but line feeds, and none of these is in a string. Every
line has the spaces for the brackets that are open in front of it, less one if it begins with a
closing one, and then something else; the last line is a brace. -/
theorem text_indented (r : Report) (indent : Nat) :
    (∀ c ∈ (r.text indent).toList, c.toNat < 0x20 → c = '\n') ∧
    (∀ before after, (r.text indent).toList = before ++ '\n' :: after →
      (Nesting.past {} before).zone = .outside) ∧
    (∀ above line below, lines (r.text indent).toList = above ++ line :: below →
      ∃ k c rest, line = List.replicate (indent * k) ' ' ++ c :: rest ∧ c ≠ ' ' ∧
        openBehind above = k + outdent c) ∧
    (lines (r.text indent).toList).getLast? = some ['}'] := by
  have text : (r.text indent).toList = render indent 0 r.toJson := by
    rw [Report.text, Json.text, String.toList_ofList]
    rfl
  have neat : Neat indent {} (render indent 0 r.toJson) := by
    have whole := neat_render indent 0 [] trivial r.toJson r.plain_toJson
    rwa [List.append_nil] at whole
  have start : Indented indent 0 (render indent 0 r.toJson) := by
    obtain ⟨c, rest, head, space, newline, none⟩ := exists_render_cons indent 0 r.plain_toJson
    exact ⟨0, c, rest, by simp [head], space, newline, by rw [none]⟩
  rw [text]
  refine ⟨fun c mem control => neat.of_mem mem control, ?_, ?_, ?_⟩
  · intro before after split
    rw [split] at neat
    exact neat.at_newline.1
  · intro above line below cut
    have single : '\n' ∉ line := not_mem_of_mem_lines (by rw [cut]; simp)
    exact (indented_behind neat start cut).exists_line single
  · exact getLast?_lines_render indent (by simp)

/-- A bracket and a quote in a name, and a list without items. -/
example : ({ packages := [⟨"[\"\x7b\n", none⟩] } : Report).text 2 =
    "\x7b\n  \"classes\": [],\n  \"packages\": [\n    \x7b\n" ++
      "      \"name\": \"[\\\"\x7b\\n\"\n    \x7d\n  ]\n\x7d" := by
  decide

end ApiDocs.Report
