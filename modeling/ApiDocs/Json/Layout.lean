import ApiDocs.Json.Basic
import ApiDocs.Text.Quoted

/-! The text of a value. Each item of a list and each field of an object stands on a line of its
own, indented by its depth; an empty list or object takes no line. -/

namespace ApiDocs.Json

open Text

/-- Quotes, backslashes and controls are escaped; all else stands for itself. -/
def escapeChar (c : Char) : List Char :=
  if c = '"' ∨ c = '\\' then ['\\', c]
  else if c = '\n' then ['\\', 'n']
  else if c = '\r' then ['\\', 'r']
  else if c = '\t' then ['\\', 't']
  else if c.toNat = 0x08 then ['\\', 'b']
  else if c.toNat = 0x0C then ['\\', 'f']
  else if c.toNat < 0x20 then '\\' :: 'u' :: hex 4 c.toNat
  else [c]

def literal (s : String) : List Char := '"' :: s.toList.flatMap escapeChar ++ ['"']

def newline (indent depth : Nat) : List Char := '\n' :: List.replicate (indent * depth) ' '

mutual

def render (indent depth : Nat) : Json → List Char
  | .str s => literal s
  | .word w => w.toList
  | .arr items => '[' :: renderItems indent depth true items ++ [']']
  | .obj fields => '{' :: renderFields indent depth true fields ++ ['}']

/-- The items, with a comma before each but the first and a line end after the last. -/
def renderItems (indent depth : Nat) (first : Bool) : List Json → List Char
  | [] => if first then [] else newline indent depth
  | v :: rest =>
    (if first then [] else [',']) ++ newline indent (depth + 1) ++ render indent (depth + 1) v ++
      renderItems indent depth false rest

def renderFields (indent depth : Nat) (first : Bool) : List (String × Json) → List Char
  | [] => if first then [] else newline indent depth
  | (key, v) :: rest =>
    (if first then [] else [',']) ++ newline indent (depth + 1) ++ literal key ++ [':', ' '] ++
      render indent (depth + 1) v ++ renderFields indent depth false rest

end

def text (indent : Nat) (v : Json) : String := String.ofList (render indent 0 v)

end ApiDocs.Json
