import ApiDocs.Syntax.Grammar.Unit

/-! From a source text to its syntax tree. The tree is built from the tokens that are no comments;
each comment then goes into the smallest node with a token before and a token after it. -/

namespace ApiDocs

namespace Syntax

def Token.comment (t : Token) : Node :=
  t.node (if t.kind = .lineComment then "line_comment" else "block_comment") true

mutual

/-- The comments among the children, each as deep as it can go. -/
def weave (comments : List Node) : Node → Node
  | .mk kind start stop named field children =>
    .mk kind start stop named field (weaveAll comments children)

def weaveAll (comments : List Node) : List Node → List Node
  | [] => comments
  | n :: rest =>
    let later := comments.dropWhile fun c => c.start < n.start
    (comments.takeWhile fun c => c.start < n.start) ++
      weave (later.takeWhile fun c => c.start < n.stop) n ::
        weaveAll (later.dropWhile fun c => c.start < n.stop) rest

end

def parse (text : String) : Node :=
  let all := tokens text
  let items := Item.ofTokens (all.filter fun t => !t.isComment)
  let nodes := Grammar.unit all.length items
  .mk "program" 0 (byteLength text.toList) true none
    (weaveAll ((all.filter Token.isComment).map Token.comment) nodes)

end Syntax

end ApiDocs
