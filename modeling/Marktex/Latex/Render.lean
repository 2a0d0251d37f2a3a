import Marktex.Document.Parser
import Marktex.Latex.Table
import Marktex.Token.Lexer

/-!
# Rendering

Each node of a document has one LaTeX form, and a document is the forms of its nodes on successive
lines. Texts are escaped; addresses, code and math are written as they are. A source is converted by
reading it into tokens, of which a document is made: reading fails only if it is strict, and a document is
not made if a token is rejected. A rendered body becomes a document of its own by a preamble, which names
the document class and the packages, and by the document environment around it.
-/

namespace Marktex

/-! ## Nodes and documents -/

namespace Style

/-- The form of a text in some style. -/
def render (style : Style) (s : Text) : Text :=
  match style with
  | .paragraph => Latex.escape s ++ ['\n', '\n']
  | .plain => Latex.escape s
  | .bold => Latex.command "textbf" (Latex.escape s)
  | .italic => Latex.command "textit" (Latex.escape s)
  | .code => Latex.command "texttt" (Latex.escape s)
  | .quote => Latex.environment "quote" [] [Latex.escape s]
  | .table => Latex.table s
  | .inlineMath => '$' :: s ++ ['$']
  | .displayMath => "\\[\n".toList ++ s ++ "\n\\]".toList

end Style

namespace ListStyle

/-- The environment of the lists of this sort. -/
def environmentName : ListStyle → String
  | .ordered => "enumerate"
  | .unordered => "itemize"
  | .task => "itemize"

end ListStyle

namespace Content

/-- The command for a heading; a level without a command of its own counts as outermost. -/
def sectionCommand (level : Int) : String :=
  if level = 2 then "subsection"
  else if level = 3 then "subsubsection"
  else if level = 4 then "paragraph"
  else if level = 5 then "subparagraph"
  else "section"

/-- The option of a listing that names its language. -/
def languageOption (language : Text) : Text :=
  if language.isEmpty then [] else "[language=".toList ++ language ++ [']']

/-- The form of a node; nodes without a meaning have none. -/
def render : Content → Text
  | .styled style s => style.render s
  | .header level s => Latex.command (sectionCommand level) (Latex.escape s)
  | .codeBlock language code =>
    Latex.environment "lstlisting" (languageOption language) [code]
  | .link s url => Latex.command "href" url ++ Latex.braced (Latex.escape s)
  | .image alt source =>
    Latex.environment "figure" "[h]".toList
      ["\\centering".toList,
       "\\includegraphics[width=0.8\\textwidth]".toList ++ Latex.braced source,
       Latex.command "caption" (Latex.escape alt)]
  | .list style items => Latex.itemList style.environmentName (items.map Item.entry)
  | .item entry => entry.render
  | .lineBreak => "\\\\".toList
  | .foreign .. => []

end Content

namespace Latex

/-- The forms of some nodes, on successive lines. -/
def render (nodes : List Node) : Text :=
  Text.join ['\n'] (nodes.map fun node => node.content.render)

end Latex

namespace Document

/-- The LaTeX text of a document. -/
def toLatex (document : Document) : Text :=
  Latex.render document.children

end Document

/-! ## Conversion of a source -/

/-- Why a source has no document. -/
inductive Obstacle where
  | unclosed (unclosed : Unclosed)
  | rejected (rejection : Rejection)
  deriving DecidableEq, Repr

/-- The document of a source. -/
def Document.ofSource (strict : Bool) (source : Text) : Except Obstacle Document :=
  let reading := tokenize strict source
  match reading.failure with
  | some u => .error (.unclosed u)
  | none => (Document.ofTokens reading.tokens).mapError .rejected

/-- The LaTeX text of a source. -/
def Latex.convert (strict : Bool) (source : Text) : Except Obstacle Text :=
  (Document.ofSource strict source).map Document.toLatex

/-! ## Standalone documents -/

namespace Latex

/-- The packages that the rendered forms need: for listings, links, images and boxes. -/
def defaultPackages : List Text :=
  ["listings".toList, "hyperref".toList, "graphicx".toList, "amssymb".toList]

/-- The members of a list, each where it first occurs. -/
def firstOccurrences {α : Type} [BEq α] : List α → List α
  | [] => []
  | a :: rest => a :: (firstOccurrences rest).filter fun b => !(b == a)

/-- The names of the packages to load, without the blanks around them and without empty names. Each is named
once, at the place where it is first asked for; those that the rendered forms need come first. -/
def packageNames (packages : List Text) : List Text :=
  (firstOccurrences ((defaultPackages ++ packages).map Text.trim)).filter fun name => !name.isEmpty

/-- The line that loads a package. -/
def packageLine (name : Text) : Text :=
  command "usepackage" name ++ ['\n']

/-- A body with a line feed at its end, added if there is none. -/
def closedLine (body : Text) : Text :=
  if body.getLast? = some '\n' then body else body ++ ['\n']

/-- A body as a document of its own. -/
def standalone (body documentClass : Text) (packages : List Text) : Text :=
  command "documentclass" documentClass ++ ['\n'] ++ (packageNames packages).flatMap packageLine
    ++ '\n' :: opening "document" ++ ['\n'] ++ closedLine body ++ closing "document" ++ ['\n']

end Latex

end Marktex
