import ScopeLexer.Grammar

/-!
# Listings of grammars

A grammar is shown as a tree: its patterns and the entries of its repository, each rule with its
captures and the rules in it.  References are shown and not followed.
-/

namespace ScopeLexer

inductive Tree where
  | node (label : String) (children : List Tree)
  deriving Inhabited

namespace Tree

/-- Put `first` in front of the first of some lines and `others` in front of the others. -/
def indent (first others : String) : List String → List String
  | [] => []
  | line :: lines => (first ++ line) :: lines.map (others ++ ·)

mutual

def lines : Tree → List String
  | node label children => label :: branches children
  termination_by structural tree => tree

def branches : List Tree → List String
  | [] => []
  | [tree] => indent "└─ " "   " tree.lines
  | tree :: next :: rest => indent "├─ " "│  " tree.lines ++ branches (next :: rest)
  termination_by structural trees => trees

end

def render (tree : Tree) : String :=
  String.join (tree.lines.map (· ++ "\n"))

end Tree

namespace Grammar

def kindLabel : RuleKind → String
  | .group => "group"
  | .single expression _ => "match /" ++ expression.source ++ "/"
  | .enclosed enclosure =>
      "begin /" ++ enclosure.opening.source ++ "/ end /" ++ enclosure.closing.source ++ "/"
        ++ (if enclosure.closesLast then " (end last)" else "")

def nameLabel (before : String) : Option ScopeName → String
  | some name => before ++ name.source
  | none => ""

def ruleLabel (rule : Rule) : String :=
  kindLabel rule.kind ++ nameLabel " " rule.name ++ nameLabel " content " rule.contentName

def captureLabel (capture : Capture) : String :=
  "capture " ++ toString capture.group ++ nameLabel " " capture.name

def captureTrees (patterns : RuleId → List Tree) (label : String) :
    List Capture → List Tree
  | [] => []
  | captures =>
      [.node label (captures.map fun capture =>
        .node (captureLabel capture) ((capture.rule.map patterns).getD []))]

def kindTrees (patterns : RuleId → List Tree) : RuleKind → List Tree
  | .group => []
  | .single _ captures => captureTrees patterns "captures" captures
  | .enclosed enclosure =>
      captureTrees patterns "beginCaptures" enclosure.openingCaptures
        ++ captureTrees patterns "endCaptures" enclosure.closingCaptures

/-- The trees of patterns, with at most `nesting` rules inside one another. -/
def patternTrees (grammar : Grammar) : (nesting : Nat) → List Pattern → List Tree
  | 0, _ => []
  | nesting + 1, patterns =>
      patterns.filterMap fun pattern =>
        match pattern with
        | .reference reference => some (.node ("include " ++ reference.text) [])
        | .rule id =>
            grammar.rules[id]?.map fun rule =>
              .node (ruleLabel rule)
                (kindTrees (fun id => grammar.patternTrees nesting (grammar.patternsOf id)) rule.kind
                  ++ grammar.patternTrees nesting rule.patterns)

def title (grammar : Grammar) : String :=
  match grammar.name with
  | some name => grammar.scopeName ++ " (" ++ name ++ ")"
  | none => grammar.scopeName

def tree (grammar : Grammar) : Tree :=
  let trees := grammar.patternTrees grammar.rules.size
  .node grammar.title [
    .node "patterns" (trees (grammar.patternsOf grammar.root)),
    .node "repository" (grammar.topEntries.map fun (name, patterns) => .node name (trees patterns))]

def listing (grammar : Grammar) : String := grammar.tree.render

end Grammar

end ScopeLexer
