import Workbench.Pattern.Rewrite
/-!
# Preparing scripts

Scripts are not parsed. Type syntax is removed and imports are turned into comments by ten
rewriting rules, each applied to the whole text in turn. Imports of project files become
comments because the bundle is a plain concatenation of the files.
-/
namespace Workbench.Script

open Pattern

def gap : Pattern := .many .more .blank

def space : Pattern := .oneOrMore .more .blank

def name : Pattern := .oneOrMore .more .word

def quote : Pattern := .one (.of ['\'', '"'])

def block : Pattern :=
  .all (literal "\x7b") [.many .more (.except ['\x7d']), literal "\x7d"]

def perhaps (mark : String) : Pattern := .maybe (literal mark)

def exported : Pattern := .maybe (.all .edge [literal "export", space])

def interfaceBlock : Pattern :=
  .all exported [.edge, literal "interface", space, name, gap, block]

def aliasBlock : Pattern :=
  .all exported
    [.edge, literal "type", space, name, gap, literal "=", gap, block, perhaps ";"]

def typeArguments : Pattern :=
  .all (literal "<") [.oneOrMore .more (.except ['>']), literal ">"]

/-- A colon and a type: a word, perhaps with arguments, perhaps an array. -/
def typeMark : Pattern :=
  .all (literal ":")
    [gap, name, .maybe (.capture 1 typeArguments), .maybe (.capture 2 (literal "[]"))]

def cast : Pattern := .all .edge [literal "as", space, name]

def callArguments : Pattern := .all typeArguments [.capture 1 (literal "(")]

def quotedPackage (package : Pattern) : Pattern :=
  .all quote [package, quote, perhaps ";"]

def reactImport : Pattern :=
  .all (literal "import")
    [space, literal "React", .maybe (.capture 1 (.all (literal ",") [gap, block])), space,
      literal "from", space, quotedPackage (literal "react")]

def reactNamedImport : Pattern :=
  .all (literal "import")
    [space, block, space, literal "from", space, quotedPackage (literal "react")]

def reactDomImport : Pattern :=
  .all (literal "import")
    [space, literal "ReactDOM", space, literal "from", space,
      quotedPackage (.all (literal "react-dom") [.maybe (.capture 1 (literal "/client"))])]

def relativeSpecifier : Pattern :=
  .all (literal ".") [perhaps ".", literal "/", .oneOrMore .more (.except ['\'', '"'])]

def relativeImport : Pattern :=
  .all (literal "import")
    [space, .capture 1 (.oneOrMore .fewer (.except ['\'', '"', ';', '\n'])), space, literal "from",
      space, quote, .capture 2 relativeSpecifier, quote, perhaps ";"]

def relativeEffectImport : Pattern :=
  .all (literal "import") [space, quote, .capture 1 relativeSpecifier, quote, perhaps ";"]

def typeRules : List RewriteRule :=
  [⟨interfaceBlock, []⟩,
   ⟨aliasBlock, []⟩,
   ⟨typeMark, []⟩,
   ⟨cast, []⟩,
   ⟨callArguments, [.group 1]⟩]

/-- The rules that turn imports into comments, in order. The run-time libraries are loaded by
the head of the bundle. -/
def importRules : List RewriteRule :=
  [⟨reactImport, [.text "// React imported from CDN"]⟩,
   ⟨reactNamedImport, [.text "// React imported from CDN"]⟩,
   ⟨reactDomImport, [.text "// ReactDOM imported from CDN"]⟩,
   ⟨relativeImport, [.text "// import ", .group 1, .text " from ", .group 2]⟩,
   ⟨relativeEffectImport, [.text "// import ", .group 1]⟩]

def applyAll (rules : List RewriteRule) (text : List Char) : List Char :=
  rules.foldl (fun text rule => rule.apply text) text

def stripTypes (source : String) : String :=
  String.ofList (applyAll typeRules source.toList)

/-- Turn imports of the run-time libraries and of project files into comments. -/
def neutralizeImports (source : String) : String :=
  String.ofList (applyAll importRules source.toList)

def transform (source : String) : String :=
  neutralizeImports (stripTypes source)

end Workbench.Script
