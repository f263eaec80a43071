import GrammarBook.Analysis.Attribute
import GrammarBook.Json.Basic
import GrammarBook.Names.NameSet
import GrammarBook.Names.NameTable

namespace GrammarBook

/-!
# Analyses

What a generator for the described language needs to know about a document: the names of rules and
expressions, the attributes of each rule, which names are plural somewhere, and a regular expression
for each expression.
-/

/-- The analysis of a document. -/
structure Analysis where
  documentName : String
  notice : String
  comment : String
  ruleNames : List String
  expressionNames : List String
  plurals : NameSet
  references : NameTable (List Attribute)
  regexes : NameTable String

def Attribute.toJson (entry : Attribute) : Json :=
  .fields
    [("name", .text entry.name), ("identifier", .text entry.identifier),
      ("plural", .bool entry.isPlural), ("kind", .text entry.kind.name)]

namespace Analysis

/-- The name is plural somewhere. -/
def isPlural (analysis : Analysis) (name : String) : Bool := analysis.plurals.contains name

def attributesOf? (analysis : Analysis) (rule : String) : Option (List Attribute) :=
  analysis.references.get? rule

def regexOf? (analysis : Analysis) (expression : String) : Option String :=
  analysis.regexes.get? expression

def namesToJson (names : List String) : Json := .list (names.map .text)

def toJson (analysis : Analysis) : Json :=
  .fields
    [("syntaxName", .text analysis.documentName), ("notice", .text analysis.notice),
      ("comment", .text analysis.comment), ("ruleNames", namesToJson analysis.ruleNames),
      ("expressionNames", namesToJson analysis.expressionNames),
      ("plurals", namesToJson analysis.plurals.toList),
      ("references", .fields (analysis.references.entries.map fun entry =>
        (entry.1, .list (entry.2.map Attribute.toJson)))),
      ("regexes", .fields (analysis.regexes.entries.map fun entry => (entry.1, .text entry.2)))]

end Analysis
end GrammarBook
