namespace GrammarBook

/-!
# Release

The names and the version under which the tools present themselves.
-/

def libraryName : String := "cdsn-core"

def programName : String := "cdsn"

def version : String := "0.1.0"

end GrammarBook
