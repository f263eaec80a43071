import GrammarBook.Analysis.Regex
import GrammarBook.Names.NameSet

namespace GrammarBook
namespace Delimiter

/-!
# The synthesized delimiter

The literals of the rules make up one more expression. Longer literals come before shorter ones, so
that none hides another that it begins; literals of one length keep their ascending order.
-/

/-- The name of the synthesized expression unless told otherwise. -/
def defaultName : String := "delimiter"

def longestFirst (literals : NameSet) : List String :=
  literals.toList.mergeSort fun left right => right.length ≤ left.length

/-- The regular expression that matches any of the literals. -/
def regex (literals : NameSet) : String :=
  Regex.groupStart ++ "|".intercalate ((longestFirst literals).map Regex.escape) ++ ")"

end Delimiter
end GrammarBook
