import GrammarBook.Json.Basic
import GrammarBook.Token.Basic

namespace GrammarBook
namespace Token

/-!
# Tokens as JSON
-/

def toJson (token : Token) : Json :=
  .fields
    [("token_type", .text token.kind.name), ("value", .text token.text),
      ("line", .natural token.place.line), ("position", .natural token.place.position)]

end Token
end GrammarBook
