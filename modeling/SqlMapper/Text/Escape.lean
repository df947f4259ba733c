/-!
# Escaping by replacement

One character is written as a fixed replacement, all others as they are. Quoted identifiers and
string literals double their quote in this way.
-/

namespace SqlMapper.Text

/-- Every `search` becomes `replacement`, on characters. -/
def replaceChars (search : Char) (replacement : List Char) (cs : List Char) : List Char :=
  cs.flatMap fun c => if c = search then replacement else [c]

/-- Every `search` in the text becomes `replacement`. -/
def escape (search : Char) (replacement : String) (s : String) : String :=
  String.ofList (replaceChars search replacement.toList s.toList)

/-- The text between two `quote` characters, each inner `quote` written twice. -/
def doubled (quote : Char) (s : String) : String :=
  String.ofList (quote :: replaceChars quote [quote, quote] s.toList ++ [quote])

@[simp] theorem replaceChars_nil (search : Char) (replacement : List Char) :
    replaceChars search replacement [] = [] := rfl

theorem replaceChars_append (search : Char) (replacement cs ds : List Char) :
    replaceChars search replacement (cs ++ ds) =
      replaceChars search replacement cs ++ replaceChars search replacement ds := by
  simp [replaceChars]

end SqlMapper.Text
