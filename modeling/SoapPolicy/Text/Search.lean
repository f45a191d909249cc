/-!
# Searching a text

Words found in a text.  The names of supporting tokens say by such words what is asked of a token.
-/

namespace SoapPolicy.Text

/-- Whether a word occurs in a list of characters. -/
def occurs (word : List Char) : List Char → Bool
  | [] => word.isEmpty
  | c :: cs => word.isPrefixOf (c :: cs) || occurs word cs

/-- Whether a text contains a word. -/
def contains (text word : String) : Bool :=
  occurs word.toList text.toList

/-- Whether a text starts with a word. -/
def startsWith (text word : String) : Bool :=
  word.toList.isPrefixOf text.toList

/-- Whether a text ends with a word. -/
def endsWith (text word : String) : Bool :=
  word.toList.isSuffixOf text.toList

/-- A text starts with the words whose characters it begins with. -/
theorem startsWith_iff {text word : String} :
    startsWith text word = true ↔ word.toList <+: text.toList :=
  List.isPrefixOf_iff_prefix

/-- A text that begins with one word does not begin with another, unless one of the two begins with the
other. -/
theorem not_startsWith_append {first word : String} (apart : ¬ first.toList <+: word.toList)
    (apart' : ¬ word.toList <+: first.toList) (rest : String) :
    startsWith (first ++ rest) word = false := by
  rw [Bool.eq_false_iff, ne_eq, startsWith_iff, String.toList_append]
  intro begins
  exact (List.prefix_or_prefix_of_prefix begins (List.prefix_append _ _)).elim apart' apart

/-- A word occurs in a list exactly when the list is the word with something around it. -/
theorem occurs_iff {word : List Char} : ∀ {cs : List Char}, occurs word cs = true ↔ word <:+: cs
  | [] => by simp [occurs]
  | c :: cs => by
    rw [occurs, Bool.or_eq_true, List.isPrefixOf_iff_prefix, occurs_iff, List.infix_cons_iff]

end SoapPolicy.Text
