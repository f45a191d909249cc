import SoapPolicy.Text.Search

/-!
# Qualifiers of supporting tokens

A policy asks for supporting tokens by the name of a node, and a message names the usage of each
token.  Both names are built from qualifiers, and a usage does for a node if it has at least the
qualifiers of the node.
-/

namespace SoapPolicy.Qualifiers

/-- Whether a usage does for a node.  Of the three qualifiers, `Signed` can only stand first. -/
def compatible (node usage : String) : Bool :=
  node == usage ||
    (!Text.contains node "Endorsing" || Text.contains usage "Endorsing") &&
    (!Text.startsWith node "Signed" || Text.startsWith usage "Signed") &&
    (!Text.contains node "Encrypted" || Text.contains usage "Encrypted")

/-- A node takes a token with more qualifiers than it asks for, and none with fewer. -/
example : compatible "SignedSupportingTokens" "SignedEndorsingSupportingTokens" ∧
    ¬ compatible "SignedEndorsingSupportingTokens" "SignedSupportingTokens" := by decide

end SoapPolicy.Qualifiers
