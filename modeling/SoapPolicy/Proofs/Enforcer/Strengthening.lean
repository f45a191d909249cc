import SoapPolicy.Proofs.Enforcer.Surviving
import SoapPolicy.Proofs.Strengthening

/-!
# A stronger policy accepts less

A message that is accepted under a policy is accepted under every weaker one, provided that every event
can be read under the weaker one (`accepts_of_strengthens`).  The two runs may differ: under the weaker
policy other events assert first and fewer alternatives are retired.  But an alternative of which all
assertions hold has a weaker partner of which all assertions hold.
-/

namespace SoapPolicy.Enforcer

/-- Asking for more from tokens does not make a policy accept more messages. -/
theorem accepts_of_strengthens {strong weak : Policy} (stronger : strong.Strengthens weak)
    {context : EnforcerContext} {tokens : Registry} {events : List SecurityEvent}
    (clean : ChecksCleanly weak context tokens events)
    (accepted : Accepts strong context tokens events) : Accepts weak context tokens events := by
  obtain ⟨alternative, halternative, holds⟩ := holds_of_accepts accepted
  obtain ⟨weaker, hweaker, assertions⟩ := forall₂_exists_right stronger halternative
  refine (accepts_iff_holds clean).2 ⟨weaker, hweaker, fun a ha => ?_⟩
  obtain ⟨a', ha', relaxed⟩ := forall₂_exists_left assertions ha
  exact relaxed.holds (holds a' ha')

/-- A policy that asks for a supporting username token, with these further requirements. -/
def asksForUser (requirements : UsernamePolicy) : Policy :=
  .single [.token {
    role := .supporting .supporting, includeToken := .once, kind := .username requirements }]

/-- A username token in the message. -/
def supportingUser : Registry :=
  ⟨[{ type := .username, usages := [.supporting], included := true }]⟩

/-- The token is found, with a plain password, a time of creation and a nonce. -/
def userFound : SecurityEvent :=
  .token ⟨⟨0⟩, .username ⟨.text, some "2024-01-01T00:00:00Z", some "bm9uY2U=", some .v11⟩⟩

/-- Accepted with a time of creation, a nonce and a profile asked for, a user is accepted without. -/
theorem accepts_userFound : Accepts (asksForUser {}) {} supportingUser [userFound] := by
  have stronger : (asksForUser { created := true, nonce := true, tokenType := some .profile11 }).Strengthens
      (asksForUser {}) := by
    refine .cons (.cons (.token ⟨rfl, .inl rfl, rfl, .inl rfl, .username ?_⟩) .nil) .nil
    exact ⟨rfl, fun _ => rfl, fun _ => rfl, .inl rfl⟩
  have clean : ChecksCleanly (asksForUser {}) {} supportingUser [userFound] :=
    ⟨_, rfl, by decide +kernel⟩
  exact accepts_of_strengthens stronger clean ⟨_, rfl, rfl⟩

end SoapPolicy.Enforcer
