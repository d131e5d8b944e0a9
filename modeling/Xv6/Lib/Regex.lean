import Mathlib.Data.List.Basic

/-! Patterns made of single-character classes (one literal, or any character) and their Kleene
stars, matched against words; a pattern may be anchored at the start and at the end of the text.
`Matches atoms w` says that `w` matches the atoms exactly; `Pattern.MatchesIn` that some part of
a text does, at the anchors the pattern asks for. -/

namespace Regex

variable {α : Type*} [DecidableEq α]

end Regex
