import CopyrightHeader.StyleTable
import Mathlib.Data.Fintype.Card

/-! What shadowing leaves of a table.

A matcher accepts all that those it shadows accept, so a shadowed rule is never the first to match.
In a table without patterns the converse holds: each unshadowed rule is the first to match some
name, made of its own text and at most one character in front.
-/

set_option autoImplicit false

namespace CopyrightHeader

namespace NameMatcher

theorem shadows_exact (earlier : NameMatcher) (name : String) :
    earlier.shadows (.exact name) = earlier.accepts name := by
  cases earlier <;> rfl

/-- What shadows a suffix is a suffix of it. -/
theorem shadows_suffix_iff {earlier : NameMatcher} {ending : String} :
    earlier.shadows (.suffix ending) ↔
      ∃ text, earlier = .suffix text ∧ text.toList <:+ ending.toList := by
  cases earlier <;> simp [shadows]

/-- A pattern is shadowed by no other matcher than itself. -/
theorem shadows_glob_iff {earlier : NameMatcher} {pattern : Glob.Pattern} :
    earlier.shadows (.glob pattern) ↔ earlier = .glob pattern := by
  cases earlier with
  | glob earlier =>
    constructor
    · intro shadows
      exact congrArg glob (Glob.Pattern.eq_of_source (of_decide_eq_true shadows))
    · rintro ⟨⟩
      exact decide_eq_true rfl
  | suffix => simp [shadows]
  | exact => simp [shadows]

/-- A matcher leaves nothing to those it shadows. -/
theorem accepts_of_shadows {earlier later : NameMatcher} (shadows : earlier.shadows later)
    {name : String} (accepts : later.accepts name) : earlier.accepts name := by
  cases later with
  | exact expected =>
    rw [shadows_exact] at shadows
    have same : name = expected := of_decide_eq_true accepts
    exact same ▸ shadows
  | suffix ending =>
    obtain ⟨text, rfl, inner⟩ := shadows_suffix_iff.1 shadows
    have outer : ending.toList <:+ name.toList := List.isSuffixOf_iff_suffix.1 accepts
    exact List.isSuffixOf_iff_suffix.2 (inner.trans outer)
  | glob pattern => exact shadows_glob_iff.1 shadows ▸ accepts

def isGlob : NameMatcher → Bool
  | .glob _ => true
  | _ => false

/-- The text that a matcher without wildcards compares with. -/
def text : NameMatcher → String
  | .suffix ending => ending
  | .exact name => name
  | .glob pattern => pattern.source

theorem accepts_extension (c : Char) (ending : String) :
    (suffix ending).accepts (String.ofList (c :: ending.toList)) := by
  apply List.isSuffixOf_iff_suffix.2
  simp

/-- With one more character in front of a suffix, a matcher that does not shadow the suffix
matches at most its own text. -/
theorem text_of_accepts_extension {earlier : NameMatcher} {ending : String} {c : Char}
    (plain : earlier.isGlob = false) (unshadowed : ¬ earlier.shadows (.suffix ending))
    (accepts : earlier.accepts (String.ofList (c :: ending.toList))) :
    earlier.text.toList.head? = some c := by
  cases earlier with
  | suffix text =>
    have suffix : text.toList <:+ c :: ending.toList := by
      simpa using List.isSuffixOf_iff_suffix.1 accepts
    rcases List.suffix_cons_iff.1 suffix with whole | inner
    · rw [NameMatcher.text, whole]
      rfl
    · exact absurd (List.isSuffixOf_iff_suffix.2 inner) unshadowed
  | exact name =>
    have same : String.ofList (c :: ending.toList) = name := of_decide_eq_true accepts
    simp [NameMatcher.text, ← same]
  | glob pattern => simp [isGlob] at plain

end NameMatcher

namespace StyleTable

/-- No rule in front leaves the rule without names at once. -/
def Unshadowed (front : List StyleRule) (rule : StyleRule) : Prop :=
  ∀ earlier ∈ front, ¬ earlier.matcher.shadows rule.matcher

theorem resolve_eq_some {table : StyleTable} {name : String} {style : CommentStyle} :
    table.resolve name = some style ↔ ∃ before rule after, table.rules = before ++ rule :: after ∧
      rule.style = style ∧ rule.matcher.accepts name ∧
      ∀ other ∈ before, ¬ other.matcher.accepts name := by
  unfold resolve
  rw [Option.map_eq_some_iff]
  constructor
  · rintro ⟨rule, found, same⟩
    obtain ⟨accepts, before, after, rules, passed⟩ := List.find?_eq_some_iff_append.1 found
    exact ⟨before, rule, after, rules, same, accepts, by simpa using passed⟩
  · rintro ⟨before, rule, after, rules, same, accepts, passed⟩
    refine ⟨rule, List.find?_eq_some_iff_append.2 ⟨accepts, before, after, rules, ?_⟩, same⟩
    simpa using passed

theorem exists_char_not_mem (chars : List Char) (few : chars.length < Char.numCodePoints) :
    ∃ c, c ∉ chars := by
  by_contra all
  simp only [not_exists, not_not] at all
  have enough : Char.numCodePoints ≤ chars.toFinset.card := by
    have injective := Finset.card_image_of_injective Finset.univ Char.ofOrdinal_injective
    rw [Finset.card_univ, Fintype.card_fin] at injective
    rw [← injective]
    exact Finset.card_le_card fun c _ => List.mem_toFinset.2 (all c)
  have := chars.toFinset_card_le
  omega

/-- Without patterns, each unshadowed rule gives some name its style. -/
theorem exists_resolve_of_unshadowed {table : StyleTable} {before after : List StyleRule}
    {rule : StyleRule} (rules : table.rules = before ++ rule :: after)
    (plain : ∀ rule ∈ table.rules, rule.matcher.isGlob = false)
    (few : before.length < Char.numCodePoints) (unshadowed : Unshadowed before rule) :
    ∃ name, table.resolve name = some rule.style := by
  cases matcher : rule.matcher with
  | exact name =>
    refine ⟨name, resolve_eq_some.2 ⟨before, rule, after, rules, rfl, ?_, ?_⟩⟩
    · simp [matcher, NameMatcher.accepts]
    · intro other member accepts
      apply unshadowed other member
      rwa [matcher, NameMatcher.shadows_exact]
  | suffix ending =>
    -- Every rule in front takes at most one of the names with one more character.
    obtain ⟨c, free⟩ := exists_char_not_mem
      (before.filterMap fun rule => rule.matcher.text.toList.head?)
      (Nat.lt_of_le_of_lt (List.length_filterMap_le _ _) few)
    refine ⟨String.ofList (c :: ending.toList),
      resolve_eq_some.2 ⟨before, rule, after, rules, rfl, ?_, ?_⟩⟩
    · rw [matcher]
      exact NameMatcher.accepts_extension c ending
    · intro other member accepts
      apply free
      apply List.mem_filterMap.2
      refine ⟨other, member, NameMatcher.text_of_accepts_extension ?_ ?_ accepts⟩
      · exact plain other (by simp [rules, member])
      · exact matcher ▸ unshadowed other member
  | glob pattern =>
    have := plain rule (by simp [rules])
    simp [matcher, NameMatcher.isGlob] at this

end StyleTable

end CopyrightHeader
