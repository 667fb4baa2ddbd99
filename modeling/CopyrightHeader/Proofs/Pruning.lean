import CopyrightHeader.Proofs.Shadowing
import Mathlib.Data.List.Induction

/-! Shadowing as a preorder, and a table without its shadowed rules.

Shadowing compares the texts of two matchers. It is reflexive and transitive, never claims too much
and, between matchers without wildcards, never too little. So each rule that is taken out of a table
is shadowed by one that stays, and no name resolves in another way.
-/

set_option autoImplicit false

namespace CopyrightHeader

namespace NameMatcher

theorem shadows_refl (matcher : NameMatcher) : matcher.shadows matcher := by
  cases matcher with
  | suffix ending => exact shadows_suffix_iff.2 ⟨ending, rfl, List.suffix_refl _⟩
  | exact name =>
    rw [shadows_exact]
    exact decide_eq_true rfl
  | glob pattern => exact shadows_glob_iff.2 rfl

theorem shadows_trans {earlier middle later : NameMatcher} (first : earlier.shadows middle)
    (second : middle.shadows later) : earlier.shadows later := by
  cases later with
  | exact name =>
    -- To shadow a name is to accept it, so here transitivity is soundness.
    rw [shadows_exact] at second ⊢
    exact accepts_of_shadows first second
  | suffix ending =>
    obtain ⟨inner, rfl, innerEnds⟩ := shadows_suffix_iff.1 second
    obtain ⟨outer, rfl, outerEnds⟩ := shadows_suffix_iff.1 first
    exact shadows_suffix_iff.2 ⟨outer, rfl, outerEnds.trans innerEnds⟩
  | glob pattern => exact shadows_glob_iff.1 second ▸ first

/-- Without wildcards, a matcher shadows whatever it leaves nothing to. -/
theorem shadows_of_accepts {earlier later : NameMatcher} (plain : earlier.isGlob = false)
    (plainLater : later.isGlob = false)
    (covers : ∀ name, later.accepts name → earlier.accepts name) : earlier.shadows later := by
  cases later with
  | exact name =>
    rw [shadows_exact]
    exact covers name (decide_eq_true rfl)
  | suffix ending =>
    by_contra unshadowed
    -- Else the text of `earlier` would start with every character.
    have starts (c : Char) : earlier.text.toList.head? = some c :=
      text_of_accepts_extension plain unshadowed (covers _ (accepts_extension c ending))
    have same := (starts 'a').symm.trans (starts 'b')
    simp at same
  | glob pattern => simp [isGlob] at plainLater

end NameMatcher

namespace StyleTable

/-! ## The scan -/

theorem unshadowed_cons (earlier : List StyleRule) (rule : StyleRule) (rest : List StyleRule) :
    unshadowed earlier (rule :: rest) = unshadowed (rule :: earlier) rest ∧
        ¬ Unshadowed earlier rule ∨
      unshadowed earlier (rule :: rest) = rule :: unshadowed (rule :: earlier) rest ∧
        Unshadowed earlier rule := by
  rw [unshadowed]
  split
  · next hidden =>
    obtain ⟨other, member, shadows⟩ := List.any_eq_true.1 hidden
    exact .inl ⟨rfl, fun unshadowed => unshadowed other member shadows⟩
  · next shown =>
    exact .inr ⟨rfl, fun other member shadows => shown (List.any_eq_true.2 ⟨other, member, shadows⟩)⟩

theorem unshadowed_append (earlier front back : List StyleRule) :
    unshadowed earlier (front ++ back) =
      unshadowed earlier front ++ unshadowed (front.reverse ++ earlier) back := by
  induction front generalizing earlier with
  | nil => rfl
  | cons first front ih =>
    have moved : (first :: front).reverse ++ earlier = front.reverse ++ first :: earlier := by simp
    rw [moved, List.cons_append, unshadowed, unshadowed]
    split
    · rw [ih]
    · rw [ih, List.cons_append]

theorem unshadowed_middle (before : List StyleRule) (rule : StyleRule) (after : List StyleRule) :
    unshadowed [] (before ++ rule :: after) =
          unshadowed [] before ++ unshadowed (rule :: before.reverse) after ∧
        ¬ Unshadowed before rule ∨
      unshadowed [] (before ++ rule :: after) =
          unshadowed [] before ++ rule :: unshadowed (rule :: before.reverse) after ∧
        Unshadowed before rule := by
  have same : Unshadowed before.reverse rule ↔ Unshadowed before rule := by simp [Unshadowed]
  rw [unshadowed_append, List.append_nil, ← same]
  rcases unshadowed_cons before.reverse rule after with ⟨lists, hidden⟩ | ⟨lists, shown⟩
  · exact .inl ⟨by rw [lists], hidden⟩
  · exact .inr ⟨by rw [lists], shown⟩

theorem mem_unshadowed {before after : List StyleRule} {rule : StyleRule}
    (shown : Unshadowed before rule) : rule ∈ unshadowed [] (before ++ rule :: after) := by
  rcases unshadowed_middle before rule after with ⟨-, hidden⟩ | ⟨lists, -⟩
  · exact absurd shown hidden
  · simp [lists]

/-! ## What the scan leaves -/

/-- Rules, and those of them that no rule in front shadows, in the same order. A rule that is taken
out still shadows those behind it. -/
inductive Pruned : (rules kept : List StyleRule) → Prop where
  | nil : Pruned [] []
  | keep {rules kept : List StyleRule} {rule : StyleRule} (front : Pruned rules kept)
      (shown : Unshadowed rules rule) : Pruned (rules ++ [rule]) (kept ++ [rule])
  | drop {rules kept : List StyleRule} {rule earlier : StyleRule} (front : Pruned rules kept)
      (member : earlier ∈ rules) (hidden : earlier.matcher.shadows rule.matcher) :
      Pruned (rules ++ [rule]) kept

variable {rules kept : List StyleRule}

theorem pruned_unshadowed (rules : List StyleRule) : Pruned rules (unshadowed [] rules) := by
  induction rules using List.reverseRecOn with
  | nil => exact .nil
  | append_singleton rules rule ih =>
    rcases unshadowed_middle rules rule [] with ⟨lists, hidden⟩ | ⟨lists, shown⟩
    · simp only [Unshadowed, not_forall, not_not] at hidden
      obtain ⟨earlier, member, shadows⟩ := hidden
      rw [lists, unshadowed, List.append_nil]
      exact .drop ih member shadows
    · rw [lists, unshadowed]
      exact .keep ih shown

theorem Pruned.eq_unshadowed (pruned : Pruned rules kept) : kept = unshadowed [] rules := by
  induction pruned with
  | nil => rfl
  | @keep rules kept rule front shown ih =>
    rcases unshadowed_middle rules rule [] with ⟨-, hidden⟩ | ⟨lists, -⟩
    · exact absurd shown hidden
    · rw [lists, ih, unshadowed]
  | @drop rules kept rule earlier front member hidden ih =>
    rcases unshadowed_middle rules rule [] with ⟨lists, -⟩ | ⟨-, shown⟩
    · rw [lists, ih, unshadowed, List.append_nil]
    · exact absurd hidden (shown earlier member)

theorem pruned_iff {table pruned : StyleTable} :
    Pruned table.rules pruned.rules ↔ pruned = table.prune := by
  constructor
  · intro same
    rw [prune, ← same.eq_unshadowed]
  · rintro rfl
    exact pruned_unshadowed table.rules

/-- In front of a rule that stays, the scan leaves what stays in front of it. -/
theorem Pruned.exists_front {front back : List StyleRule} {rule : StyleRule}
    (pruned : Pruned rules kept) (lists : kept = front ++ rule :: back) :
    ∃ before after, rules = before ++ rule :: after ∧ Unshadowed before rule ∧
      Pruned before front := by
  induction pruned generalizing back with
  | nil => simp at lists
  | @keep rules kept last behind shown ih =>
    rcases List.eq_nil_or_concat back with rfl | ⟨inner, final, rfl⟩
    · obtain ⟨rfl, same⟩ := List.append_inj' lists rfl
      obtain rfl := List.singleton_inj.1 same
      exact ⟨rules, [], rfl, shown, behind⟩
    · have same : kept ++ [last] = (front ++ rule :: inner) ++ [final] := by simpa using lists
      obtain ⟨before, after, rfl, reachable, left⟩ := ih (List.append_inj' same rfl).1
      exact ⟨before, after ++ [last], by simp, reachable, left⟩
  | @drop rules kept last earlier behind member hidden ih =>
    obtain ⟨before, after, rfl, reachable, left⟩ := ih lists
    exact ⟨before, after ++ [last], by simp, reachable, left⟩

/-- A search through the unshadowed rules stops at the first of them that has what is asked for. -/
theorem findSome?_unshadowed {α : Type} {ask : StyleRule → Option α} {answer : α}
    (found : (unshadowed [] rules).findSome? ask = some answer) :
    ∃ before rule after, rules = before ++ rule :: after ∧ Unshadowed before rule ∧
      ask rule = some answer ∧ ∀ other ∈ unshadowed [] before, ask other = none := by
  obtain ⟨front, rule, back, lists, asked, passed⟩ := List.findSome?_eq_some_iff.1 found
  obtain ⟨before, after, same, reachable, left⟩ := (pruned_unshadowed rules).exists_front lists
  exact ⟨before, rule, after, same, reachable, asked, left.eq_unshadowed ▸ passed⟩

/-- What is taken out is shadowed by something that stays. -/
theorem Pruned.exists_shadows (pruned : Pruned rules kept) :
    ∀ rule ∈ rules, ∃ other ∈ kept, other.matcher.shadows rule.matcher := by
  induction pruned with
  | nil => simp
  | @keep rules kept last front shown ih =>
    intro rule member
    rcases List.mem_append.1 member with inside | final
    · obtain ⟨other, stays, shadows⟩ := ih rule inside
      exact ⟨other, List.mem_append_left _ stays, shadows⟩
    · obtain rfl := List.mem_singleton.1 final
      exact ⟨rule, by simp, rule.matcher.shadows_refl⟩
  | @drop rules kept last earlier front present hidden ih =>
    intro rule member
    rcases List.mem_append.1 member with inside | final
    · exact ih rule inside
    · obtain rfl := List.mem_singleton.1 final
      -- The rule that shadows the last may be out itself, but then one that stays shadows both.
      obtain ⟨other, stays, shadows⟩ := ih earlier present
      exact ⟨other, stays, NameMatcher.shadows_trans shadows hidden⟩

/-! ## Names -/

theorem resolve_concat (rules : List StyleRule) (rule : StyleRule) (name : String) :
    (StyleTable.mk (rules ++ [rule])).resolve name = ((StyleTable.mk rules).resolve name).or
      (if rule.matcher.accepts name then some rule.style else none) := by
  simp only [resolve, List.find?_append, List.find?_singleton, Option.map_or]
  split <;> rfl

theorem isSome_resolve {rule : StyleRule} {name : String} (member : rule ∈ rules)
    (accepts : rule.matcher.accepts name) : ((StyleTable.mk rules).resolve name).isSome := by
  rw [resolve, Option.isSome_map, List.find?_isSome]
  exact ⟨rule, member, accepts⟩

/-- A rule that is taken out is never the first to match a name. -/
theorem Pruned.resolve_eq (pruned : Pruned rules kept) (name : String) :
    (StyleTable.mk kept).resolve name = (StyleTable.mk rules).resolve name := by
  induction pruned with
  | nil => rfl
  | keep front shown ih => rw [resolve_concat, resolve_concat, ih]
  | @drop rules kept rule earlier front member hidden ih =>
    rw [resolve_concat, ih]
    split
    · next accepts =>
      have found := isSome_resolve member (NameMatcher.accepts_of_shadows hidden accepts)
      exact (Option.or_of_isSome found).symm
    · rw [Option.or_none]

theorem resolve_prune (table : StyleTable) (name : String) :
    table.prune.resolve name = table.resolve name :=
  (pruned_unshadowed table.rules).resolve_eq name

theorem exists_unshadowed_of_resolve {table : StyleTable} {name : String} {style : CommentStyle}
    (resolved : table.resolve name = some style) :
    ∃ rule ∈ table.prune.rules, rule.style = style := by
  rw [← resolve_prune] at resolved
  obtain ⟨before, rule, after, rules, same, -, -⟩ := resolve_eq_some.1 resolved
  exact ⟨rule, by simp [rules], same⟩

/-- Shadowing is a preorder of matchers that never claims too much and, without wildcards, never too
little. The table without its shadowed rules is determined, each rule is shadowed by one of those
left in it, and every name resolves in it as before. -/
theorem shadowing_prunes_soundly :
    (∀ matcher : NameMatcher, matcher.shadows matcher) ∧
      (∀ earlier middle later : NameMatcher,
        earlier.shadows middle → middle.shadows later → earlier.shadows later) ∧
      (∀ earlier later : NameMatcher, earlier.shadows later →
        ∀ name, later.accepts name → earlier.accepts name) ∧
      (∀ earlier later : NameMatcher, earlier.isGlob = false → later.isGlob = false →
        (∀ name, later.accepts name → earlier.accepts name) → earlier.shadows later) ∧
      (∀ table pruned : StyleTable, Pruned table.rules pruned.rules ↔ pruned = table.prune) ∧
      (∀ table : StyleTable, ∀ rule ∈ table.rules,
        ∃ kept ∈ table.prune.rules, kept.matcher.shadows rule.matcher) ∧
      ∀ (table : StyleTable) (name : String), table.prune.resolve name = table.resolve name := by
  refine ⟨NameMatcher.shadows_refl, ?_, ?_, ?_, fun table pruned => pruned_iff, ?_, resolve_prune⟩
  · intro earlier middle later first second
    exact NameMatcher.shadows_trans first second
  · intro earlier later shadows name accepts
    exact NameMatcher.accepts_of_shadows shadows accepts
  · intro earlier later plain plainLater covers
    exact NameMatcher.shadows_of_accepts plain plainLater covers
  · intro table rule member
    exact (pruned_unshadowed table.rules).exists_shadows rule member

def scripts : NameMatcher :=
  .glob ⟨"*.py", [.anyText, .literal '.', .literal 'p', .literal 'y'], by decide +kernel⟩

/-- The first rule shadows the second, and both shadow the third. The pattern shadows the two rules
behind it. -/
def layeredTable : StyleTable :=
  ⟨[⟨.suffix ".c", .c⟩, ⟨.suffix ".tab.c", .shell⟩, ⟨.exact "parse.tab.c", .shell⟩,
    ⟨scripts, .shell⟩, ⟨.exact "setup.py", .c⟩, ⟨scripts, .c⟩, ⟨.suffix ".py", .c⟩]⟩

/-- The last rule stays: a pattern does not count as shadowing a suffix, even one that it covers. -/
def prunedLayeredTable : StyleTable :=
  ⟨[⟨.suffix ".c", .c⟩, ⟨scripts, .shell⟩, ⟨.suffix ".py", .c⟩]⟩

theorem shadowing_prunes_soundly_layered :
    ((NameMatcher.suffix ".c").shadows (.suffix ".tab.c") ∧
        (NameMatcher.suffix ".tab.c").shadows (.exact "parse.tab.c") ∧
        (NameMatcher.suffix ".c").shadows (.exact "parse.tab.c")) ∧
      (scripts.shadows (.exact "setup.py") ∧ scripts.accepts "setup.py") ∧
      (NameMatcher.suffix "").shadows (.suffix ".c") ∧
      Pruned layeredTable.rules prunedLayeredTable.rules ∧
      (∃ kept ∈ layeredTable.prune.rules, kept.matcher.shadows (.exact "parse.tab.c")) ∧
      prunedLayeredTable.resolve "parse.tab.c" = layeredTable.resolve "parse.tab.c" := by
  obtain ⟨-, trans, sound, exact, pruned, covered, resolved⟩ := shadowing_prunes_soundly
  have inner : (NameMatcher.suffix ".c").shadows (.suffix ".tab.c") := by decide
  have outer : (NameMatcher.suffix ".tab.c").shadows (.exact "parse.tab.c") := by decide
  have setup : scripts.shadows (.exact "setup.py") := by decide +kernel
  have left : prunedLayeredTable = layeredTable.prune := by decide +kernel
  refine ⟨⟨inner, outer, trans _ _ _ inner outer⟩, ⟨setup, sound _ _ setup _ (by decide)⟩, ?_,
    (pruned _ _).2 left, ?_, left ▸ resolved _ _⟩
  · apply exact _ _ rfl rfl
    intro name accepts
    simp [NameMatcher.accepts]
  · exact covered layeredTable ⟨.exact "parse.tab.c", .shell⟩ (by decide +kernel)

end StyleTable

end CopyrightHeader
