import Mathlib.Data.List.Nodup
import PlantGrammar.Rule.RuleSet

/-!
# What a rule set holds

The keys of a rule set are the words it has alternatives for, and nothing but these
alternatives tells one rule set from another. A property of keys and another of
alternatives that each rule line brings along hold throughout the rule set that the
lines build.
-/
namespace PlantGrammar.RuleSet

/-- The alternatives of a key are those of an entry. -/
theorem mem_entries_of_alternatives? {rules : RuleSet} {key : Word} {alternatives : List Word}
    (found : rules.alternatives? key = some alternatives) :
    ⟨key, alternatives⟩ ∈ rules.entries := by
  obtain ⟨entry, hentry, rfl⟩ := Option.map_eq_some_iff.1 found
  have same : entry.key = key := by simpa using List.find?_some hentry
  subst same
  exact List.mem_of_find?_eq_some hentry

theorem mem_keys_iff {rules : RuleSet} {key : Word} :
    key ∈ rules.keys ↔ ∃ alternatives, rules.alternatives? key = some alternatives := by
  rw [keys, List.mem_map]
  constructor
  · rintro ⟨entry, hmem, rfl⟩
    have there : (rules.entries.find? fun other => other.key = entry.key).isSome :=
      List.find?_isSome.2 ⟨entry, hmem, by simp⟩
    obtain ⟨found, hfound⟩ := Option.isSome_iff_exists.1 there
    exact ⟨found.alternatives, by rw [alternatives?, hfound, Option.map_some]⟩
  · rintro ⟨alternatives, found⟩
    exact ⟨_, mem_entries_of_alternatives? found, rfl⟩

theorem nodup_keys (rules : RuleSet) : rules.keys.Nodup := by
  refine List.pairwise_map.2 (rules.ordered.imp fun {a b} hab same => ?_)
  rw [same] at hab
  exact List.lt_irrefl b.key hab

/-- An entry holds all alternatives of its key. -/
theorem mem_entries_iff {rules : RuleSet} {entry : RuleEntry} :
    entry ∈ rules.entries ↔ rules.alternatives? entry.key = some entry.alternatives := by
  constructor
  · intro hmem
    obtain ⟨alternatives, found⟩ := mem_keys_iff.1 (List.mem_map_of_mem hmem)
    have same : ⟨entry.key, alternatives⟩ = entry :=
      List.inj_on_of_nodup_map rules.nodup_keys (mem_entries_of_alternatives? found) hmem rfl
    rw [found, ← same]
  · exact mem_entries_of_alternatives?

/-- Rule sets with the same alternatives for every key are equal. -/
theorem eq_of_alternatives? {r s : RuleSet}
    (h : ∀ key, r.alternatives? key = s.alternatives? key) : r = s := by
  have nodup : ∀ rules : RuleSet, rules.entries.Nodup :=
    fun rules => List.Nodup.of_map RuleEntry.key rules.nodup_keys
  have same : r.entries.Perm s.entries := by
    refine (List.perm_ext_iff_of_nodup (nodup r) (nodup s)).2 fun entry => ?_
    rw [mem_entries_iff, mem_entries_iff, h]
  exact ext (same.eq_of_pairwise (fun _ _ _ _ hab hba => absurd hba (List.lt_asymm hab))
    r.ordered s.ordered)

/-- Every key has one property, and every alternative another. -/
structure All (P Q : Word → Prop) (rules : RuleSet) : Prop where
  keys : ∀ key ∈ rules.keys, P key
  alternatives : ∀ key alternatives, rules.alternatives? key = some alternatives →
    ∀ replacement ∈ alternatives, Q replacement

theorem all_empty {P Q : Word → Prop} : empty.All P Q := by
  constructor
  · intro key hmem
    cases hmem
  · intro key alternatives found
    cases found

theorem All.add {P Q : Word → Prop} {rules : RuleSet} (h : rules.All P Q)
    {key replacement : Word} (hkey : P key) (hreplacement : Q replacement) :
    (rules.add key replacement).All P Q := by
  constructor
  · intro other hmem
    obtain ⟨alternatives, found⟩ := mem_keys_iff.1 hmem
    rw [alternatives?_add] at found
    split at found
    · rename_i same
      rwa [same]
    · exact h.keys other (mem_keys_iff.2 ⟨alternatives, found⟩)
  · intro other alternatives found
    rw [alternatives?_add] at found
    split at found
    · cases found
      intro word hmem
      rcases List.mem_append.1 hmem with old | new
      · cases known : rules.alternatives? key with
        | none => simp [known] at old
        | some olds =>
            rw [known] at old
            exact h.alternatives key olds known word old
      · rw [List.mem_singleton.1 new]
        exact hreplacement
    · exact h.alternatives other alternatives found

end PlantGrammar.RuleSet
