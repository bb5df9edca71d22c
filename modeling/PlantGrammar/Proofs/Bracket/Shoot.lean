import PlantGrammar.Proofs.Bracket.Depth

/-!
# Balanced words as shoots

A shoot ends at its tip, or it grows by a symbol that is no bracket, or it forks:
a side shoot stands in brackets before the rest. The balanced words are exactly
the words of shoots, so counting brackets and taking a word apart by its groups
come to the same.
-/
namespace PlantGrammar

inductive Shoot where
  | tip
  | grow (symbol : Symbol) (plain : symbol ≠ '[' ∧ symbol ≠ ']') (rest : Shoot)
  | fork (side rest : Shoot)

namespace Shoot

def word : Shoot → Word
  | tip => []
  | grow symbol _ rest => symbol :: rest.word
  | fork side rest => '[' :: (side.word ++ ']' :: rest.word)

/-- The word without its groups in brackets. -/
def trunk : Shoot → Word
  | tip => []
  | grow symbol _ rest => symbol :: rest.trunk
  | fork _ rest => rest.trunk

theorem depthAfter?_word (shoot : Shoot) (depth : Nat) :
    Word.depthAfter? depth shoot.word = some depth := by
  induction shoot generalizing depth with
  | tip => rfl
  | grow symbol plain rest ih =>
      have step : Word.deepen? depth symbol = some depth := by
        simp [Word.deepen?, plain.1, plain.2]
      rw [word, Word.depthAfter?_cons, step, Option.bind_some, ih]
  | fork side rest ihs ihr =>
      have opening : Word.deepen? depth '[' = some (depth + 1) := rfl
      have closing : Word.deepen? (depth + 1) ']' = some depth := rfl
      rw [word, Word.depthAfter?_cons, opening, Option.bind_some, Word.depthAfter?_append, ihs,
        Option.bind_some, Word.depthAfter?_cons, closing, Option.bind_some, ihr]

theorem balanced_word (shoot : Shoot) : Word.Balanced shoot.word :=
  Word.balanced_iff_depthAfter?.2 (depthAfter?_word shoot 0)

/-- A scan that ends below its start has a closing bracket at which it first gets
below: before this bracket it comes down to just above. -/
theorem exists_first_close {above below last : Nat} {w : Word}
    (scanned : Word.depthAfter? (above + (below + 1)) w = some last) (lower : last ≤ below) :
    ∃ u v, w = u ++ ']' :: v ∧ Word.depthAfter? above u = some 0 ∧
      Word.depthAfter? below v = some last := by
  induction w generalizing above with
  | nil =>
      cases scanned
      omega
  | cons symbol w ih =>
      rw [Word.depthAfter?_cons] at scanned
      obtain ⟨next, step, remaining⟩ := Option.bind_eq_some_iff.1 scanned
      have hnext := Word.deepen?_eq_some_iff.1 step
      by_cases ends : symbol = ']' ∧ above = 0
      · obtain ⟨rfl, rfl⟩ := ends
        have hbelow : next = below := by
          rw [Word.rise_close] at hnext
          omega
        exact ⟨[], w, rfl, rfl, hbelow ▸ remaining⟩
      · have inside : Word.deepen? above symbol ≠ none := fun none_left =>
          ends (Word.deepen?_eq_none_iff.1 none_left)
        obtain ⟨shifted, hshifted⟩ := Option.ne_none_iff_exists'.1 inside
        have hlevel : next = shifted + (below + 1) := by
          have hrise := Word.deepen?_eq_some_iff.1 hshifted
          omega
        obtain ⟨u, v, hw, hu, hv⟩ := ih (hlevel ▸ remaining)
        refine ⟨symbol :: u, v, by rw [hw]; rfl, ?_, hv⟩
        rw [Word.depthAfter?_cons, hshifted, Option.bind_some, hu]

theorem exists_shoot {w : Word} (balanced : Word.depthAfter? 0 w = some 0) :
    ∃ shoot : Shoot, shoot.word = w := by
  match w with
  | [] => exact ⟨tip, rfl⟩
  | symbol :: w =>
      rw [Word.depthAfter?_cons] at balanced
      by_cases hopen : symbol = '['
      · subst hopen
        have opening : Word.deepen? 0 '[' = some (0 + (0 + 1)) := rfl
        rw [opening, Option.bind_some] at balanced
        obtain ⟨u, v, hw, hu, hv⟩ := exists_first_close balanced (Nat.le_refl 0)
        have shorter : u.length < w.length ∧ v.length < w.length := by
          simp only [hw, List.length_append, List.length_cons]
          omega
        obtain ⟨side, hside⟩ := exists_shoot hu
        obtain ⟨rest, hrest⟩ := exists_shoot hv
        exact ⟨fork side rest, by rw [word, hside, hrest, hw]⟩
      · by_cases hclose : symbol = ']'
        · subst hclose
          cases balanced
        · have step : Word.deepen? 0 symbol = some 0 := by simp [Word.deepen?, hopen, hclose]
          rw [step, Option.bind_some] at balanced
          obtain ⟨rest, hrest⟩ := exists_shoot balanced
          exact ⟨grow symbol ⟨hopen, hclose⟩ rest, by rw [word, hrest]⟩
termination_by w.length

/-- Counting brackets finds the same words as taking them apart by their groups. -/
theorem balanced_iff_exists_shoot {w : Word} :
    Word.Balanced w ↔ ∃ shoot : Shoot, shoot.word = w := by
  constructor
  · intro h
    exact exists_shoot (Word.balanced_iff_depthAfter?.1 h)
  · rintro ⟨shoot, rfl⟩
    exact balanced_word shoot

end Shoot
end PlantGrammar
