import PlantGrammar.Word

/-!
# The depth of the brackets in a word

A word is balanced if it closes what it opens: none of its beginnings has more
closing than opening brackets, and the whole word has as many of either kind.
A scan from left to right decides this. It counts the brackets that are open
and stops at a closing bracket without a partner.
-/
namespace PlantGrammar.Word

/-- The number of opening brackets less that of closing ones. -/
def rise (w : Word) : Int := (w.count '[' : Int) - w.count ']'

@[simp] theorem rise_nil : rise [] = 0 := rfl

@[simp] theorem rise_open : rise ['['] = 1 := rfl

@[simp] theorem rise_close : rise [']'] = -1 := rfl

theorem rise_plain {symbol : Symbol} (hopen : symbol ≠ '[') (hclose : symbol ≠ ']') :
    rise [symbol] = 0 := by
  simp [rise, hopen, hclose]

theorem rise_append (u v : Word) : rise (u ++ v) = rise u + rise v := by
  simp only [rise, List.count_append]
  omega

theorem rise_cons (symbol : Symbol) (w : Word) : rise (symbol :: w) = rise [symbol] + rise w :=
  rise_append [symbol] w

structure Balanced (w : Word) : Prop where
  beginnings : ∀ u, u <+: w → u.count ']' ≤ u.count '['
  whole : w.count '[' = w.count ']'

/-- The depth after one more symbol. -/
def deepen? (depth : Nat) (symbol : Symbol) : Option Nat :=
  if symbol = '[' then some (depth + 1)
  else if symbol = ']' then if depth = 0 then none else some (depth - 1)
  else some depth

/-- The depth after a word that begins at some depth. -/
def depthAfter? (depth : Nat) (w : Word) : Option Nat := w.foldlM deepen? depth

@[simp] theorem depthAfter?_nil (depth : Nat) : depthAfter? depth [] = some depth := rfl

theorem depthAfter?_cons (depth : Nat) (symbol : Symbol) (w : Word) :
    depthAfter? depth (symbol :: w) = (deepen? depth symbol).bind (depthAfter? · w) := rfl

theorem depthAfter?_append (depth : Nat) (u v : Word) :
    depthAfter? depth (u ++ v) = (depthAfter? depth u).bind (depthAfter? · v) :=
  List.foldlM_append

/-- The scan of a symbol fails where the depth would fall below zero, and only there. -/
theorem deepen?_eq_some_iff {depth later : Nat} {symbol : Symbol} :
    deepen? depth symbol = some later ↔ (later : Int) = depth + rise [symbol] := by
  by_cases hopen : symbol = '['
  · subst hopen
    simp only [deepen?, if_pos, Option.some.injEq, rise_open]
    omega
  · by_cases hclose : symbol = ']'
    · subst hclose
      simp only [deepen?, if_neg hopen, if_pos, rise_close]
      split <;> simp only [Option.some.injEq, reduceCtorEq, false_iff] <;> omega
    · simp only [deepen?, if_neg hopen, if_neg hclose, Option.some.injEq,
        rise_plain hopen hclose]
      omega

theorem deepen?_eq_none_iff {depth : Nat} {symbol : Symbol} :
    deepen? depth symbol = none ↔ symbol = ']' ∧ depth = 0 := by
  by_cases hopen : symbol = '['
  · subst hopen
    simp [deepen?]
  · by_cases hclose : symbol = ']'
    · subst hclose
      simp [deepen?]
    · simp [deepen?, hopen, hclose]

/-- The scan comes to the end exactly if the depth is nowhere below zero. -/
theorem depthAfter?_eq_some_iff {depth last : Nat} {w : Word} :
    depthAfter? depth w = some last ↔
      (∀ i ≤ w.length, 0 ≤ (depth : Int) + rise (w.take i)) ∧ (last : Int) = depth + rise w := by
  induction w generalizing depth with
  | nil =>
      simp only [depthAfter?_nil, Option.some.injEq, List.take_nil, rise_nil]
      constructor
      · intro same
        exact ⟨fun i _ => by omega, by omega⟩
      · rintro ⟨_, same⟩
        omega
  | cons symbol w ih =>
      rw [depthAfter?_cons, Option.bind_eq_some_iff, rise_cons]
      constructor
      · rintro ⟨next, step, scanned⟩
        have hnext := deepen?_eq_some_iff.1 step
        obtain ⟨above, same⟩ := ih.1 scanned
        refine ⟨fun i hi => ?_, by omega⟩
        cases i with
        | zero => simp
        | succ i =>
            have hi' := above i (Nat.le_of_succ_le_succ hi)
            rw [List.take_succ_cons, rise_cons]
            omega
      · rintro ⟨above, same⟩
        have first := above 1 (Nat.succ_le_succ (Nat.zero_le _))
        rw [List.take_succ_cons, List.take_zero] at first
        obtain ⟨next, hnext⟩ := Int.eq_ofNat_of_zero_le first
        refine ⟨next, deepen?_eq_some_iff.2 hnext.symm, ih.2 ⟨fun i hi => ?_, by omega⟩⟩
        have hi' := above (i + 1) (Nat.succ_le_succ hi)
        rw [List.take_succ_cons, rise_cons] at hi'
        omega

theorem balanced_iff_depthAfter? {w : Word} : Balanced w ↔ depthAfter? 0 w = some 0 := by
  rw [depthAfter?_eq_some_iff]
  constructor
  · rintro ⟨beginnings, whole⟩
    refine ⟨fun i _ => ?_, by simp only [rise]; omega⟩
    have hi := beginnings (w.take i) (List.take_prefix i w)
    simp only [rise]
    omega
  · rintro ⟨above, same⟩
    refine ⟨fun u hu => ?_, by simp only [rise] at same; omega⟩
    have hu' := above u.length hu.length_le
    rw [← List.prefix_iff_eq_take.1 hu] at hu'
    simp only [rise] at hu'
    omega

instance (w : Word) : Decidable (Balanced w) := decidable_of_iff _ balanced_iff_depthAfter?.symm

theorem balanced_nil : Balanced [] := balanced_iff_depthAfter?.2 rfl

/-- A balanced word leads back to the depth that it begins at, whatever that is. -/
theorem Balanced.depthAfter? {w : Word} (h : Balanced w) (depth : Nat) :
    depthAfter? depth w = some depth := by
  obtain ⟨above, same⟩ := depthAfter?_eq_some_iff.1 (balanced_iff_depthAfter?.1 h)
  refine depthAfter?_eq_some_iff.2 ⟨fun i hi => ?_, by omega⟩
  have hi' := above i hi
  omega

end PlantGrammar.Word
