import PlantGrammar.Proofs.Bracket.Depth
import PlantGrammar.Proofs.Turtle.Journey

/-!
# Where a walk ends before its word

The poses that a turtle has saved are the brackets that are open, so the depth
of the brackets alone decides whether a walk comes to the end of its word. If it
does not, it ends at the first closing bracket that stands at depth zero, with
all that the symbols before it have done and nothing else.
-/
namespace PlantGrammar

namespace Turtle

variable {α : Type} [Scalar α] [Trigonometry α]

theorem depth_obey? {turtle next : Turtle α} {symbol : Symbol}
    (h : turtle.obey? (Command.ofSymbol symbol) = some next) :
    Word.deepen? turtle.depth symbol = some next.depth := by
  by_cases hopen : symbol = '['
  · subst hopen
    rw [obey?_open] at h
    cases h
    rfl
  · by_cases hclose : symbol = ']'
    · subst hclose
      cases hsaved : turtle.saved with
      | nil =>
          rw [obey?_close_of_nil hsaved] at h
          cases h
      | cons pose rest =>
          rw [obey?_close_of_cons hsaved] at h
          cases h
          simp [Word.deepen?, depth, hsaved]
    · rw [obey?_plain hopen hclose] at h
      cases h
      simp [Word.deepen?, hopen, hclose, depth]

/-- The scan of the brackets fails where the journey stops, and ends at its depth. -/
theorem depthAfter?_depth (turtle : Turtle α) (w : Word) :
    Word.depthAfter? turtle.depth w =
      match (turtle.journey w).stop with
      | none => some (turtle.journey w).turtle.depth
      | some _ => none := by
  induction w generalizing turtle with
  | nil => rfl
  | cons symbol w ih =>
      rw [Word.depthAfter?_cons]
      cases h : turtle.obey? (Command.ofSymbol symbol) with
      | none =>
          obtain ⟨hclose, hsaved⟩ := obey?_eq_none h
          have hdepth : turtle.depth = 0 := by simp [depth, hsaved]
          rw [journey_cons_of_none h, Word.deepen?_eq_none_iff.2 ⟨hclose, hdepth⟩]
          rfl
      | some next =>
          rw [journey_cons_of_some h, depth_obey? h, Option.bind_some, ih]
          cases (next.journey w).stop <;> rfl

/-- A journey comes to the end of the word if the depth is nowhere below zero. -/
theorem stop_eq_none_iff (turtle : Turtle α) (w : Word) :
    (turtle.journey w).stop = none ↔
      ∀ i ≤ w.length, 0 ≤ (turtle.depth : Int) + Word.rise (w.take i) := by
  have scanned := depthAfter?_depth turtle w
  constructor
  · intro hstop
    rw [hstop] at scanned
    exact (Word.depthAfter?_eq_some_iff.1 scanned).1
  · intro above
    obtain ⟨last, hlast⟩ := Int.eq_ofNat_of_zero_le (above w.length (Nat.le_refl _))
    rw [List.take_length] at hlast
    rw [Word.depthAfter?_eq_some_iff.2 ⟨above, hlast.symm⟩] at scanned
    cases hstop : (turtle.journey w).stop with
    | none => rfl
    | some k => simp [hstop] at scanned

theorem depth_of_stop_eq_none {turtle : Turtle α} {w : Word}
    (hstop : (turtle.journey w).stop = none) :
    ((turtle.journey w).turtle.depth : Int) = turtle.depth + w.rise := by
  have scanned := depthAfter?_depth turtle w
  rw [hstop] at scanned
  exact (Word.depthAfter?_eq_some_iff.1 scanned).2

/-- A journey stops at a closing bracket when nothing is saved, and what it has
done by then is what the symbols before the bracket do. -/
theorem journey_of_stop {turtle : Turtle α} {w : Word} {k : Nat}
    (hstop : (turtle.journey w).stop = some k) :
    ∃ u rest, w = u ++ ']' :: rest ∧ u.length = k ∧ (turtle.journey u).stop = none ∧
      (turtle.journey u).turtle.saved = [] ∧
      turtle.journey w = ⟨(turtle.journey u).turtle, (turtle.journey u).drawn, some k⟩ := by
  induction w generalizing turtle k with
  | nil => simp at hstop
  | cons symbol w ih =>
      cases h : turtle.obey? (Command.ofSymbol symbol) with
      | none =>
          obtain ⟨rfl, hsaved⟩ := obey?_eq_none h
          rw [journey_cons_of_none h] at hstop ⊢
          cases hstop
          exact ⟨[], w, rfl, rfl, rfl, hsaved, rfl⟩
      | some next =>
          rw [journey_cons_of_some h] at hstop ⊢
          obtain ⟨j, hj, rfl⟩ := Option.map_eq_some_iff.1 hstop
          obtain ⟨u, rest, hw, hlength, hnone, hsaved, same⟩ := ih hj
          refine ⟨symbol :: u, rest, by rw [hw]; rfl, by rw [← hlength]; rfl, ?_⟩
          rw [journey_cons_of_some h, same]
          exact ⟨by rw [hnone]; rfl, hsaved, rfl⟩

/-- Nothing behind the bracket that ends a journey is looked at. -/
theorem journey_eq_of_stop {turtle : Turtle α} {w other : Word} {k : Nat}
    (hstop : (turtle.journey w).stop = some k) (same : other.take (k + 1) = w.take (k + 1)) :
    turtle.journey other = turtle.journey w := by
  obtain ⟨u, rest, rfl, rfl, hnone, hsaved, journey_eq⟩ := journey_of_stop hstop
  have hother : other = u ++ ']' :: other.drop (u.length + 1) := by
    have halves := List.take_append_drop (u.length + 1) other
    rw [same, List.take_length_add_append, List.append_assoc] at halves
    exact halves.symm
  rw [hother, journey_append, hnone, journey_cons_of_none (obey?_close_of_nil hsaved), journey_eq]
  simp

/-- A closing bracket that a journey passes does not stand at depth zero. -/
theorem depth_ne_zero_of_close {turtle : Turtle α} {u : Word} {j : Nat}
    (hnone : (turtle.journey u).stop = none) (hclose : u[j]? = some ']') :
    (turtle.depth : Int) + Word.rise (u.take j) ≠ 0 := by
  intro hzero
  have hj : j < u.length := (List.getElem?_eq_some_iff.1 hclose).1
  have below := (stop_eq_none_iff turtle u).1 hnone (j + 1) hj
  rw [List.take_add_one, hclose, Option.toList_some, Word.rise_append, Word.rise_close] at below
  omega

/-- The bracket that ends a journey is the first closing one that stands at depth zero. -/
theorem first_close_of_stop {turtle : Turtle α} {w : Word} {k : Nat}
    (hstop : (turtle.journey w).stop = some k) :
    w[k]? = some ']' ∧ (turtle.depth : Int) + Word.rise (w.take k) = 0 ∧
      ∀ j < k, w[j]? = some ']' → (turtle.depth : Int) + Word.rise (w.take j) ≠ 0 := by
  obtain ⟨u, rest, rfl, rfl, hnone, hsaved, _⟩ := journey_of_stop hstop
  refine ⟨by simp, ?_, ?_⟩
  · have last := depth_of_stop_eq_none hnone
    have hzero : (turtle.journey u).turtle.depth = 0 := by simp [depth, hsaved]
    rw [List.take_left]
    omega
  · intro j hj hclose
    rw [List.getElem?_append_left hj] at hclose
    rw [List.take_append_of_le_length (Nat.le_of_lt hj)]
    exact depth_ne_zero_of_close hnone hclose

theorem journey_take_of_stop {turtle : Turtle α} {w : Word} {k : Nat}
    (hstop : (turtle.journey w).stop = some k) :
    (turtle.journey w).turtle.saved = [] ∧
      turtle.journey (w.take k) = ⟨(turtle.journey w).turtle, (turtle.journey w).drawn, none⟩ := by
  obtain ⟨u, rest, rfl, rfl, hnone, hsaved, same⟩ := journey_of_stop hstop
  rw [List.take_left, same]
  refine ⟨hsaved, ?_⟩
  rw [← hnone]

end Turtle

namespace Walk

variable {α : Type} [Scalar α] [Trigonometry α]

theorem read_ok_iff (walk : Walk α) (w : Word) :
    (walk.read w).outcome = .ok () ↔ (walk.turtle.journey w).stop = none := by
  rw [read_outcome]
  cases hstop : (walk.turtle.journey w).stop with
  | none => simp [Journey.outcome_of_none hstop]
  | some k => simp [Journey.outcome_of_some hstop]

theorem read_outcome_of_stop {walk : Walk α} {w : Word} {k : Nat}
    (hstop : (walk.turtle.journey w).stop = some k) :
    (walk.read w).outcome = .error (.unmatchedBracket k) := by
  rw [read_outcome, Journey.outcome_of_some hstop, Nat.zero_add]

/-- A walk that fails is given by its journey, down to the events, of which there are none. -/
theorem read_of_stop {walk : Walk α} {w : Word} {k : Nat}
    (hstop : (walk.turtle.journey w).stop = some k) :
    walk.read w =
      ⟨⟨(walk.turtle.journey w).turtle, walk.skeleton ++ (walk.turtle.journey w).drawn⟩,
        .error (.unmatchedBracket k), []⟩ := by
  rw [read, follow_eq, Journey.outcome_of_some hstop, Nat.zero_add]

/-- A walk comes to the end of its word exactly if the depth, counted from the
poses saved before, is nowhere below zero. Otherwise it ends at the first closing
bracket at depth zero, as the symbols before it leave it. -/
theorem read_unmatched (walk : Walk α) (w : Word) :
    let depthAt := fun i : Nat => (walk.depth : Int) + Word.rise (w.take i)
    ((walk.read w).outcome = .ok () ↔ ∀ i ≤ w.length, 0 ≤ depthAt i) ∧
    ((walk.read w).outcome = .ok () → ((walk.read w).walk.depth : Int) = depthAt w.length) ∧
    ((walk.read w).outcome ≠ .ok () →
      ∃ k, w[k]? = some ']' ∧ depthAt k = 0 ∧ (∀ j < k, w[j]? = some ']' → depthAt j ≠ 0) ∧
        (walk.read w).outcome = .error (.unmatchedBracket k) ∧
        (walk.read w).walk.turtle.saved = [] ∧
        (walk.read (w.take k)).outcome = .ok () ∧
        (walk.read w).walk = (walk.read (w.take k)).walk ∧
        ∀ other : Word, other.take (k + 1) = w.take (k + 1) → walk.read other = walk.read w) := by
  intro depthAt
  have hiff : (walk.read w).outcome = .ok () ↔ ∀ i ≤ w.length, 0 ≤ depthAt i :=
    (read_ok_iff walk w).trans (Turtle.stop_eq_none_iff walk.turtle w)
  refine ⟨hiff, fun hok => ?_, fun hfail => ?_⟩
  · have last := Turtle.depth_of_stop_eq_none ((read_ok_iff walk w).1 hok)
    simp only [depthAt, List.take_length, read_walk]
    exact last
  · cases hstop : (walk.turtle.journey w).stop with
    | none => exact absurd ((read_ok_iff walk w).2 hstop) hfail
    | some k =>
        obtain ⟨hclose, hzero, first⟩ := Turtle.first_close_of_stop hstop
        obtain ⟨hsaved, before⟩ := Turtle.journey_take_of_stop hstop
        refine ⟨k, hclose, hzero, first, read_outcome_of_stop hstop, ?_, ?_, ?_, ?_⟩
        · rw [read_walk]
          exact hsaved
        · rw [read_ok_iff, before]
        · rw [read_walk, read_walk, before]
        · intro other hother
          have hjourney := Turtle.journey_eq_of_stop hstop hother
          rw [read_of_stop hstop, read_of_stop (hjourney ▸ hstop), hjourney]

/-- The position counts symbols. The ones before this bracket take ten bytes. -/
theorem read_unmatched_after_wide_symbols :
    ((Walk.start Settings.standard Skeleton.empty : Walk Float32).read "∧[é∧]]F".toList).outcome =
      .error (.unmatchedBracket 5) := by
  obtain ⟨ends, _, fails⟩ :=
    read_unmatched (Walk.start Settings.standard Skeleton.empty : Walk Float32) "∧[é∧]]F".toList
  have below : ¬ ∀ i ≤ "∧[é∧]]F".toList.length,
      0 ≤ ((0 : Nat) : Int) + Word.rise ("∧[é∧]]F".toList.take i) := by decide
  have places : ∀ k < 7, "∧[é∧]]F".toList[k]? = some ']' → k = 4 ∨ k = 5 := by decide
  obtain ⟨k, hclose, hzero, _, stopped, _⟩ := fails fun ok => below (ends.1 ok)
  rcases places k (List.getElem?_eq_some_iff.1 hclose).1 hclose with rfl | rfl
  · have deeper : ((0 : Nat) : Int) + Word.rise ("∧[é∧]]F".toList.take 4) ≠ 0 := by decide
    exact absurd hzero deeper
  · exact stopped

end Walk
end PlantGrammar
