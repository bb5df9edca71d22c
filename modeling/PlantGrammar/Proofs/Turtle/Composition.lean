import PlantGrammar.Proofs.Turtle.Account

/-!
# Words read in a row

A walk has no memory but its turtle and its skeleton. So it makes no difference whether
a word is read in one go or in two parts, wherever the cut is made. Only the place in
the word starts anew with each part: a bracket without a partner in the second part
stands as much further on in the whole word as the first part is long.
-/
namespace PlantGrammar

/-- The fault at its place in a word that begins so many symbols earlier. -/
def Fault.shiftedBy (n : Nat) : Fault → Fault
  | unmatchedBracket position => unmatchedBracket (position + n)
  | noAlternative key => noAlternative key

theorem Journey.outcome_zero_map {α : Type} (turtle : Turtle α) (drawn : Skeleton α)
    (stop : Option Nat) (n : Nat) :
    (Journey.mk turtle drawn (stop.map (· + n))).outcome 0 =
      ((Journey.mk turtle drawn stop).outcome 0).mapError (Fault.shiftedBy n) := by
  cases stop with
  | none => rfl
  | some k =>
      show Except.error (Fault.unmatchedBracket (0 + (k + n))) =
        .error (.unmatchedBracket (0 + k + n))
      rw [Nat.add_assoc]

namespace Turtle

variable {α : Type} [Scalar α] [Trigonometry α]

/-- Nothing is added to a journey that has stopped. -/
theorem journey_append_of_some {turtle : Turtle α} {u : Word} {k : Nat}
    (hstop : (turtle.journey u).stop = some k) (v : Word) :
    turtle.journey (u ++ v) = turtle.journey u := by
  rw [journey_append, hstop]
  simp only [← hstop]

theorem journey_append_of_none {turtle : Turtle α} {u : Word}
    (hstop : (turtle.journey u).stop = none) (v : Word) :
    turtle.journey (u ++ v) =
      let later := (turtle.journey u).turtle.journey v
      ⟨later.turtle, (turtle.journey u).drawn ++ later.drawn, later.stop.map (· + u.length)⟩ := by
  rw [journey_append, hstop]

end Turtle

namespace Walk

variable {α : Type} [Scalar α] [Trigonometry α]

theorem read_append_of_some {walk : Walk α} {u : Word} {k : Nat}
    (hstop : (walk.turtle.journey u).stop = some k) (v : Word) :
    walk.read (u ++ v) = walk.read u := by
  have same := Turtle.journey_append_of_some hstop v
  rw [read_of_stop hstop, read_of_stop (by rw [same]; exact hstop), same]

theorem walk_read_append {walk : Walk α} {u : Word}
    (hstop : (walk.turtle.journey u).stop = none) (v : Word) :
    (walk.read (u ++ v)).walk = ((walk.read u).walk.read v).walk := by
  simp only [read_walk, Turtle.journey_append_of_none hstop, Skeleton.append_assoc]

theorem outcome_read_append {walk : Walk α} {u : Word}
    (hstop : (walk.turtle.journey u).stop = none) (v : Word) :
    (walk.read (u ++ v)).outcome =
      ((walk.read u).walk.read v).outcome.mapError (Fault.shiftedBy u.length) := by
  rw [read_outcome, read_outcome, read_walk, Turtle.journey_append_of_none hstop,
    Journey.outcome_zero_map]
  rfl

/-- The second of two words decides whether both are read, if the first one is. -/
theorem read_append_ok_iff {walk : Walk α} {u : Word}
    (hstop : (walk.turtle.journey u).stop = none) (v : Word) :
    (walk.read (u ++ v)).outcome = .ok () ↔ ((walk.read u).walk.read v).outcome = .ok () := by
  rw [read_ok_iff, read_ok_iff, read_walk, Turtle.journey_append_of_none hstop,
    Option.map_eq_none_iff]

/-- The reports of two words that are read to their ends add up, but for the depth, which
is that of the second one. -/
theorem events_read_append {walk : Walk α} {u v : Word}
    {symbols segments markers depth symbols' segments' markers' depth' : Nat}
    (first : (walk.read u).events = [.walked symbols segments markers depth])
    (second : ((walk.read u).walk.read v).events = [.walked symbols' segments' markers' depth']) :
    (walk.read (u ++ v)).events =
      [.walked (symbols + symbols') (segments + segments') (markers + markers') depth'] := by
  cases hu : (walk.turtle.journey u).stop with
  | some k =>
      rw [read_of_stop hu] at first
      cases first
  | none =>
      have later : (walk.read u).walk.turtle = (walk.turtle.journey u).turtle := by rw [read_walk]
      cases hv : ((walk.turtle.journey u).turtle.journey v).stop with
      | some k =>
          rw [read_of_stop (by rw [later]; exact hv)] at second
          cases second
      | none =>
          have whole := Turtle.journey_append_of_none hu v
          rw [read_of_none hu] at first
          rw [read_of_none (by rw [later]; exact hv), later] at second
          rw [read_of_none (by rw [whole]; simp only [hv, Option.map_none]), whole]
          cases first
          cases second
          simp [Word.marks_append]

/-- A walk that fails in the first of two words fails in the whole word at the same
place, and has come as far. A walk that comes to the end of the first word does in the
whole word what it does when the second word is read after the first, with a fault as
much further on as the first word is long, and with a report in which the numbers of both
are added up. -/
theorem words_read_in_a_row (walk : Walk α) (u v : Word) :
    let first := walk.read u
    let second := first.walk.read v
    let whole := walk.read (u ++ v)
    (∀ fault, first.outcome = .error fault →
      whole.outcome = .error fault ∧ whole.walk = first.walk ∧ whole.events = []) ∧
    (first.outcome = .ok () →
      whole.walk = second.walk ∧
        whole.outcome = second.outcome.mapError (Fault.shiftedBy u.length) ∧
        ∀ symbols segments markers depth symbols' segments' markers' depth',
          first.events = [.walked symbols segments markers depth] →
          second.events = [.walked symbols' segments' markers' depth'] →
          whole.events =
            [.walked (symbols + symbols') (segments + segments') (markers + markers') depth']) := by
  intro first second whole
  cases hstop : (walk.turtle.journey u).stop with
  | some k =>
      have stopped : first = _ := read_of_stop hstop
      have same : whole = first := read_append_of_some hstop v
      rw [same]
      refine ⟨fun fault failed => ⟨failed, rfl, by rw [stopped]⟩, fun ok => ?_⟩
      rw [stopped] at ok
      cases ok
  | none =>
      have ended : first.outcome = .ok () := (read_ok_iff walk u).2 hstop
      refine ⟨fun fault failed => ?_, fun _ => ?_⟩
      · rw [ended] at failed
        cases failed
      · exact ⟨walk_read_append hstop v, outcome_read_append hstop v,
          fun _ _ _ _ _ _ _ _ => events_read_append⟩

/-- The first part leaves a pose open that the second one returns to, and the bracket that
fails is the second symbol there and the fifth in all. Behind it nothing is read. -/
theorem words_read_in_a_row_through_open_bracket :
    let walk : Walk Float32 := start Settings.standard Skeleton.empty
    let second := (walk.read "F[é".toList).walk.read "]]F".toList
    (walk.read "F[é".toList).outcome = .ok () ∧
      second.outcome = .error (.unmatchedBracket 1) ∧
      (walk.read "F[é]]F".toList).outcome = .error (.unmatchedBracket 4) ∧
      (walk.read "F[é]]F".toList).walk = second.walk ∧
      (walk.read ("F[é]]F".toList ++ "+L".toList)).outcome = .error (.unmatchedBracket 4) := by
  intro walk second
  have ended : (walk.read "F[é".toList).outcome = .ok () := rfl
  have failed : second.outcome = .error (.unmatchedBracket 1) := rfl
  obtain ⟨_, goes⟩ := words_read_in_a_row walk "F[é".toList "]]F".toList
  obtain ⟨same, shifted, _⟩ := goes ended
  have position : (walk.read "F[é]]F".toList).outcome = .error (.unmatchedBracket 4) := by
    refine shifted.trans ?_
    rw [show ((walk.read "F[é".toList).walk.read "]]F".toList).outcome = _ from failed]
    rfl
  obtain ⟨stops, _⟩ := words_read_in_a_row walk "F[é]]F".toList "+L".toList
  exact ⟨ended, failed, position, same, (stops _ position).1⟩

end Walk
end PlantGrammar
