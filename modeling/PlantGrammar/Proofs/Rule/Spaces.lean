import PlantGrammar.Proofs.Rule.Writing

/-!
# Where spaces count

Returns are dropped at the end of a raw line before its spaces are. A space behind a
return hides it from this, and the return becomes a symbol of the line. That is all a
space can do. Two raw lines that differ in spaces are read alike exactly if the same
number of returns is seen at the end of both.
-/
namespace PlantGrammar.Line

/-- The symbols of a raw line are what is read of it, and behind these the returns that
are dropped. -/
theorem dropSpaces_eq (raw : Word) :
    dropSpaces raw =
      dropSpaces (dropReturns raw) ++ List.replicate (finalReturns raw) '\r' := by
  conv_lhs => rw [← dropReturns_append_finalReturns raw]
  simp [dropSpaces]

theorem dropReturns_append_replicate (w : Word) (n : Nat) :
    dropReturns (w ++ List.replicate n '\r') = dropReturns w := by
  induction n with
  | zero => simp
  | succ n ih =>
      rw [List.replicate_succ', ← List.append_assoc]
      exact (List.rdropWhile_concat_pos _ _ _ rfl).trans ih

/-- Raw lines that differ in spaces lose the same only if they lose the same number of
returns. -/
theorem dropSpaces_dropReturns_eq_iff {raw other : Word}
    (same : dropSpaces raw = dropSpaces other) :
    dropSpaces (dropReturns raw) = dropSpaces (dropReturns other) ↔
      finalReturns raw = finalReturns other := by
  rw [dropSpaces_eq raw, dropSpaces_eq other] at same
  constructor
  · intro read
    rw [read] at same
    simpa using List.append_cancel_left same
  · intro returns
    rw [returns] at same
    exact List.append_cancel_right same

theorem dropSpaces_dropReturns_dropSpaces (raw : Word) :
    dropSpaces (dropReturns (dropSpaces raw)) =
      dropReturns (dropSpaces (dropReturns raw)) := by
  have visible : ∀ symbol ∈ dropReturns (dropSpaces raw), symbol ≠ ' ' :=
    fun _ hmem => (mem_dropSpaces (mem_of_mem_dropReturns hmem)).2
  have stays : dropSpaces (dropReturns (dropSpaces raw)) = dropReturns (dropSpaces raw) :=
    List.filter_eq_self.2 fun symbol hmem => decide_eq_true (visible symbol hmem)
  rw [stays, dropSpaces_eq raw, dropReturns_append_replicate]

/-- Nothing is left of a raw line exactly if it has returns only behind its spaces, and
no other symbols. -/
theorem dropSpaces_dropReturns_eq_nil_iff {raw : Word} :
    dropSpaces (dropReturns raw) = [] ↔
      ∃ m n, raw = List.replicate m ' ' ++ List.replicate n '\r' := by
  constructor
  · intro blank
    have spaces : ∀ symbol ∈ dropReturns raw, symbol = ' ' := by
      simpa [dropSpaces] using blank
    refine ⟨(dropReturns raw).length, finalReturns raw, ?_⟩
    rw [← List.eq_replicate_iff.2 ⟨rfl, spaces⟩, dropReturns_append_finalReturns]
  · rintro ⟨m, n, rfl⟩
    rw [dropReturns_append_replicate]
    refine List.filter_eq_nil_iff.2 fun symbol hmem => ?_
    have space := List.eq_of_mem_replicate (mem_of_mem_dropReturns hmem)
    simp [space]

/-- Spaces may stand anywhere but behind a return that ends the line otherwise. Raw lines
that differ in spaces only are read alike exactly if they end in the same number of
returns. So a raw line is read as it is without any spaces exactly if what is read of it
does not end in a return, and it is blank exactly if it consists of spaces with returns
behind them. -/
theorem spaces_count_behind_returns_only (raw : Word) :
    (∀ other, dropSpaces other = dropSpaces raw →
      (parse? other = parse? raw ↔ finalReturns other = finalReturns raw)) ∧
    (parse? raw = parse? (dropSpaces raw) ↔
      (dropSpaces (dropReturns raw)).getLast? ≠ some '\r') ∧
    (parse? raw = none ↔ ∃ m n, raw = List.replicate m ' ' ++ List.replicate n '\r') := by
  refine ⟨fun other same => ?_, ?_, ?_⟩
  · rw [parse?_eq_parse?_iff, dropSpaces_dropReturns_eq_iff same]
  · rw [parse?_eq_parse?_iff, dropSpaces_dropReturns_dropSpaces, eq_comm,
      dropReturns_eq_self_iff]
  · rw [parse?_eq_none_iff, dropSpaces_dropReturns_eq_nil_iff]

/-- Spaces inside the arrow and before the returns do not count. -/
theorem spaces_count_behind_returns_only_before_them :
    dropSpaces " A - > B \r\r".toList = dropSpaces "A->B\r\r".toList ∧
      parse? " A - > B \r\r".toList = parse? "A->B\r\r".toList := by
  obtain ⟨alike, _⟩ := spaces_count_behind_returns_only "A->B\r\r".toList
  have same : dropSpaces " A - > B \r\r".toList = dropSpaces "A->B\r\r".toList := by decide
  exact ⟨same, (alike _ same).2 (by decide)⟩

/-- A space behind a return makes an initiator of a line that is blank without it. -/
theorem spaces_not_always_ignored :
    ¬ ∀ raw other : Word, dropSpaces raw = dropSpaces other → parse? raw = parse? other := by
  intro ignored
  have same : dropSpaces "\r ".toList = dropSpaces "\r".toList := by decide
  have blank : parse? "\r".toList = none := by decide
  have seen : parse? "\r ".toList = some (initiator "\r".toList) := by decide
  have alike := ignored _ _ same
  rw [blank, seen] at alike
  cases alike

end PlantGrammar.Line
