import Mathlib.Data.List.DropRight
import PlantGrammar.Proofs.Rule.Reading

/-!
# How lines are written

A rule is written as its key, an arrow and its replacement, and an initiator as its
word. Reading is the other way round. A line can have been written with spaces
anywhere and with returns behind it, so several raw lines are read as one line. What is
left of them without these is the one form that the line has. An arrow in a key, or in
an initiator, would be taken for the arrow of a rule, and a line without symbols for a
blank one. Any other line can be written and is read again.
-/
namespace PlantGrammar.Line

/-- A key and a replacement can be told from the text of their rule. -/
theorem rule_text_inj {key other replacement replacement' : Word}
    (free : ¬ ['-', '>'] <:+: key) (free' : ¬ ['-', '>'] <:+: other)
    (same : key ++ '-' :: '>' :: replacement = other ++ '-' :: '>' :: replacement') :
    key = other ∧ replacement = replacement' := by
  have found := splitArrow?_append free replacement
  rw [same, splitArrow?_append free' replacement'] at found
  cases found
  exact ⟨rfl, rfl⟩

theorem dropReturns_eq_self_iff {raw : Word} :
    dropReturns raw = raw ↔ raw.getLast? ≠ some '\r' := by
  refine List.rdropWhile_eq_self_iff.trans ?_
  cases raw with
  | nil => simp
  | cons c rest =>
      rw [List.getLast?_eq_some_getLast (List.cons_ne_nil c rest)]
      simp

/-- The number of returns at the end of a raw line, behind every other symbol. -/
def finalReturns (raw : Word) : Nat := (raw.rtakeWhile (· = '\r')).length

theorem dropReturns_append_finalReturns (raw : Word) :
    dropReturns raw ++ List.replicate (finalReturns raw) '\r' = raw := by
  have returns : raw.rtakeWhile (· = '\r') = List.replicate (finalReturns raw) '\r' := by
    refine List.eq_replicate_iff.2 ⟨rfl, fun symbol hmem => ?_⟩
    simpa using List.mem_rtakeWhile_imp hmem
  rw [← returns]
  exact List.rdropWhile_append_rtakeWhile ..

theorem getLast?_dropReturns (raw : Word) : (dropReturns raw).getLast? ≠ some '\r' :=
  dropReturns_eq_self_iff.1 (List.rdropWhile_idempotent ..)

/-- A return at the end of a raw line is no space, so it is there without the spaces. -/
theorem getLast?_dropSpaces_of_return {raw : Word} (h : raw.getLast? = some '\r') :
    (dropSpaces raw).getLast? = some '\r' := by
  obtain ⟨front, rfl⟩ := List.getLast?_eq_some_iff.1 h
  have ends : dropSpaces (front ++ ['\r']) = dropSpaces front ++ ['\r'] := by simp [dropSpaces]
  rw [ends, List.getLast?_concat]

/-- A line that shows no return at its end has none to lose. -/
theorem dropReturns_of_dropSpaces {raw : Word} (h : (dropSpaces raw).getLast? ≠ some '\r') :
    dropReturns raw = raw :=
  dropReturns_eq_self_iff.2 fun last => h (getLast?_dropSpaces_of_return last)

/-- A raw line is read by what is left of it without the returns at its end and without
spaces. It is blank if nothing is left, a rule if there is an arrow, the first of which
ends the key, and an initiator otherwise. A rule whose key has no arrow, and a word
without one, are read as they were meant wherever spaces were put between the symbols,
as long as they do not end in a return of their own. -/
theorem lines_are_read_as_written (raw : Word) :
    let visible := dropSpaces (dropReturns raw)
    ((∃ n, raw = dropReturns raw ++ List.replicate n '\r') ∧
      (dropReturns raw).getLast? ≠ some '\r') ∧
    (parse? raw = none ↔ visible = []) ∧
    (∀ key replacement, parse? raw = some (rule key replacement) ↔
      visible = key ++ '-' :: '>' :: replacement ∧ ¬ ['-', '>'] <:+: key) ∧
    (∀ key replacement other replacement',
      ¬ ['-', '>'] <:+: key → ¬ ['-', '>'] <:+: other →
      key ++ '-' :: '>' :: replacement = other ++ '-' :: '>' :: replacement' →
      key = other ∧ replacement = replacement') ∧
    (∀ word, parse? raw = some (initiator word) ↔
      word = visible ∧ visible ≠ [] ∧ ¬ ['-', '>'] <:+: visible) ∧
    (∀ key replacement, ¬ ['-', '>'] <:+: key → replacement.getLast? ≠ some '\r' →
      dropSpaces raw = key ++ '-' :: '>' :: replacement →
      parse? raw = some (rule key replacement)) ∧
    (∀ word, word ≠ [] → ¬ ['-', '>'] <:+: word → word.getLast? ≠ some '\r' →
      dropSpaces raw = word → parse? raw = some (initiator word)) := by
  intro visible
  have returns : ∃ n, raw = dropReturns raw ++ List.replicate n '\r' :=
    ⟨finalReturns raw, (dropReturns_append_finalReturns raw).symm⟩
  refine ⟨⟨returns, getLast?_dropReturns raw⟩, parse?_eq_none_iff,
    fun _ _ => parse?_eq_rule_iff, ?_, fun word => ?_, ?_, ?_⟩
  · intro key replacement other replacement' free free' same
    exact rule_text_inj free free' same
  · rw [parse?_eq_initiator_iff]
    exact and_congr_right fun same => by rw [same]
  · intro key replacement free ends written
    have last : (dropSpaces raw).getLast? ≠ some '\r' := by
      rw [written]
      cases replacement with
      | nil => simp
      | cons c rest => simpa [List.getLast?_cons_cons] using ends
    rw [parse?_eq_rule_iff, dropReturns_of_dropSpaces last]
    exact ⟨written, free⟩
  · rintro word visible free ends rfl
    rw [parse?_eq_initiator_iff, dropReturns_of_dropSpaces ends]
    exact ⟨rfl, visible, free⟩

/-- The key begins with the second half of an arrow and ends in the first half of one,
the replacement holds more arrows, and spaces stand inside the one that counts. The
initiator has both halves, but with a symbol between them. -/
theorem lines_are_read_as_written_around_arrows :
    ¬ ['-', '>'] <:+: ">A-".toList ∧ "\r->->".toList.getLast? ≠ some '\r' ∧
      parse? " >A- - >\r->-> ".toList = some (rule ">A-".toList "\r->->".toList) ∧
      ¬ ['-', '>'] <:+: "\r-B>".toList ∧ "\r-B>".toList.getLast? ≠ some '\r' ∧
      parse? " \r- B > ".toList = some (initiator "\r-B>".toList) := by
  obtain ⟨_, _, _, _, _, rules, _⟩ := lines_are_read_as_written " >A- - >\r->-> ".toList
  obtain ⟨_, _, _, _, _, _, initiators⟩ := lines_are_read_as_written " \r- B > ".toList
  have key_free : ¬ ['-', '>'] <:+: ">A-".toList := by decide
  have rule_ends : "\r->->".toList.getLast? ≠ some '\r' := by decide
  have word_free : ¬ ['-', '>'] <:+: "\r-B>".toList := by decide
  have word_ends : "\r-B>".toList.getLast? ≠ some '\r' := by decide
  exact ⟨key_free, rule_ends, rules _ _ key_free rule_ends (by decide),
    word_free, word_ends, initiators _ (by decide) word_free word_ends (by decide)⟩

end PlantGrammar.Line
