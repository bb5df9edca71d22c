import PlantGrammar.Rule.RuleSet

/-!
# What a line is read as

A text is cut at its line feeds, so none is left in a line. A raw line is read by what
is left of it without returns and spaces. Nothing is a blank line, and anything else is
divided at its first arrow, so none is left in a key. The parts are made of the symbols
of the raw line and of no space.
-/
namespace PlantGrammar

namespace Word

theorem lines_cons (symbol : Symbol) (text : Word) :
    lines (symbol :: text) =
      if symbol = '\n' then [] :: lines text else (lines text).modifyHead (symbol :: ·) := by
  rw [lines, List.splitOn_cons_eq_if_modifyHead]
  simp only [beq_iff_eq]
  rfl

theorem newline_not_mem_of_mem_lines {text raw : Word} (h : raw ∈ lines text) : '\n' ∉ raw := by
  induction text generalizing raw with
  | nil =>
      have single : lines [] = [[]] := rfl
      rw [single, List.mem_singleton] at h
      rw [h]
      exact List.not_mem_nil
  | cons symbol text ih =>
      rw [lines_cons] at h
      split at h
      · rcases List.mem_cons.1 h with rfl | later
        · exact List.not_mem_nil
        · exact ih later
      · rename_i other
        cases hlines : lines text with
        | nil =>
            rw [hlines] at h
            cases h
        | cons first rest =>
            rw [hlines, List.modifyHead_cons] at h
            rcases List.mem_cons.1 h with rfl | later
            · intro hmem
              rcases List.mem_cons.1 hmem with same | inside
              · exact other same.symm
              · exact ih (hlines ▸ List.mem_cons_self) inside
            · exact ih (hlines ▸ List.mem_cons_of_mem first later)

end Word

namespace Line

/-- The symbols of the words that a line consists of. -/
def symbols : Line → Word
  | rule key replacement => key ++ replacement
  | initiator word => word

/-- The line as it is written without spaces. -/
def text : Line → Word
  | rule key replacement => key ++ '-' :: '>' :: replacement
  | initiator word => word

theorem eq_of_splitArrow? {text key replacement : Word}
    (h : splitArrow? text = some (key, replacement)) :
    text = key ++ '-' :: '>' :: replacement := by
  fun_induction splitArrow? text generalizing key with
  | case1 rest => cases h; rfl
  | case2 c rest other ih =>
      obtain ⟨parts, found, same⟩ := Option.map_eq_some_iff.1 h
      cases same
      rw [ih found]
      rfl
  | case3 => cases h

/-- An arrow in the key would have come first. -/
theorem arrow_not_infix_of_splitArrow? {text key replacement : Word}
    (h : splitArrow? text = some (key, replacement)) : ¬ ['-', '>'] <:+: key := by
  fun_induction splitArrow? text generalizing key with
  | case1 rest =>
      cases h
      simp
  | case2 c rest other ih =>
      obtain ⟨parts, found, same⟩ := Option.map_eq_some_iff.1 h
      cases same
      intro inside
      rcases List.infix_cons_iff.1 inside with first | later
      · obtain ⟨rfl, more⟩ := List.cons_prefix_cons.1 first
        obtain ⟨tail, hkey⟩ := more
        have whole := eq_of_splitArrow? found
        rw [← hkey] at whole
        exact other _ rfl whole
      · exact ih found later
  | case3 => cases h

/-- The first arrow is found behind a key without one, also if the key ends in the
first half of an arrow. -/
theorem splitArrow?_append {key : Word} (h : ¬ ['-', '>'] <:+: key) (replacement : Word) :
    splitArrow? (key ++ '-' :: '>' :: replacement) = some (key, replacement) := by
  induction key with
  | nil => rfl
  | cons c key ih =>
      rw [List.infix_cons_iff, not_or] at h
      obtain ⟨begins, later⟩ := h
      have other : ∀ rest, c = '-' → key ++ '-' :: '>' :: replacement = '>' :: rest → False := by
        rintro rest rfl whole
        cases key with
        | nil => cases whole
        | cons d key =>
            obtain ⟨rfl, _⟩ := List.cons.inj whole
            exact begins ⟨key, rfl⟩
      rw [List.cons_append, splitArrow?, ih later]
      · rfl
      · exact other

theorem splitArrow?_eq_some_iff {text key replacement : Word} :
    splitArrow? text = some (key, replacement) ↔
      text = key ++ '-' :: '>' :: replacement ∧ ¬ ['-', '>'] <:+: key := by
  constructor
  · intro found
    exact ⟨eq_of_splitArrow? found, arrow_not_infix_of_splitArrow? found⟩
  · rintro ⟨rfl, free⟩
    exact splitArrow?_append free replacement

theorem splitArrow?_eq_none_iff {text : Word} :
    splitArrow? text = none ↔ ¬ ['-', '>'] <:+: text := by
  fun_induction splitArrow? text with
  | case1 rest =>
      have begins : ['-', '>'] <:+: '-' :: '>' :: rest := ⟨[], rest, rfl⟩
      exact iff_of_false (Option.some_ne_none _) (not_not_intro begins)
  | case2 c rest other ih =>
      rw [Option.map_eq_none_iff, ih, List.infix_cons_iff, not_or]
      have begins : ¬ ['-', '>'] <+: c :: rest := by
        intro first
        obtain ⟨rfl, tail, hrest⟩ := List.cons_prefix_cons.1 first
        exact other tail rfl hrest.symm
      exact (and_iff_right begins).symm
  | case3 => simp

theorem mem_of_mem_dropReturns {raw : Word} {symbol : Symbol} (h : symbol ∈ dropReturns raw) :
    symbol ∈ raw := by
  have inside : symbol ∈ raw.reverse.dropWhile (· = '\r') := List.mem_reverse.1 h
  exact List.mem_reverse.1 ((List.dropWhile_sublist _).mem inside)

theorem mem_dropSpaces {raw : Word} {symbol : Symbol} (h : symbol ∈ dropSpaces raw) :
    symbol ∈ raw ∧ symbol ≠ ' ' := by
  obtain ⟨hmem, visible⟩ := List.mem_filter.1 h
  exact ⟨hmem, of_decide_eq_true visible⟩

/-- What is left of a raw line decides between the three things that it can be. -/
theorem parse?_cases (raw : Word) :
    let visible := dropSpaces (dropReturns raw)
    (visible = [] ∧ parse? raw = none) ∨
    (∃ key replacement, splitArrow? visible = some (key, replacement) ∧
      parse? raw = some (rule key replacement)) ∨
    (visible ≠ [] ∧ splitArrow? visible = none ∧ parse? raw = some (initiator visible)) := by
  unfold parse?
  split
  · rename_i blank
    exact .inl ⟨blank, rfl⟩
  · rename_i visible
    split
    · rename_i key replacement found
      exact .inr (.inl ⟨key, replacement, found, rfl⟩)
    · rename_i arrowless
      exact .inr (.inr ⟨visible, arrowless, rfl⟩)

theorem parse?_eq_none_iff {raw : Word} :
    parse? raw = none ↔ dropSpaces (dropReturns raw) = [] := by
  rcases parse?_cases raw with ⟨blank, parsed⟩ | ⟨key, replacement, found, parsed⟩ |
    ⟨visible, _, parsed⟩
  · simp [blank, parsed]
  · simp [eq_of_splitArrow? found, parsed]
  · simp [visible, parsed]

theorem parse?_eq_rule_iff {raw key replacement : Word} :
    parse? raw = some (rule key replacement) ↔
      dropSpaces (dropReturns raw) = key ++ '-' :: '>' :: replacement ∧
        ¬ ['-', '>'] <:+: key := by
  rw [← splitArrow?_eq_some_iff]
  rcases parse?_cases raw with ⟨blank, parsed⟩ | ⟨_, _, found, parsed⟩ | ⟨_, arrowless, parsed⟩
  · rw [parsed, blank]
    exact iff_of_false nofun nofun
  · simp [found, parsed]
  · simp [arrowless, parsed]

theorem parse?_eq_initiator_iff {raw word : Word} :
    parse? raw = some (initiator word) ↔
      word = dropSpaces (dropReturns raw) ∧ word ≠ [] ∧ ¬ ['-', '>'] <:+: word := by
  rw [← splitArrow?_eq_none_iff]
  rcases parse?_cases raw with ⟨blank, parsed⟩ | ⟨_, _, found, parsed⟩ |
    ⟨visible, arrowless, parsed⟩
  · rw [parsed, blank]
    exact iff_of_false nofun fun ⟨same, nonempty, _⟩ => nonempty same
  · rw [parsed]
    refine iff_of_false nofun ?_
    rintro ⟨rfl, _, arrowless⟩
    rw [found] at arrowless
    cases arrowless
  · rw [parsed, Option.some.injEq, initiator.injEq, eq_comm]
    exact ⟨fun same => ⟨same, same ▸ visible, same ▸ arrowless⟩, And.left⟩

theorem text_of_parse? {raw : Word} {line : Line} (h : parse? raw = some line) :
    line.text = dropSpaces (dropReturns raw) := by
  cases line with
  | rule key replacement => exact (parse?_eq_rule_iff.1 h).1.symm
  | initiator word => exact (parse?_eq_initiator_iff.1 h).1

/-- Raw lines are read alike only if they are the same without returns and spaces. -/
theorem parse?_eq_parse?_iff {raw other : Word} :
    parse? raw = parse? other ↔
      dropSpaces (dropReturns raw) = dropSpaces (dropReturns other) := by
  constructor
  · intro same
    cases h : parse? raw with
    | none =>
        rw [parse?_eq_none_iff.1 h, parse?_eq_none_iff.1 (same ▸ h)]
    | some line =>
        rw [← text_of_parse? h, ← text_of_parse? (same ▸ h)]
  · intro same
    unfold parse?
    rw [same]

theorem ne_nil_of_parse? {raw word : Word} (h : parse? raw = some (initiator word)) :
    word ≠ [] := (parse?_eq_initiator_iff.1 h).2.1

theorem arrow_not_infix_of_parse? {raw key replacement : Word}
    (h : parse? raw = some (rule key replacement)) : ¬ ['-', '>'] <:+: key :=
  (parse?_eq_rule_iff.1 h).2

theorem mem_text_of_mem_symbols {line : Line} {symbol : Symbol} (h : symbol ∈ line.symbols) :
    symbol ∈ line.text := by
  cases line with
  | rule key replacement =>
      rcases List.mem_append.1 h with before | after
      · exact List.mem_append_left _ before
      · exact List.mem_append_right _ (List.mem_cons_of_mem _ (List.mem_cons_of_mem _ after))
  | initiator word => exact h

theorem mem_symbols_of_parse? {raw : Word} {line : Line} (h : parse? raw = some line)
    {symbol : Symbol} (hmem : symbol ∈ line.symbols) : symbol ∈ raw ∧ symbol ≠ ' ' := by
  have inside : symbol ∈ dropSpaces (dropReturns raw) :=
    text_of_parse? h ▸ mem_text_of_mem_symbols hmem
  obtain ⟨kept, visible⟩ := mem_dropSpaces inside
  exact ⟨mem_of_mem_dropReturns kept, visible⟩

end Line
end PlantGrammar
