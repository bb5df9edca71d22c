import PlantGrammar.Word

/-!
# Lines of a grammar and rule sets

A line is a rule `key->replacement` or an initiator, the word that a derivation
starts from. Spaces count nowhere. Carriage returns at the end of a line are
dropped, so a text may end its lines with or without them.

A rule set gives each key its alternatives in the order in which they came. Its
entries stand in the order of their keys, so that two rule sets with the same
alternatives are equal. A key may be any word; only a key of one symbol ever
matches.
-/
namespace PlantGrammar

inductive Line where
  | rule (key replacement : Word)
  | initiator (word : Word)
  deriving DecidableEq, Repr

namespace Line

/-- Without the carriage returns at its end. -/
def dropReturns (raw : Word) : Word := (raw.reverse.dropWhile (· = '\r')).reverse

/-- Without any space, wherever it stands. -/
def dropSpaces (raw : Word) : Word := raw.filter (· ≠ ' ')

/-- The parts before and after the first arrow. -/
def splitArrow? : Word → Option (Word × Word)
  | '-' :: '>' :: rest => some ([], rest)
  | c :: rest => (splitArrow? rest).map fun parts => (c :: parts.1, parts.2)
  | [] => none

/-- A blank line is no line of the grammar. -/
def parse? (raw : Word) : Option Line :=
  match dropSpaces (dropReturns raw) with
  | [] => none
  | text =>
    match splitArrow? text with
    | some (key, replacement) => some (.rule key replacement)
    | none => some (.initiator text)

end Line

structure RuleEntry where
  key : Word
  alternatives : List Word
  deriving DecidableEq, Repr

structure RuleSet where
  entries : List RuleEntry
  ordered : entries.Pairwise fun a b => a.key < b.key
  deriving DecidableEq

namespace RuleSet

theorem ext {r s : RuleSet} (h : r.entries = s.entries) : r = s := by
  cases r; cases s; cases h; rfl

def empty : RuleSet := ⟨[], List.Pairwise.nil⟩

instance : Inhabited RuleSet := ⟨empty⟩

/-- Number of keys. -/
def size (rules : RuleSet) : Nat := rules.entries.length

def keys (rules : RuleSet) : List Word := rules.entries.map RuleEntry.key

def isEmpty (rules : RuleSet) : Bool := rules.entries.isEmpty

/-- The alternatives of a key, if it is one. -/
def alternatives? (rules : RuleSet) (key : Word) : Option (List Word) :=
  (rules.entries.find? fun entry => entry.key = key).map RuleEntry.alternatives

def contains (rules : RuleSet) (key : Word) : Bool := (rules.alternatives? key).isSome

/-- Put a replacement behind the alternatives of a key, among entries in order. -/
def insert (key replacement : Word) : List RuleEntry → List RuleEntry
  | [] => [⟨key, [replacement]⟩]
  | entry :: rest =>
      if key = entry.key then ⟨key, entry.alternatives ++ [replacement]⟩ :: rest
      else if key < entry.key then ⟨key, [replacement]⟩ :: entry :: rest
      else entry :: insert key replacement rest

/-- Inserting brings in no key but the given one. -/
theorem key_of_mem_insert {key replacement : Word} {entries : List RuleEntry} {e : RuleEntry}
    (h : e ∈ insert key replacement entries) : e.key = key ∨ ∃ e' ∈ entries, e.key = e'.key := by
  induction entries with
  | nil => simp [insert] at h; simp [h]
  | cons entry rest ih => grind [insert]

theorem ordered_insert {key replacement : Word} {entries : List RuleEntry}
    (h : entries.Pairwise fun a b => a.key < b.key) :
    (insert key replacement entries).Pairwise fun a b => a.key < b.key := by
  induction entries with
  | nil => simp [insert]
  | cons entry rest ih =>
      obtain ⟨first, others⟩ := List.pairwise_cons.1 h
      unfold insert
      split
      · rename_i same
        exact List.pairwise_cons.2 ⟨fun e he => same ▸ first e he, others⟩
      · rename_i different
        split
        · rename_i before
          refine List.pairwise_cons.2 ⟨fun e he => ?_, h⟩
          rcases List.mem_cons.1 he with rfl | he
          · exact before
          · exact List.lt_trans before (first e he)
        · rename_i notBefore
          refine List.pairwise_cons.2 ⟨fun e he => ?_, ih others⟩
          rcases key_of_mem_insert he with hk | ⟨e', he', hk⟩
          · rw [hk]
            rcases List.le_iff_lt_or_eq.1 (List.not_lt.1 notBefore) with later | same
            · exact later
            · exact absurd same.symm different
          · rw [hk]
            exact first e' he'

/-- Add an alternative to a key, after those it has. -/
def add (rules : RuleSet) (key replacement : Word) : RuleSet :=
  ⟨insert key replacement rules.entries, ordered_insert rules.ordered⟩

private theorem find?_insert_of_ne {key other : Word} (h : other ≠ key) (replacement : Word)
    (entries : List RuleEntry) :
    (insert key replacement entries).find? (fun entry => entry.key = other) =
      entries.find? fun entry => entry.key = other := by
  have hne : ¬ key = other := fun same => h same.symm
  induction entries with
  | nil => simp [insert, hne]
  | cons entry rest ih =>
      unfold insert
      split
      · rename_i same
        simp [hne, ← same]
      · split
        · simp [hne]
        · simp only [List.find?_cons, ih]

private theorem find?_insert_self (key replacement : Word) {entries : List RuleEntry}
    (h : entries.Pairwise fun a b => a.key < b.key) :
    (insert key replacement entries).find? (fun entry => entry.key = key) =
      some ⟨key, ((entries.find? fun entry => entry.key = key).map
        RuleEntry.alternatives).getD [] ++ [replacement]⟩ := by
  induction entries with
  | nil => simp [insert]
  | cons entry rest ih =>
      obtain ⟨first, others⟩ := List.pairwise_cons.1 h
      unfold insert
      split
      · rename_i same
        simp [← same]
      · rename_i different
        split
        · rename_i before
          have absent : ∀ e ∈ entry :: rest, ¬ e.key = key := by
            intro e he same
            have later : key < e.key := by
              rcases List.mem_cons.1 he with rfl | he
              · exact before
              · exact List.lt_trans before (first e he)
            exact List.lt_irrefl key (same ▸ later)
          have none_found : (entry :: rest).find? (fun entry => entry.key = key) = none :=
            List.find?_eq_none.2 fun e he => by simpa using absent e he
          simp [none_found]
        · have skipped : ¬ entry.key = key := fun same => different same.symm
          simp [skipped, ih others]

@[simp] theorem alternatives?_empty (key : Word) : empty.alternatives? key = none := rfl

/-- Adding a rule changes the alternatives of its key and of no other. -/
theorem alternatives?_add (rules : RuleSet) (key replacement other : Word) :
    (rules.add key replacement).alternatives? other =
      if other = key then some ((rules.alternatives? key).getD [] ++ [replacement])
      else rules.alternatives? other := by
  split
  · rename_i same
    subst same
    simp [alternatives?, add, find?_insert_self other replacement rules.ordered]
  · rename_i different
    simp [alternatives?, add, find?_insert_of_ne different]

end RuleSet
end PlantGrammar
