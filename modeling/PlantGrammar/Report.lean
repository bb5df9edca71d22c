import PlantGrammar.Word

/-!
# Faults and events

Two things can go wrong while a grammar is derived and drawn, and each has one
wording.

An engine returns the events of each call in order, as a report about its work.
An event has a level, a message and named details.
-/
namespace PlantGrammar

inductive Fault where
  /-- A closing bracket at this position of the word has no pose to return to. -/
  | unmatchedBracket (position : Nat)
  /-- This symbol has a rule that lists no alternative. -/
  | noAlternative (key : Word)
  deriving DecidableEq, Repr

/-- The wording that is shown to the person who wrote the grammar. -/
def Fault.message : Fault → String
  | .unmatchedBracket position =>
      "stack underflow: `]` at index " ++ toString position ++ " has no matching `[`"
  | .noAlternative key =>
      "production for " ++ String.ofList (Quoted.encode key) ++ " has no alternatives"

inductive Event where
  /-- A blank grammar line was passed over. The line is kept as it was given. -/
  | skippedLine (line : Word)
  /-- A grammar was loaded: its number of keys, and its first generation if it has one. -/
  | loaded (keys : Nat) (initiator : Word)
  /-- Generations `first` to `last` were derived, the last one of this size in bytes. -/
  | extended (first last size : Nat)
  /-- A word was read to its end. -/
  | walked (symbols segments markers depth : Nat)
  deriving DecidableEq, Repr

namespace Event

inductive Level where
  | debug
  | trace
  deriving DecidableEq, Repr

inductive Detail where
  | count (n : Nat)
  | text (w : Word)
  deriving DecidableEq, Repr

def level : Event → Level
  | skippedLine _ => .trace
  | _ => .debug

def message : Event → String
  | skippedLine _ => "ignoring blank grammar line"
  | loaded _ _ => "loaded grammar"
  | extended _ _ _ => "extended derivation cache"
  | walked _ _ _ _ => "interpreted derivation"

/-- The details of an event under their names. -/
def details : Event → List (String × Detail)
  | skippedLine line => [("line", .text line)]
  | loaded keys initiator => [("rules", .count keys), ("axiom", .text initiator)]
  | extended first last size => [("from", .count first), ("to", .count last), ("len", .count size)]
  | walked symbols segments markers depth =>
      [("symbols", .count symbols), ("branches", .count segments), ("markers", .count markers),
        ("stack_depth", .count depth)]

end Event
end PlantGrammar
