import PlantGrammar.Engine.Request
import PlantGrammar.Proofs.Engine.Deriving

/-!
# Generations that are kept and generations that are derived again

An engine derives each generation once, from the current word, when a request
first needs it. Plain rewriting expands the initiator again and again and keeps
nothing. Both see the same words and read the same tape, and the order of the
requests leaves no trace: only the greatest number asked for counts.
-/
namespace PlantGrammar

/-- The generation that a request asks for, if it asks for one and nothing else. -/
def Request.asked? {α : Type} : Request α → Option Nat
  | generation n => some n
  | trace n _ => some n
  | grow n => some n
  | _ => none

/-- The first part of a history that only asks for generations is one as well. -/
theorem Request.exists_asked_of_append {α : Type} {before after : List (Request α)} {ns : List Nat}
    (asked : (before ++ after).map asked? = ns.map some) :
    ∃ ms : List Nat, before.map asked? = ms.map some := by
  rw [List.map_append, eq_comm, List.map_eq_append_iff] at asked
  obtain ⟨ms, _, _, first, _⟩ := asked
  exact ⟨ms, first.symm⟩

namespace Engine

variable {α : Type}

/-- Expand a word so many times in succession, as far as there is no fault. No
generation is kept. -/
def expandTimes (engine : Engine α) (word : Word) : Nat → Reply α (Except Fault Word)
  | 0 => ⟨engine, [], .ok word⟩
  | count + 1 =>
      let first := engine.expand word
      match first.answer with
      | .ok word => first.engine.expandTimes word count
      | .error fault => ⟨first.engine, [], .error fault⟩

/-- Rewriting a copy in succession takes the course of the derivation: the same
words of the tape are read, and the same word comes out. -/
theorem expandTimes_deriveMany {engine copy : Engine α} (h : engine.rules.Productive)
    (rules : copy.rules = engine.rules) (tape : copy.tape = engine.tape) (count : Nat) :
    (copy.expandTimes engine.generations.current count).answer =
        .ok (engine.deriveMany count).1.generations.current ∧
      (copy.expandTimes engine.generations.current count).engine.tape =
        (engine.deriveMany count).1.tape := by
  induction count generalizing engine copy with
  | zero => exact ⟨rfl, tape⟩
  | succ count ih =>
      obtain ⟨word, later, expanded, derived⟩ := derive_of_productive h
      have first : copy.expand engine.generations.current =
          ⟨{ copy with tape := later }, [], .ok word⟩ := by
        simp only [expand, rules, tape, expanded]
      rw [deriveMany_succ h, derived, expandTimes, first]
      exact @ih { engine with generations := engine.generations.addPass word, tape := later }
        { copy with tape := later } h rules rfl

/-- The empty word stays empty and reads nothing. -/
theorem expandTimes_nil (engine : Engine α) (count : Nat) :
    engine.expandTimes [] count = ⟨engine, [], .ok []⟩ := by
  induction count with
  | zero => rfl
  | succ count ih =>
      have first : engine.expand [] = ⟨engine, [], .ok []⟩ := rfl
      rw [expandTimes, first]
      exact ih

/-- How many generations the requests need in all. -/
def needed (ns : List Nat) : Nat := ns.foldr (fun n most => max (n + 1) most) 0

theorem needed_le {ns : List Nat} {top : Nat} (bound : ∀ n ∈ ns, n ≤ top) :
    needed ns ≤ top + 1 := by
  induction ns with
  | nil => exact Nat.zero_le _
  | cons n ns ih =>
      have hn : n ≤ top := bound n List.mem_cons_self
      have hrest : needed ns ≤ top + 1 := ih fun m hm => bound m (List.mem_cons_of_mem n hm)
      simp only [needed, List.foldr_cons] at hrest ⊢
      omega

theorem lt_needed {ns : List Nat} {n : Nat} (hmem : n ∈ ns) : n < needed ns := by
  induction ns with
  | nil => cases hmem
  | cons m ns ih =>
      simp only [needed, List.foldr_cons] at ih ⊢
      rcases List.mem_cons.1 hmem with rfl | later
      · omega
      · have hrest := ih later
        omega

theorem needed_of_max {ns : List Nat} {top : Nat} (largest : ns.max? = some top) :
    needed ns = top + 1 := by
  obtain ⟨hmem, bound⟩ := List.max?_eq_some_iff.1 largest
  apply Nat.le_antisymm
  · exact needed_le bound
  · exact lt_needed hmem

section Histories

variable [Scalar α] [Trigonometry α]

/-- Drawing a generation changes an engine just as asking for it does, also when
the walk ends at a fault. -/
theorem engine_serve {request : Request α} {n : Nat} (asked : request.asked? = some n)
    (engine : Engine α) : (engine.serve request).engine = (engine.generation n).engine := by
  cases request with
  | generation m => cases asked; rfl
  | trace m skeleton => cases asked; exact engine_trace engine n skeleton
  | grow m => cases asked; exact engine_grow engine n
  | _ => cases asked

/-- A history that asks for generations derives what is missing, once. -/
theorem serveAll_asked {history : List (Request α)} {ns : List Nat}
    (asked : history.map Request.asked? = ns.map some) {engine : Engine α}
    (h : engine.rules.Productive) :
    (engine.serveAll history).1 =
      (engine.deriveMany (needed ns - engine.generations.size)).1 := by
  induction history generalizing ns engine with
  | nil =>
      cases ns with
      | nil =>
          have nothing : needed [] - engine.generations.size = 0 := Nat.zero_sub _
          rw [nothing]
          rfl
      | cons n ns => simp at asked
  | cons request rest ih =>
      cases ns with
      | nil => simp at asked
      | cons n ns =>
          simp only [List.map_cons, List.cons.injEq] at asked
          have served := (engine_serve asked.1 engine).trans (engine_generation engine n)
          have hnext : (engine.serve request).engine.rules.Productive := by
            rwa [served, rules_deriveMany]
          change ((engine.serve request).engine.serveAll rest).1 = _
          rw [ih asked.2 hnext, served, size_deriveMany h, ← deriveMany_add h]
          congr 2
          simp only [needed, List.foldr_cons]
          omega

theorem answer_after_asked {history : List (Request α)} {ns : List Nat}
    (asked : history.map Request.asked? = ns.map some) {engine : Engine α}
    (h : engine.rules.Productive) (n : Nat) :
    ((engine.serveAll history).1.generation n).answer = (engine.generation n).answer := by
  rw [serveAll_asked asked h, answer_generation_deriveMany h]

end Histories

/-- Without an initiator every generation is empty, and the first one counts as a pass. -/
theorem generation_of_empty {engine : Engine α} (h : engine.rules.Productive)
    (kept : engine.generations = Generations.empty) (n : Nat) :
    (engine.generation n).answer = (engine.expandTimes [] n).answer ∧
      (engine.generation n).engine.tape = (engine.expandTimes [] n).engine.tape ∧
      (engine.generation n).engine.generations.passes = n + 1 := by
  have missing : engine.generations.size ≤ n := by
    rw [kept]
    exact Nat.zero_le n
  have count : n + 1 - engine.generations.size = n + 1 := by rw [kept]; rfl
  have current : engine.generations.current = [] := by rw [kept]; rfl
  have same := expandTimes_deriveMany h rfl rfl (n + 1)
  rw [current, expandTimes_nil] at same
  rw [expandTimes_nil, answer_generation_of_size_le h missing, engine_generation, count,
    passes_deriveMany h, kept]
  exact ⟨same.1.symm, same.2.symm, Nat.zero_add (n + 1)⟩

/-- With a single initiator, generation `n` is the initiator after `n` passes. -/
theorem generation_of_single {engine : Engine α} (h : engine.rules.Productive) {word : Word}
    (kept : engine.generations = Generations.ofInitiators [word]) (n : Nat) :
    (engine.generation n).answer = (engine.expandTimes word n).answer ∧
      (engine.generation n).engine.tape = (engine.expandTimes word n).engine.tape ∧
      (engine.generation n).engine.generations.passes = n := by
  have count : n + 1 - engine.generations.size = n := by rw [kept]; rfl
  have current : engine.generations.current = word := by rw [kept]; rfl
  have same := expandTimes_deriveMany h rfl rfl n
  rw [current] at same
  rw [same.1, same.2, engine_generation, count, passes_deriveMany h]
  refine ⟨?_, rfl, by rw [kept]; exact Nat.zero_add n⟩
  cases n with
  | zero => rw [answer_generation h, engine_generation, count, deriveMany, kept]; rfl
  | succ n =>
      have missing : engine.generations.size ≤ n + 1 := by
        rw [kept]
        exact Nat.succ_le_succ (Nat.zero_le n)
      rw [answer_generation_of_size_le h missing, count]

/-- With one initiator at most, generation `n` of a loaded grammar is what plain
rewriting makes of it in `n` passes, with the same reading of the tape. -/
theorem generation_load (engine : Engine α) {lines : List Word}
    (single : (Line.initiators lines).length ≤ 1) (n : Nat) :
    let loaded := (engine.load lines).engine
    let rewritten := loaded.expandTimes (Line.firstInitiator lines) n
    (loaded.generation n).answer = rewritten.answer ∧
      (loaded.generation n).engine.tape = rewritten.engine.tape ∧
      (loaded.generation n).engine.generations.passes =
        if Line.initiators lines = [] then n + 1 else n := by
  intro loaded rewritten
  have hp : loaded.rules.Productive := productive_load engine lines
  have kept : loaded.generations = Generations.ofInitiators (Line.initiators lines) :=
    generations_load engine lines
  match hi : Line.initiators lines with
  | [] =>
      have start : Line.firstInitiator lines = [] := by rw [Line.firstInitiator, hi]; rfl
      rw [if_pos rfl]
      simp only [rewritten, start]
      exact generation_of_empty hp (by rw [kept, hi]; rfl) n
  | [word] =>
      have start : Line.firstInitiator lines = word := by rw [Line.firstInitiator, hi]; rfl
      rw [if_neg (List.cons_ne_nil word [])]
      simp only [rewritten, start]
      exact generation_of_single hp (by rw [kept, hi]) n
  | _ :: _ :: _ =>
      rw [hi] at single
      simp at single

/-- Requests for generations of a loaded grammar, in any order and with repeats:
each answer is what plain rewriting gives, and the engine is left as by the one
request for the greatest number. -/
theorem requests_in_any_order [Scalar α] [Trigonometry α] (engine : Engine α)
    {lines : List Word} (single : (Line.initiators lines).length ≤ 1)
    {history : List (Request α)} {ns : List Nat}
    (asked : history.map Request.asked? = ns.map some) {top : Nat} (largest : ns.max? = some top) :
    let loaded := (engine.load lines).engine
    (∀ before n after, history = before ++ .generation n :: after →
      ∃ word, (loaded.expandTimes (Line.firstInitiator lines) n).answer = .ok word ∧
        ((loaded.serveAll before).1.serve (.generation n)).answer = .word (.ok word)) ∧
    (loaded.serveAll history).1 = (loaded.generation top).engine ∧
    (loaded.serveAll history).1.tape =
      (loaded.expandTimes (Line.firstInitiator lines) top).engine.tape ∧
    (loaded.serveAll history).1.generations.passes =
      if Line.initiators lines = [] then top + 1 else top := by
  intro loaded
  have hp : loaded.rules.Productive := productive_load engine lines
  have final : (loaded.serveAll history).1 = (loaded.generation top).engine := by
    rw [serveAll_asked asked hp, needed_of_max largest, ← engine_generation]
  refine ⟨?_, final, ?_, ?_⟩
  · intro before n after split
    obtain ⟨ms, first⟩ := Request.exists_asked_of_append (split ▸ asked)
    have plain := (generation_load engine single n).1
    refine ⟨(loaded.generation n).engine.generations.wordOr n, ?_, ?_⟩
    · rw [← plain, answer_generation hp]
    · change Answer.word ((loaded.serveAll before).1.generation n).answer = _
      rw [answer_after_asked first hp, answer_generation hp]
  · rw [final]
    exact (generation_load engine single top).2.1
  · rw [final]
    exact (generation_load engine single top).2.2

/-- Drawings that end at a fault are part of a history like any other request. -/
theorem requests_with_unmatched_brackets :
    let lines : List Word := ["F".toList, "F -> F]".toList]
    let fresh : Engine Float32 := start Settings.standard (RandomTape.start fun _ => 0)
    let loaded := (fresh.load lines).engine
    let history : List (Request Float32) := [.trace 2 Skeleton.empty, .generation 1, .grow 0]
    (Line.initiators lines).length ≤ 1 ∧ history.map Request.asked? = [2, 1, 0].map some ∧
      [2, 1, 0].max? = some 2 ∧ (loaded.serveAll history).1 = (loaded.generation 2).engine ∧
      (loaded.serveAll history).1.generations.passes = 2 := by
  have single : (Line.initiators ["F".toList, "F -> F]".toList]).length ≤ 1 := by decide
  have asked : [Request.trace 2 (Skeleton.empty : Skeleton Float32), .generation 1, .grow 0].map
      Request.asked? = [2, 1, 0].map some := rfl
  obtain ⟨_, final, _, passes⟩ := requests_in_any_order
    (start Settings.standard (RandomTape.start fun _ => 0)) single asked rfl
  rw [if_neg (by decide)] at passes
  exact ⟨single, asked, rfl, final, passes⟩

end Engine
end PlantGrammar
