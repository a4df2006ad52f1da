import TypeRecovery.Proofs.Stages

/-!
# Pointees and values are never mixed

The main statement is `pointees_separated`. What a trace leaves in the arena is separated, before
and after the closure under its evidence: no class holds a pointee and a value. A type can therefore
not contain itself but through a pointer, and no listing remarks on a recursive layout.
-/

namespace TypeRecovery

namespace Analysis

/-- The remarks of a listing are those that it was made with. -/
lemma mem_remarks_ofArena {function : String} {a : Arena} {remarks : List Remark} {n : Remark} :
    n ∈ (Listing.ofArena function a remarks).remarks ↔ n ∈ remarks := by
  simp only [Listing.ofArena, Remark.sort, Ascending.mem_dropRepeated, Ascending.mem_sort]

/-- No listing remarks on recursion. -/
lemma run_calm {memory : MemoryMap} {config : Config} {function : String} {t : Trace}
    {start b : Arena} {l : Listing} (ran : run memory config function t start = .ok l b) :
    ∀ n ∈ l.remarks, n.isRecursion = false := by
  obtain ⟨_, _, _, _, _, _, lists, rfl⟩ := lists_of_run ran
  intro n mem
  exact (lists.notes n (mem_remarks_ofArena.1 mem)).calm

/-- What is collected from a trace keeps pointees and values apart, and so does its closure, which
always succeeds. No listing remarks on a recursive layout. -/
theorem pointees_separated (memory : MemoryMap) (t : Trace) :
    (∀ s a, ArenaM.collect memory t .empty = .ok s a →
      a.Separated ∧ ∃ k b, ArenaM.close a = .ok k b ∧ b.Separated) ∧
    ∀ config function start l b, run memory config function t start = .ok l b →
      ∀ c offset, Remark.recursiveLayout c offset ∉ l.remarks := by
  constructor
  · intro s a collected
    obtain ⟨so, rfl⟩ := ArenaM.collect_sorted collected
    obtain ⟨log, sorted⟩ := so.arena
    obtain ⟨k, b, closed, sorted'⟩ := sorted.close so.unjudged.unfrozen
    exact ⟨sorted.separated, k, b, closed, sorted'.separated⟩
  · intro config function start l b ran c offset mem
    cases run_calm ran _ mem

/-- Whether a step succeeds. -/
def succeeded {ε σ α : Type} : EStateM.Result ε σ α → Bool
  | .ok _ _ => true
  | .error _ _ => false

/-- A step that succeeds has an answer. -/
lemma exists_of_succeeded {ε σ α : Type} {result : EStateM.Result ε σ α}
    (success : succeeded result = true) : ∃ r s, result = .ok r s := by
  cases result with
  | ok r s => exact ⟨r, s, rfl⟩
  | error e s => cases success

/-- A step along a linked list: `p` is replaced with what is found behind it. -/
def listStep : Trace :=
  ⟨[⟨0, 0x1000, .load (.storage "p") 8 8, some "p"⟩]⟩

/-- Two fields of a structure, one of which is passed to a function. -/
def fieldCall : Trace :=
  ⟨[⟨0, 0x1000, .load (.storage "p") 8 8, none⟩, ⟨1, 0x1004, .load (.storage "p") 0 4, none⟩,
    ⟨2, 0x1008, .call (.storage "f") [.result 0] true, none⟩]⟩

/-- A pointer to a list and what it points into stay apart, and a structure has no recursive
layout. -/
theorem pointees_separated_listStep :
    (∃ s a, ArenaM.collect .empty listStep .empty = .ok s a ∧ a.Separated ∧
      ∃ k b, ArenaM.close a = .ok k b ∧ b.Separated) ∧
    ∃ l b, run .empty .lp64 "f" fieldCall .empty = .ok l b ∧
      ∀ c offset, Remark.recursiveLayout c offset ∉ l.remarks := by
  constructor
  · have success : succeeded (ArenaM.collect .empty listStep .empty) = true := by decide +kernel
    obtain ⟨s, a, collected⟩ := exists_of_succeeded success
    exact ⟨s, a, collected, (pointees_separated .empty listStep).1 s a collected⟩
  · have success : succeeded (run .empty .lp64 "f" fieldCall .empty) = true := by decide +kernel
    obtain ⟨l, b, ran⟩ := exists_of_succeeded success
    exact ⟨l, b, ran, (pointees_separated .empty fieldCall).2 .lp64 "f" .empty l b ran⟩

end Analysis

end TypeRecovery
