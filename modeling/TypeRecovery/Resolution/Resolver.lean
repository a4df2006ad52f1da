import TypeRecovery.Resolution.Verdict

/-!
# Resolution

Every live class gets a type. The verdict on a class may need the types of other classes, which are
then resolved first; a class that needs itself on the way gets no answer to that question.
-/

namespace TypeRecovery

/-- The state of a resolution. -/
structure Resolution where
  arena : Arena
  /-- The remarks so far, in the order in which they were left. -/
  remarks : Array Remark
  deriving Repr, Inhabited

/-- A step of a resolution, which may fail. -/
abbrev ResolveM := EStateM AnalysisError Resolution

namespace ResolveM

/-- An operation on the arena. -/
def onArena {α : Type} (x : ArenaM α) : ResolveM α :=
  fun s =>
    match x s.arena with
    | .ok a arena => .ok a { s with arena }
    | .error e arena => .error e { s with arena }

/-- Answer the questions of an inquiry, those for types by `typeOf`. -/
def inquire {α : Type} (typeOf : VarId → ResolveM (Option DataType)) : Inquiry α → ResolveM α
  | .answer a => pure a
  | .failure e => throw e
  | .remark n next => do
    modify fun s => { s with remarks := s.remarks.push n }
    inquire typeOf next
  | .askType v next => do
    let t ← typeOf v
    inquire typeOf (next t)
  | .askClass v next => do
    let c ← onArena (ArenaM.classOf v)
    inquire typeOf (next c)

/-- The verdict that a class already has. -/
def settled? (record : ClassRecord) : Option DataType :=
  match record.state with
  | .resolved | .finalized => record.dataType
  | _ => none

/-- The type of a class, found if there is no verdict yet. The classes in `pending` wait for this
one; a question that would need one of them, or more than `depth` classes at a time, stays open. -/
def resolveWithin (config : Config) (depth : Nat) (pending : List ClassId) (c : ClassId) :
    ResolveM DataType := do
  let c ← onArena (ArenaM.find c)
  let constraints ← match (← get).arena.class? c with
    | some record =>
      match settled? record with
      | some t => return t
      | none => pure record.constraints
    | none => pure []
  let typeOf : VarId → ResolveM (Option DataType) := match depth with
    | 0 => fun _ => pure none
    | depth + 1 => fun v => do
      let other ← onArena (ArenaM.classOf v)
      if other ∈ c :: pending then return none
      return some (← resolveWithin config depth (c :: pending) other)
  let t ← inquire typeOf (.verdict config c (.gather constraints))
  onArena (ArenaM.setType c t)
  return t

/-- The type of a class. No more classes can wait for each other than there are. -/
def resolve (config : Config) (c : ClassId) : ResolveM DataType := do
  resolveWithin config (← get).arena.classes.size [] c

/-- Give every live class a type. -/
def resolveAll (config : Config) : ResolveM Unit := do
  (← get).arena.liveIds.forM fun c => do
    let _ ← resolve config c

end ResolveM

namespace ArenaM

/-- Run a resolution that starts without remarks; the answer comes with the remarks. -/
def resolving {α : Type} (x : ResolveM α) : ArenaM (α × List Remark) :=
  fun arena =>
    match x ⟨arena, #[]⟩ with
    | .ok a s => .ok (a, s.remarks.toList) s.arena
    | .error e s => .error e s.arena

/-- The type of a class. -/
def resolve (config : Config) (c : ClassId) : ArenaM DataType := do
  return (← resolving (ResolveM.resolve config c)).1

/-- Give every live class a type; the answer lists the remarks in the order they were left in. -/
def resolveAll (config : Config) : ArenaM (List Remark) := do
  return (← resolving (ResolveM.resolveAll config)).2

end ArenaM

end TypeRecovery
