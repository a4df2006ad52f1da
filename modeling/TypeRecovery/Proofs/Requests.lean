import TypeRecovery.MemoryMap
import TypeRecovery.Proofs.Arena.Kinds
import TypeRecovery.Trace.Operation

/-!
# Requests for variables

An operation requests a variable for each of its uses: for the operands that it takes as values, for
the base of its access, for its own result and for its destination, in this order
(`Operation.requests`). A shared use is granted once, any other use each time (`UseSite.grant`).
-/

namespace TypeRecovery

/-! ## Uses -/

namespace UseSite

/-- Whether one variable stands for all uses: of a name, of a fixed address, of a segment. -/
def isShared : UseSite → Bool
  | .storage _ | .address _ | .segment _ => true
  | _ => false

/-- The position and the value of a literal. -/
def literal? : UseSite → Option (Nat × Int64)
  | .literal position value => some (position, value)
  | _ => none

/-- The position of an expression. -/
def expression? : UseSite → Option Nat
  | .expression position _ => some position
  | _ => none

/-- No shared use is that of a literal. -/
lemma literal?_of_isShared (site : UseSite) (shared : site.isShared = true) :
    site.literal? = none := by
  cases site <;> first | rfl | cases shared

/-- No shared use is that of an expression. -/
lemma expression?_of_isShared (site : UseSite) (shared : site.isShared = true) :
    site.expression? = none := by
  cases site <;> first | rfl | cases shared

/-- The uses after one more was requested. -/
def grant (uses : List UseSite) (site : UseSite) : List UseSite :=
  if site.isShared ∧ site ∈ uses then uses else uses ++ [site]

/-- A use is granted if it was before or is the one that is requested. -/
lemma mem_grant {uses : List UseSite} {site other : UseSite} :
    other ∈ grant uses site ↔ other ∈ uses ∨ other = site := by
  rw [grant]
  split
  · rename_i there
    constructor
    · exact .inl
    · rintro (mem | rfl)
      · exact mem
      · exact there.2
  · rw [List.mem_append, List.mem_singleton]

/-- A use is granted if it was before or is one of those that are requested. -/
lemma mem_foldl_grant {uses sites : List UseSite} {other : UseSite} :
    other ∈ sites.foldl grant uses ↔ other ∈ uses ∨ other ∈ sites := by
  induction sites generalizing uses with
  | nil => simp
  | cons site sites ih => rw [List.foldl_cons, ih, mem_grant, List.mem_cons, or_assoc]

/-- Shared uses are granted once. -/
lemma nodup_foldl_grant {uses sites : List UseSite} (once : (uses.filter isShared).Nodup) :
    ((sites.foldl grant uses).filter isShared).Nodup := by
  induction sites generalizing uses with
  | nil => exact once
  | cons site sites ih =>
    refine ih ?_
    rw [grant]
    split
    · exact once
    · rename_i new
      rw [List.filter_append]
      cases shared : site.isShared with
      | false => simpa [shared] using once
      | true =>
        have absent : site ∉ uses := fun mem => new ⟨shared, mem⟩
        have apart : ∀ other ∈ uses, other ≠ site :=
          fun other mem => ne_of_mem_of_not_mem mem absent
        simpa [shared, List.nodup_append, once] using fun other mem _ => apart other mem

/-- Uses that are not shared are granted each time. -/
lemma filterMap_foldl_grant {β : Type} {f : UseSite → Option β}
    (own : ∀ site, site.isShared = true → f site = none) (uses sites : List UseSite) :
    (sites.foldl grant uses).filterMap f = uses.filterMap f ++ sites.filterMap f := by
  induction sites generalizing uses with
  | nil => simp
  | cons site sites ih =>
    rw [List.foldl_cons, ih, List.filterMap_cons]
    have granted : (grant uses site).filterMap f = uses.filterMap f ++ (f site).toList := by
      rw [grant]
      split
      · rename_i there
        simp [own site there.1]
      · cases found : f site <;> simp [found]
    rw [granted]
    cases f site <;> simp

end UseSite

/-! ## Requests -/

namespace Operand

/-- The value of a literal. -/
def literal? : Operand → Option Int64
  | .literal value _ => some value
  | _ => none

/-- The uses that an operand is, as a value. Results have their variables already. -/
def requests (position : Nat) : Operand → List UseSite
  | .storage name => [.storage name]
  | .literal value _ => [.literal position value]
  | .address place => [.address place]
  | .result _ => []

/-- The uses that the base of an access is. A fixed address is used through its segment. -/
def baseRequests (memory : MemoryMap) (position : Nat) (offset : Int64) : Operand → List UseSite
  | .address place => [.segment (memory.locate (place + offset.toUInt64)).segment]
  | base => base.requests position

end Operand

namespace Action

/-- The operands that are taken as values, which the base of an access is not. -/
def values : Action → List Operand
  | .literal .. => []
  | .copy source => [source]
  | .load .. => []
  | .store _ _ _ value => [value]
  | .index _ subscript _ _ _ => [subscript]
  | .advance _ operand _ _ => [operand]
  | .compare _ lhs rhs => [lhs, rhs]
  | .bitwise _ lhs rhs _ => [lhs, rhs]
  | .call target args _ => target :: args

/-- The base of an access, and the offset from it. -/
def base? : Action → Option (Operand × Int64)
  | .load base offset _ => some (base, offset)
  | .store base offset _ _ => some (base, offset)
  | .index base _ offset _ _ => some (base, offset)
  | _ => none

/-- Whether the result is an expression: neither a literal nor a store has one. -/
def isExpression : Action → Bool
  | .literal .. | .store .. => false
  | _ => true

/-- The use that the result is. -/
def result? (position : Nat) (a : Action) : Option UseSite :=
  match a with
  | .literal value _ => some (.literal position value)
  | .store .. => none
  | a => some (.expression position a.text)

/-- An operand that is read is a value or a base. -/
lemma reads_perm (a : Action) : a.reads.Perm (a.values ++ a.base?.toList.map Prod.fst) := by
  cases a with
  | store base offset width value => exact .swap value base []
  | index base subscript offset stride width => exact .swap subscript base []
  | call target args resultUsed => exact .of_eq (List.append_nil _).symm
  | _ => exact .refl _

end Action

namespace Operation

/-- The uses that an operation requests variables for, in order. -/
def requests (memory : MemoryMap) (op : Operation) : List UseSite :=
  op.action.values.flatMap (Operand.requests op.position) ++
    op.action.base?.toList.flatMap
      (fun access => access.1.baseRequests memory op.position access.2) ++
    (op.action.result? op.position).toList ++
    if op.action.hasResult then (op.destination.map UseSite.storage).toList else []

/-- The literals of an operation, which are its result or are read. -/
def literals (op : Operation) : List (Nat × Int64) :=
  match op.action with
  | .literal value _ => [(op.position, value)]
  | a => (a.reads.filterMap Operand.literal?).map (op.position, ·)

end Operation

/-! ## What is requested -/

section
variable {memory : MemoryMap} {op : Operation}

namespace Action

/-- What is read is a value or the base of an access. -/
lemma mem_reads {a : Action} {operand : Operand} :
    operand ∈ a.reads ↔ operand ∈ a.values ∨ ∃ offset, a.base? = some (operand, offset) := by
  rw [a.reads_perm.mem_iff, List.mem_append]
  simp

end Action

namespace Operation

/-- The result of an operation is no shared use. -/
lemma result?_ne_of_isShared {site : UseSite} (shared : site.isShared = true) :
    op.action.result? op.position ≠ some site := by
  intro made
  cases act : op.action <;> rw [act] at made <;> cases made <;> cases shared

/-- A shared use is a value, a base or a destination. -/
lemma mem_requests {site : UseSite} (shared : site.isShared = true) :
    site ∈ op.requests memory ↔
      (∃ operand ∈ op.action.values, site ∈ operand.requests op.position) ∨
      (∃ base offset, op.action.base? = some (base, offset) ∧
        site ∈ base.baseRequests memory op.position offset) ∨
      op.action.hasResult = true ∧ ∃ name, op.destination = some name ∧ .storage name = site := by
  rw [requests]
  cases op.action.hasResult <;> simp [result?_ne_of_isShared shared]

/-- A name of storage is requested if it is read or receives the result. -/
lemma storage_mem_requests {name : String}
    (received : op.destination = some name → op.action.hasResult = true) :
    .storage name ∈ op.requests memory ↔
      .storage name ∈ op.action.reads ∨ op.destination = some name := by
  have value : ∀ operand : Operand,
      .storage name ∈ operand.requests op.position ↔ operand = .storage name := by
    intro operand
    cases operand <;> simp [Operand.requests, eq_comm]
  have base : ∀ (base : Operand) offset,
      .storage name ∈ base.baseRequests memory op.position offset ↔ base = .storage name := by
    intro base offset
    cases base <;> simp [Operand.baseRequests, Operand.requests, eq_comm]
  rw [mem_requests rfl, Action.mem_reads]
  simp only [value, base, UseSite.storage.injEq]
  grind

/-- A fixed address is requested if it is taken as a value. -/
lemma address_mem_requests {place : UInt64} :
    .address place ∈ op.requests memory ↔ .address place ∈ op.action.values := by
  have value : ∀ operand : Operand,
      .address place ∈ operand.requests op.position ↔ operand = .address place := by
    intro operand
    cases operand <;> simp [Operand.requests, eq_comm]
  have base : ∀ (base : Operand) offset,
      .address place ∉ base.baseRequests memory op.position offset := by
    intro base offset
    cases base <;> simp [Operand.baseRequests, Operand.requests]
  rw [mem_requests rfl]
  simp [value, base]

/-- A segment is requested if an access goes through a fixed address in it. -/
lemma segment_mem_requests {name : String} :
    .segment name ∈ op.requests memory ↔
      ∃ place offset, op.action.base? = some (.address place, offset) ∧
        (memory.locate (place + offset.toUInt64)).segment = name := by
  have value : ∀ operand : Operand, .segment name ∉ operand.requests op.position := by
    intro operand
    cases operand <;> simp [Operand.requests]
  have base : ∀ (base : Operand) offset,
      .segment name ∈ base.baseRequests memory op.position offset ↔ ∃ place, base = .address place ∧
        (memory.locate (place + offset.toUInt64)).segment = name := by
    intro base offset
    cases base <;> simp [Operand.baseRequests, Operand.requests, eq_comm]
  rw [mem_requests rfl]
  simp only [value, base]
  grind

/-- A use that is not shared comes from an operand that is read, or is the result. -/
lemma filterMap_requests {β : Type} {f : UseSite → Option β} {g : Operand → Option β}
    (own : ∀ site, site.isShared = true → f site = none)
    (read : ∀ operand : Operand, (operand.requests op.position).filterMap f = (g operand).toList) :
    ((op.requests memory).filterMap f).Perm
      (op.action.reads.filterMap g ++ ((op.action.result? op.position).bind f).toList) := by
  have base : ∀ (base : Operand) offset,
      (base.baseRequests memory op.position offset).filterMap f = (g base).toList := by
    intro base offset
    cases base with
    | address place =>
      rw [← read, Operand.requests, Operand.baseRequests]
      simp [own (.address place) rfl, own (.segment _) rfl]
    | storage name => exact read (.storage name)
    | literal value width => exact read (.literal value width)
    | result target => exact read (.result target)
  have result : (op.action.result? op.position).toList.filterMap f =
      ((op.action.result? op.position).bind f).toList := by
    cases op.action.result? op.position with
    | none => rfl
    | some site => cases found : f site <;> simp [found]
  have destination : (if op.action.hasResult then (op.destination.map UseSite.storage).toList
      else []).filterMap f = [] := by
    split
    · cases op.destination with
      | none => rfl
      | some name => simp [own (.storage name) rfl]
    · rfl
  rw [requests, List.filterMap_append, List.filterMap_append, List.filterMap_append, destination,
    List.append_nil, result]
  refine List.Perm.append_right _ ?_
  refine List.Perm.trans (.of_eq ?_) (op.action.reads_perm.symm.filterMap g)
  rw [List.filterMap_append, List.filterMap_map, List.filterMap_flatMap, List.filterMap_flatMap,
    List.filterMap_eq_flatMap_toList, List.filterMap_eq_flatMap_toList]
  simp only [read, base, Function.comp]

/-- An operation requests an expression if its result is one. -/
lemma expressions_requests :
    (op.requests memory).filterMap UseSite.expression? =
      if op.action.isExpression then [op.position] else [] := by
  have read : ∀ operand : Operand, (operand.requests op.position).filterMap UseSite.expression? =
      (none : Option Nat).toList := by
    intro operand
    cases operand <;> rfl
  have perm := @filterMap_requests memory op _ _ (fun _ => none) UseSite.expression?_of_isShared
    read
  rw [List.filterMap_none, List.nil_append] at perm
  have result : ((op.action.result? op.position).bind UseSite.expression?).toList =
      if op.action.isExpression then [op.position] else [] := by
    cases op.action <;> rfl
  rw [result] at perm
  split at perm
  · exact (List.perm_singleton.1 perm).trans (if_pos ‹_›).symm
  · exact perm.eq_nil.trans (if_neg ‹_›).symm

/-- The literals among the values and the base are those that are read. -/
lemma literals_requests : ((op.requests memory).filterMap UseSite.literal?).Perm op.literals := by
  have read : ∀ operand : Operand, (operand.requests op.position).filterMap UseSite.literal? =
      (operand.literal?.map (op.position, ·)).toList := by
    intro operand
    cases operand <;> rfl
  refine (filterMap_requests UseSite.literal?_of_isShared read).trans (.of_eq ?_)
  rw [literals]
  cases op.action with
  | literal value width => rfl
  | _ => exact (List.append_nil _).trans (List.map_filterMap ..).symm

end Operation

end

end TypeRecovery
