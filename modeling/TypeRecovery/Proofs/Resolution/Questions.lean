import TypeRecovery.Proofs.Resolution.Verdict

/-!
# The questions of a verdict

`Asks` says that an inquiry cannot fail, whatever it is answered, which questions it can ask and what
it can remark. A question for a type may stay open here, as it does for a class that contains itself.
The verdict on a class whose strides are not zero asks for what its constraints mention and for
nothing else, and it remarks on recursion only at a part whose type is not found (`verdict_asks`).
-/

namespace TypeRecovery

/-- A constraint in the list mentions a variable, as a value or as a pointee. -/
def Mentions (constraints : List Constraint) (v : VarId) (pointee : Bool) : Prop :=
  ∃ constraint ∈ constraints, (v, pointee) ∈ constraint.fact.mentions

/-- The offset of a part that is accessed, and the variable of its value. -/
def Fact.part? : Fact → Option (Int64 × VarId)
  | .field access => some (access.offset, access.value)
  | .element access => some (access.offset, access.value)
  | _ => none

/-- A part mentions the value in it. -/
lemma Fact.mentions_of_part? {fact : Fact} {offset : Int64} {v : VarId}
    (part : fact.part? = some (offset, v)) : (v, false) ∈ fact.mentions := by
  cases fact <;> cases part <;> exact List.mem_singleton_self _

/-- A part is accessed. -/
lemma Fact.isAccess_of_part? {fact : Fact} {part : Int64 × VarId}
    (accessed : fact.part? = some part) : fact.isAccess = true := by
  cases fact <;> cases accessed <;> rfl

/-- What a fact among the constraints mentions is mentioned by them. -/
lemma mentions_of_fact {constraints : List Constraint} {fact : Fact} {v : VarId} {pointee : Bool}
    (mem : fact ∈ constraints.map (·.fact)) (mention : (v, pointee) ∈ fact.mentions) :
    Mentions constraints v pointee := by
  obtain ⟨constraint, inside, rfl⟩ := List.mem_map.1 mem
  exact ⟨constraint, inside, mention⟩

namespace Inquiry

/-- What an inquiry may do. -/
structure Scope where
  /-- The variables that it may ask for: for the type of a value, or for the class of a pointee. -/
  asked : VarId → Bool → Prop
  /-- The variables whose types it may not be told. -/
  unanswered : VarId → Prop
  /-- What it may remark. -/
  remarks : Remark → Prop

/-- The scope of a verdict on constraints, whatever it is told. -/
def Scope.of (constraints : List Constraint) : Scope where
  asked := Mentions constraints
  unanswered _ := True
  remarks _ := True

/-- An inquiry that keeps to its scope and ends with an answer in `post`. -/
inductive Asks (S : Scope) {α : Type} (post : α → Prop) : Inquiry α → Prop
  | answer {r} : post r → Asks S post (.answer r)
  | remark {n next} : S.remarks n → Asks S post next → Asks S post (.remark n next)
  | askType {v next} : S.asked v false → (∀ t, Asks S post (next (some t))) →
    (S.unanswered v → Asks S post (next none)) → Asks S post (.askType v next)
  | askClass {v next} : S.asked v true → (∀ c, Asks S post (next c)) →
    Asks S post (.askClass v next)

section
variable {S : Scope} {α β : Type}

/-- Two inquiries in a row keep to a scope if each of them does. -/
lemma Asks.bind {x : Inquiry α} {f : α → Inquiry β} {Q : α → Prop} {post : β → Prop}
    (asks : x.Asks S Q) (next : ∀ r, Q r → (f r).Asks S post) : (x >>= f).Asks S post := by
  induction asks with
  | answer holds => exact next _ holds
  | remark left _ ih => exact .remark left ih
  | askType asked _ _ ih ih' => exact .askType asked ih ih'
  | askClass asked _ ih => exact .askClass asked ih

/-- An inquiry for each member of a list keeps to a scope if each of them does. -/
lemma Asks.mapM {f : α → Inquiry β} {l : List α} {post : β → Prop}
    (each : ∀ x ∈ l, (f x).Asks S post) : (l.mapM f).Asks S fun rs => ∀ r ∈ rs, post r := by
  -- the answers so far are generalized, as the loop carries them along
  suffices h : ∀ done : List β, (∀ r ∈ done, post r) →
      (List.mapM.loop f l done).Asks S fun rs => ∀ r ∈ rs, post r from h [] (by simp)
  induction l with
  | nil =>
    intro done holds
    exact .answer fun r mem => holds r (List.mem_reverse.1 mem)
  | cons x l ih =>
    intro done holds
    rw [List.forall_mem_cons] at each
    apply each.1.bind
    intro r here
    apply ih each.2
    rw [List.forall_mem_cons]
    exact ⟨here, holds⟩

/-- Leaving remarks keeps to a scope that admits them. -/
lemma leaveAll_asks {remarks : List Remark} (left : ∀ n ∈ remarks, S.remarks n) :
    (leaveAll remarks).Asks S fun _ => True := by
  induction remarks with
  | nil => exact .answer trivial
  | cons n remarks ih =>
    rw [List.forall_mem_cons] at left
    exact .remark left.1 (ih left.2)

/-! ## Aggregates -/

/-- The type of an accessed value is asked for, with a remark on recursion if it is not told. -/
lemma accessedType_asks {c : ClassId} {offset : Int64} {width : UInt8} {v : VarId}
    (asked : S.asked v false) (recursion : S.unanswered v → S.remarks (.recursiveLayout c offset)) :
    (accessedType c offset width v).Asks S fun _ => True := by
  refine Asks.askType asked (fun t => ?_) fun unanswered => ?_
  · cases t <;> exact .answer trivial
  · exact .remark (recursion unanswered) (.answer trivial)

/-- The type of an aggregate asks for the values in its parts, and does not fail if no stride is
zero. -/
lemma aggregateType_asks {config : Config} {c : ClassId} {evidence : Evidence}
    (settles : ∀ n : Remark, n.Settles c → S.remarks n)
    (fields : ∀ access ∈ evidence.fields, S.asked access.value false ∧
      (S.unanswered access.value → S.remarks (.recursiveLayout c access.offset)))
    (elements : ∀ access ∈ evidence.elements, S.asked access.value false ∧
      (S.unanswered access.value → S.remarks (.recursiveLayout c access.offset)))
    (strides : ∀ access ∈ evidence.elements, access.stride ≠ 0) :
    (aggregateType config c evidence).Asks S fun _ => True := by
  have typed : ((firstAccesses FieldAccess.key evidence.fields).mapM (fieldType c)).Asks S
      fun rs => ∀ r ∈ rs, True := by
    apply Asks.mapM
    intro access mem
    obtain ⟨asked, recursion⟩ := fields access (mem_of_mem_firstAccesses mem)
    apply (accessedType_asks asked recursion).bind
    exact fun _ _ => .answer trivial
  have rows : ((firstAccesses ElementAccess.key evidence.elements).mapM (elementType c)).Asks S
      fun rows => ∀ row ∈ rows, row.stride ≠ 0 := by
    apply Asks.mapM
    intro access mem
    have mem := mem_of_mem_firstAccesses mem
    obtain ⟨asked, recursion⟩ := elements access mem
    apply (accessedType_asks asked recursion).bind
    exact fun _ _ => .answer (strides access mem)
  apply typed.bind
  intro typed _
  apply rows.bind
  intro rows nonzero
  dsimp only
  split
  · rename_i divides
    obtain ⟨row, mem, zero⟩ := Layout.exists_zero_of_dividesByZero divides
    exact absurd zero (nonzero row mem)
  · -- the layout itself leaves no remark on recursion
    have named : Aggregate.Names (fun _ => True) ⟨Slot.ofAccesses typed, rows, evidence.extent⟩ :=
      ⟨fun _ _ _ _ _ _ => trivial, fun _ _ _ _ => trivial⟩
    have synthesis : (Layout.synthesize config c _).Names (fun _ => True) c :=
      Layout.synthesize_names named
    apply (leaveAll_asks fun n mem => settles n (synthesis.remarks n mem)).bind
    exact fun _ _ => .answer trivial

/-! ## Functions -/

/-- The types of passed values are asked for. -/
lemma passedTypes_asks {vs : List VarId} (asked : ∀ v ∈ vs, S.asked v false) :
    (vs.mapM passedType).Asks S fun ts => ∀ t ∈ ts, True := by
  apply Asks.mapM
  intro v mem
  exact .askType (asked v mem) (fun _ => .answer trivial) fun _ => .answer trivial

/-- The type of a parameter asks for what the calls pass. -/
lemma paramType_asks {c : ClassId} {sites : List CallSite} {index : Nat}
    (settles : ∀ n : Remark, n.Settles c → S.remarks n)
    (args : ∀ site ∈ sites, ∀ v ∈ site.args, S.asked v false) :
    (paramType c sites index).Asks S fun _ => True := by
  have asked : ∀ v ∈ sites.filterMap fun site => site.args[index]?, S.asked v false := by
    intro v mem
    obtain ⟨site, mem, found⟩ := List.mem_filterMap.1 mem
    exact args site mem v (List.mem_of_getElem? found)
  apply (passedTypes_asks asked).bind
  intro passed _
  dsimp only
  split
  · exact .remark (settles _ ⟨rfl, rfl, rfl⟩) (.answer trivial)
  · exact .answer trivial

/-- The type of a function asks for what the calls pass and give. -/
lemma functionType_asks {c : ClassId} {sites : List CallSite}
    (settles : ∀ n : Remark, n.Settles c → S.remarks n)
    (args : ∀ site ∈ sites, ∀ v ∈ site.args, S.asked v false)
    (results : ∀ site ∈ sites, ∀ v ∈ site.result, S.asked v false) :
    (functionType c sites).Asks S fun _ => True := by
  have asked : ∀ v ∈ sites.filterMap (·.result), S.asked v false := by
    intro v mem
    obtain ⟨site, mem, found⟩ := List.mem_filterMap.1 mem
    exact results site mem v found
  apply (passedTypes_asks asked).bind
  intro passed _
  dsimp only
  split
  · exact .answer trivial
  · apply (Asks.mapM fun _ _ => paramType_asks settles args).bind
    exact fun _ _ => .answer trivial
  · exact .remark (settles _ ⟨rfl, rfl, rfl⟩) (.answer trivial)

/-! ## All classes -/

/-- The type of a pointer asks for the class that it points into. -/
lemma pointerType_asks {config : Config} {c : ClassId} {evidence : Evidence} {seen : Sighting}
    {target : VarId} (settles : ∀ n : Remark, n.Settles c → S.remarks n)
    (asked : S.asked target true) :
    (pointerType config c evidence seen target).Asks S fun _ => True := by
  apply Asks.askClass asked
  intro d
  simp only [Inquiry.bind]
  split
  case h_1 =>
    apply Asks.remark (settles _ ⟨rfl, rfl, rfl⟩)
    split
    · exact .remark (settles _ ⟨rfl, rfl, rfl⟩) (.answer trivial)
    · exact .answer trivial
  case h_2 =>
    split
    · exact .remark (settles _ ⟨rfl, rfl, rfl⟩) (.answer trivial)
    · exact .answer trivial

/-- A verdict asks for what its constraints mention, and does not fail if no stride is zero. It
remarks on recursion at the parts whose types it is not told. -/
lemma verdict_asks {config : Config} {c : ClassId} {constraints : List Constraint}
    (strides : ∀ constraint ∈ constraints, ∀ access ∈ constraint.fact.element?, access.stride ≠ 0)
    (asked : ∀ {v pointee}, Mentions constraints v pointee → S.asked v pointee)
    (settles : ∀ n : Remark, n.Settles c → S.remarks n)
    (recursion : ∀ constraint ∈ constraints, ∀ {offset v},
      constraint.fact.part? = some (offset, v) → S.unanswered v →
        S.remarks (.recursiveLayout c offset)) :
    (verdict config c (.gather constraints)).Asks S fun _ => True := by
  rw [verdict]
  split
  · have function : (functionType c (Evidence.gather constraints).callSites).Asks S
        fun _ => True := by
      apply functionType_asks settles
      · intro site mem v inside
        apply asked (mentions_of_fact (mem_callSites.1 mem) _)
        exact List.mem_map_of_mem (List.mem_append_left _ inside)
      · intro site mem v inside
        apply asked (mentions_of_fact (mem_callSites.1 mem) _)
        exact List.mem_map_of_mem (List.mem_append_right _ (Option.mem_toList.2 inside))
    dsimp only
    split
    · exact .remark (settles _ ⟨rfl, rfl, rfl⟩) function
    · exact function
  split
  · apply aggregateType_asks settles
    · intro access mem
      refine ⟨asked (mentions_of_fact (mem_fields.1 mem) (List.mem_singleton_self _)), ?_⟩
      obtain ⟨constraint, inside, e⟩ := List.mem_map.1 (mem_fields.1 mem)
      exact recursion constraint inside (by rw [e]; rfl)
    · intro access mem
      refine ⟨asked (mentions_of_fact (mem_elements.1 mem) (List.mem_singleton_self _)), ?_⟩
      obtain ⟨constraint, inside, e⟩ := List.mem_map.1 (mem_elements.1 mem)
      exact recursion constraint inside (by rw [e]; rfl)
    · intro access mem
      obtain ⟨constraint, inside, e⟩ := List.mem_map.1 (mem_elements.1 mem)
      exact strides constraint inside access (Fact.element?_eq_some.2 e)
  split
  · rename_i seen target pointer
    obtain ⟨constraint, inside, e⟩ := List.exists_of_findSome?_eq_some pointer
    obtain ⟨v, points, e⟩ := Option.map_eq_some_iff.1 e
    cases e
    apply pointerType_asks settles
    refine asked ⟨constraint, inside, ?_⟩
    rw [Fact.target?_eq_some.1 points]
    exact List.mem_singleton_self _
  · exact .answer trivial

end

end Inquiry

end TypeRecovery
