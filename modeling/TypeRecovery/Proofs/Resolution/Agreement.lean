import TypeRecovery.Proofs.Resolution.Verdict

/-!
# Verdicts on the same facts

The type of a value depends on which facts are told of its class, and not on their order or on what
is pointed into. Where two lists of constraints tell the same (`SameFacts`), the types of values are
alike (`gather_agrees`, `valueType_alike`): they differ in the classes that pointers point to, and in
which alternative of a union comes first.
-/

namespace TypeRecovery

/-- Types of values that are equal up to the class that a pointer points to and the order of the
alternatives of a union. -/
inductive DataType.Alike : DataType → DataType → Prop
  | void : Alike .void .void
  | boolean : Alike .boolean .boolean
  | integer (width sign) : Alike (.integer width sign) (.integer width sign)
  | pointer (c d) : Alike (.pointer c) (.pointer d)
  | union {ts us width sign c d} : ts.Perm [.integer width sign, .pointer c] →
    us.Perm [.integer width sign, .pointer d] → Alike (.union ts) (.union us)

/-- Constraints that tell the same, but for what is pointed into. -/
structure SameFacts (cs ds : List Constraint) : Prop where
  told : ∀ fact : Fact, fact.target? = none →
    ((∃ c ∈ cs, c.fact = fact) ↔ ∃ d ∈ ds, d.fact = fact)
  pointer : (∃ c ∈ cs, c.fact.target?.isSome) ↔ ∃ d ∈ ds, d.fact.target?.isSome

instance lawfulOrderMax_uint8 : Std.LawfulOrderMax UInt8 where
  max_eq_or a b := by
    show (if a ≤ b then b else a) = a ∨ (if a ≤ b then b else a) = b
    split
    · exact .inr rfl
    · exact .inl rfl
  max_le_iff a b c := by
    show (if a ≤ b then b else a) ≤ c ↔ a ≤ c ∧ b ≤ c
    simp only [UInt8.le_iff_toNat_le]
    split <;> omega

/-- The greatest number of a list depends on its members only. -/
lemma max?_congr {l m : List UInt8} (same : ∀ x, x ∈ l ↔ x ∈ m) : l.max? = m.max? := by
  apply Option.ext
  intro x
  simp only [List.max?_eq_some_iff, same]

namespace SameFacts

variable {cs ds : List Constraint}

/-- What is told of a kind of facts that pointers are none of. -/
lemma exists_iff (sf : SameFacts cs ds) {p : Fact → Prop}
    (plain : ∀ {fact}, p fact → fact.target? = none) :
    (∃ c ∈ cs, p c.fact) ↔ ∃ d ∈ ds, p d.fact := by
  constructor
  · rintro ⟨c, mem, holds⟩
    obtain ⟨d, mem', e⟩ := (sf.told c.fact (plain holds)).1 ⟨c, mem, rfl⟩
    exact ⟨d, mem', e ▸ holds⟩
  · rintro ⟨d, mem, holds⟩
    obtain ⟨c, mem', e⟩ := (sf.told d.fact (plain holds)).2 ⟨d, mem, rfl⟩
    exact ⟨c, mem', e ▸ holds⟩

/-- Whether a kind of facts is told is told alike. -/
lemma any_eq (sf : SameFacts cs ds) {p : Fact → Bool}
    (plain : ∀ {fact}, p fact = true → fact.target? = none) :
    (cs.map (·.fact)).any p = (ds.map (·.fact)).any p := by
  rw [Bool.eq_iff_iff]
  simpa using sf.exists_iff plain

/-- What facts say of a kind is told alike. -/
lemma mem_filterMap_iff (sf : SameFacts cs ds) {α : Type} {f : Fact → Option α}
    (plain : ∀ {fact x}, f fact = some x → fact.target? = none) (x : α) :
    x ∈ (cs.map (·.fact)).filterMap f ↔ x ∈ (ds.map (·.fact)).filterMap f := by
  have exist : (∃ c ∈ cs, f c.fact = some x) ↔ ∃ d ∈ ds, f d.fact = some x := sf.exists_iff plain
  simpa using exist

end SameFacts

namespace Evidence

/-- Evidence for values that are alike. -/
structure Agrees (e f : Evidence) : Prop where
  pointer : e.pointer.isSome = f.pointer.isSome
  strongScalar : e.strongScalar.isSome = f.strongScalar.isSome
  width : e.width = f.width
  signed : e.signed = f.signed
  unsigned : e.unsigned = f.unsigned
  boolean : e.boolean = f.boolean
  counter : e.counter = f.counter
  steps : e.steps.isEmpty = f.steps.isEmpty

/-- Evidence that is gathered from constraints that tell the same agrees. -/
lemma gather_agrees {cs ds : List Constraint} (sf : SameFacts cs ds) :
    (gather cs).Agrees (gather ds) where
  pointer := by
    rw [Bool.eq_iff_iff]
    simpa [gather, List.findSome?_isSome_iff] using sf.pointer
  strongScalar := by
    have plain : ∀ {fact : Fact}, fact.isStrongScalar = true → fact.target? = none := by
      intro fact strong
      cases fact <;> first | rfl | cases strong
    rw [Bool.eq_iff_iff]
    simpa [gather] using sf.exists_iff plain
  width := by
    apply max?_congr
    apply sf.mem_filterMap_iff
    intro fact x width
    cases fact <;> first | rfl | cases width
  signed := by
    apply sf.any_eq
    intro fact vote
    cases fact <;> first | rfl | cases vote
  unsigned := by
    apply sf.any_eq
    intro fact vote
    cases fact <;> first | rfl | cases vote
  boolean := by
    have told := sf.told .boolean rfl
    rw [Bool.eq_iff_iff]
    simpa [gather] using told
  counter := by
    have told := sf.told .counter rfl
    rw [Bool.eq_iff_iff]
    simpa [gather] using told
  steps := by
    have plain : ∀ {fact : Fact} {x}, fact.step? = some x → fact.target? = none := by
      intro fact x step
      cases fact <;> first | rfl | cases step
    rw [Bool.eq_iff_iff, List.isEmpty_iff, List.isEmpty_iff]
    simp only [gather, List.eq_nil_iff_forall_not_mem, sf.mem_filterMap_iff plain]

end Evidence

namespace Inquiry

variable {e f : Evidence}

/-- Evidence that agrees tells the same integer. -/
lemma integerType_eq (ag : e.Agrees f) (config : Config) :
    integerType config e = integerType config f := by
  rw [integerType, integerType, Evidence.sign, Evidence.sign, ag.width, ag.signed, ag.unsigned]

/-- Evidence that agrees tells the same scalar. -/
lemma scalarType_eq (ag : e.Agrees f) (config : Config) :
    scalarType config e = scalarType config f := by
  rw [scalarType, scalarType, integerType_eq ag, ag.width, ag.boolean, ag.counter, ag.steps,
    ag.signed, ag.unsigned]

/-- The type of a scalar is alike itself. -/
lemma scalarType_alike (config : Config) (e : Evidence) :
    (scalarType config e).Alike (scalarType config e) := by
  rw [scalarType]
  split
  · exact .integer _ _
  · split
    · exact .boolean
    · split
      · exact .integer _ _
      · exact .void

/-- An integer and a pointer, in the order in which they were seen. -/
lemma alternatives_perm {integer pointer : DataType} {first : Prop} [Decidable first] :
    (if first then [integer, pointer] else [pointer, integer]).Perm [integer, pointer] := by
  split
  · exact .refl _
  · exact .swap _ _ _

/-- Where the evidence agrees, the types of pointers are alike, wherever they were seen and whatever
they point into. -/
lemma pointerVerdict_alike (ag : e.Agrees f) (config : Config) (seen seen' : Sighting)
    (c d : ClassId) :
    (pointerVerdict config e seen c).Alike (pointerVerdict config f seen' d) := by
  have scalar := ag.strongScalar
  rw [pointerVerdict, pointerVerdict]
  cases he : e.strongScalar with
  | none =>
    cases hf : f.strongScalar with
    | none => exact .pointer c d
    | some _ => rw [he, hf] at scalar; cases scalar
  | some _ =>
    cases hf : f.strongScalar with
    | none => rw [he, hf] at scalar; cases scalar
    | some _ =>
      rw [integerType_eq ag]
      exact .union alternatives_perm alternatives_perm

/-- Where the evidence agrees, the types of values are alike. -/
lemma valueType_alike (ag : e.Agrees f) (config : Config) (c d : ClassId) :
    (valueType config e c).Alike (valueType config f d) := by
  have pointer := ag.pointer
  rw [valueType, valueType]
  cases he : e.pointer with
  | none =>
    cases hf : f.pointer with
    | none =>
      rw [scalarType_eq ag]
      exact scalarType_alike config f
    | some _ => rw [he, hf] at pointer; cases pointer
  | some _ =>
    cases hf : f.pointer with
    | none => rw [he, hf] at pointer; cases pointer
    | some _ => exact pointerVerdict_alike ag config _ _ c d

/-- The type of a value that is brought up to date points to another class. -/
lemma valueType_mapClasses (config : Config) (e : Evidence) (c : ClassId) (g : ClassId → ClassId) :
    (valueType config e c).mapClasses g = valueType config e (g c) := by
  rw [valueType, valueType]
  split
  · rw [pointerVerdict, pointerVerdict]
    split
    · simp only [integerType]
      split <;> rfl
    · rfl
  · rw [scalarType]
    split
    · rfl
    · split
      · rfl
      · split <;> rfl

end Inquiry

end TypeRecovery
