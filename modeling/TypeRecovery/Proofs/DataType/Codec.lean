import TypeRecovery.DataType.Codec
import TypeRecovery.Proofs.DataType.References
import TypeRecovery.Proofs.Json.Decoding

/-!
# Types as JSON

A type is read back if the classes that it names have numbers of 32 bits and it is not nested too
deeply for a text. `Nests` counts the levels of nesting that its JSON form takes: two for a type with
parts, one for each list of parts, and one for each field.
-/

namespace TypeRecovery

open Decoder

variable {limit levels : Nat}

/-- A variable with a number of 32 bits is read back. -/
lemma VarId.reads {v : VarId} (small : v.index < UInt32.size) :
    Reads limit levels decoder v.toJson v :=
  (Reads.nat small (by decide)).map VarId.mk

/-- A class with a number of 32 bits is read back. -/
lemma ClassId.reads {c : ClassId} (small : c.index < UInt32.size) :
    Reads limit levels decoder c.toJson c :=
  (Reads.nat small (by decide)).map ClassId.mk

/-- A sign is read back. -/
lemma Signedness.reads (s : Signedness) : Reads limit levels decoder s.toJson s :=
  .name (by cases s <;> rfl)

namespace DataType

/-- The JSON form of a type takes no more than so many levels of nesting. -/
inductive Nests : Nat → DataType → Prop
  | void {n} : Nests n .void
  | boolean {n} : Nests n .boolean
  | integer {n width sign} : Nests (n + 2) (.integer width sign)
  | pointer {n target} : Nests (n + 1) (.pointer target)
  | array {n element length} : Nests n element → Nests (n + 2) (.array element length)
  | struct {n size fields} : (∀ field ∈ fields, Nests n field.type) →
    Nests (n + 4) (.struct size fields)
  | union {n alternatives} : (∀ t ∈ alternatives, Nests n t) → Nests (n + 3) (.union alternatives)
  | function {n params result untyped} : (∀ t ∈ params, Nests n t) → Nests n result →
    Nests (n + 3) (.function params result untyped)

/-- A type that takes few levels takes no more than one more. -/
lemma Nests.succ {n : Nat} {t : DataType} (nests : Nests n t) : Nests (n + 1) t := by
  induction nests with
  | void => exact .void
  | boolean => exact .boolean
  | integer => exact .integer
  | pointer => exact .pointer
  | array _ ih => exact .array ih
  | struct _ ih => exact .struct ih
  | union _ ih => exact .union ih
  | function _ _ ih ih' => exact .function ih ih'

/-- A type that takes few levels takes no more than any greater number. -/
lemma Nests.mono {n m : Nat} {t : DataType} (nests : Nests n t) (le : n ≤ m) : Nests m t := by
  induction le with
  | refl => exact nests
  | step _ ih => exact ih.succ

/-! ## Lists of parts -/

/-- A list of types is written type by type. -/
lemma listToJson_eq (ts : List DataType) : listToJson ts = ts.map toJson := by
  induction ts with
  | nil => rfl
  | cons t ts ih => rw [listToJson, ih, List.map_cons]

/-- A list of fields is written field by field. -/
lemma fieldsToJson_eq (fields : List (Field DataType)) :
    fieldsToJson fields = fields.map fieldToJson := by
  induction fields with
  | nil => rfl
  | cons field fields ih =>
    rw [fieldsToJson, ih, List.map_cons]
    rfl

section
variable {type : Decoder DataType}

/-- A field is read back if its type is. -/
lemma reads_field {field : Field DataType} (read : Reads limit levels type field.type.toJson field.type) :
    Reads (limit + 1) (levels + 1) (fieldDecoder type) (fieldToJson field) field := by
  rw [fieldToJson, memberIfTrue_eq_present]
  refine Reads.record ((Reads.int64 field.offset).required.and <| read.required.and <|
    (Supplies.ifTrue field.padding).and .nil) rfl (by decide) ?_
  rintro room _ ⟨_, _, rfl, offset, _, _, rfl, part, _, _, rfl, padding, rfl⟩
  simp only [offset, part, padding]
  rfl

/-- A list of types is read back if each of them is. -/
lemma reads_list {ts : List DataType} (each : ∀ t ∈ ts, Reads limit levels type t.toJson t) :
    Reads (limit + 1) (levels + 1) (.list type) (.array (listToJson ts)) ts := by
  rw [listToJson_eq]
  exact .ofList each

/-- A list of fields is read back if the type of each of them is. -/
lemma reads_fields {fields : List (Field DataType)}
    (each : ∀ field ∈ fields, Reads limit levels type field.type.toJson field.type) :
    Reads (limit + 2) (levels + 2) (.list (fieldDecoder type)) (.array (fieldsToJson fields))
      fields := by
  rw [fieldsToJson_eq]
  exact .ofList fun field mem => reads_field (each field mem)

/-! ## The parts of a type -/

/-- An integer is read back. -/
lemma reads_integer (width : UInt8) (sign : Signedness) :
    Reads (limit + 1) (levels + 1) integerDecoder
      (.object [("width", .ofNat width.toNat), ("sign", sign.toJson)]) (.integer width sign) := by
  refine Reads.record ((Reads.uint8 width).required.and <| (sign.reads.defaulted .unknown).and .nil)
    rfl (by decide) ?_
  rintro room _ ⟨_, _, rfl, width, _, _, rfl, sign, rfl⟩
  simp only [width, sign]
  rfl

/-- An array is read back if its element is. -/
lemma reads_array {element : DataType} (length : Option UInt64)
    (read : Reads limit levels type element.toJson element) :
    Reads (limit + 1) (levels + 1) (arrayDecoder type)
      (.object [("element", element.toJson), ("length", lengthToJson length)])
      (.array element length) := by
  have known : Reads limit levels (.option .uint64) (lengthToJson length) length :=
    .ofOption (fun n _ => .uint64 n) fun _ => Json.noConfusion
  refine Reads.record (read.required.and <| known.optional.and .nil) rfl (by decide) ?_
  rintro room _ ⟨_, _, rfl, element, _, _, rfl, length, rfl⟩
  simp only [element, length]
  rfl

/-- A structure is read back if the types of its fields are. -/
lemma reads_struct (size : UInt64) {fields : List (Field DataType)}
    (each : ∀ field ∈ fields, Reads limit levels type field.type.toJson field.type) :
    Reads (limit + 3) (levels + 3) (structDecoder type)
      (.object [("size", .ofNat size.toNat), ("fields", .array (fieldsToJson fields))])
      (.struct size fields) := by
  refine Reads.record ((Reads.uint64 size).required.and <| (reads_fields each).required.and .nil)
    rfl (by decide) ?_
  rintro room _ ⟨_, _, rfl, size, _, _, rfl, fields, rfl⟩
  simp only [size, fields]
  rfl

/-- A union is read back if its alternatives are. -/
lemma reads_union {ts : List DataType} (each : ∀ t ∈ ts, Reads limit levels type t.toJson t) :
    Reads (limit + 2) (levels + 2) (unionDecoder type)
      (.object [("alternatives", .array (listToJson ts))]) (.union ts) := by
  refine Reads.record ((reads_list each).required.and .nil) rfl (by decide) ?_
  rintro room _ ⟨_, _, rfl, alternatives, rfl⟩
  simp only [alternatives]
  rfl

/-- A function is read back if its parameters and its result are; a mark of unknown types may be
left out. -/
lemma reads_function {params : List DataType} {result : DataType} (untyped : Bool)
    (each : ∀ t ∈ params, Reads limit levels type t.toJson t)
    (read : Reads limit levels type result.toJson result) :
    Reads (limit + 1) (levels + 2) (functionDecoder type)
      (.object ([("params", .array (listToJson params)), ("ret", result.toJson)] ++
        Json.memberIfTrue "untyped" untyped)) (.function params result untyped) := by
  have params : Reads limit (levels + 1) (.list type) (.array (listToJson params)) params :=
    (reads_list each).mono (Nat.le_refl _) (Nat.le_succ _)
  have result := read.mono (Nat.le_succ _) (Nat.le_refl _)
  rw [memberIfTrue_eq_present]
  refine Reads.record (params.required.and <| result.required.and <|
    (Supplies.ifTrue untyped).and .nil) rfl (by decide) ?_
  rintro room _ ⟨_, _, rfl, params, _, _, rfl, result, _, _, rfl, untyped, rfl⟩
  simp only [params, result, untyped]
  rfl

end

/-- A decoder for types that are nested less deeply is enough for the parts of a type. -/
lemma reads_of_succ {t : DataType}
    (read : ∀ limit, Reads (limit + 1) levels (decoderBelow (limit + 1)) t.toJson t) (limit : Nat) :
    Reads limit levels (decoderBelow limit) t.toJson t := by
  cases limit with
  | zero => exact ⟨(read 0).fits, fun _ below => absurd below (Nat.not_lt_zero _)⟩
  | succ limit => exact read limit

/-- A type is read back if its classes have numbers of 32 bits. -/
theorem reads {t : DataType} (nests : Nests levels t) (named : t.Names (·.index < UInt32.size))
    (limit : Nat) : Reads limit levels (decoderBelow limit) t.toJson t := by
  revert limit
  -- below a limit of zero there is nothing to read, so the decoder can be taken apart
  apply reads_of_succ
  induction nests with
  | void =>
    intro limit
    rw [decoderBelow, toJson]
    exact .bare fun _ => by simp only [Decoder.plain]
  | boolean =>
    intro limit
    rw [decoderBelow, toJson]
    exact .bare fun _ => by simp only [Decoder.plain]
  | @integer n width sign =>
    intro limit
    have whole : Reads limit (n + 1) integerDecoder _ (integer width sign) :=
      (reads_integer width sign).mono (Nat.le_refl _) (Nat.le_succ limit)
    rw [decoderBelow, toJson]
    exact whole.tagged fun _ => by simp only [carrying]
  | pointer =>
    intro limit
    rw [decoderBelow, toJson]
    exact ((ClassId.reads (names_pointer.1 named)).map pointer).tagged fun _ => by
      simp only [carrying]
  | @array n element length _ ih =>
    intro limit
    have read := reads_of_succ (ih (names_array.1 named)) limit
    have whole := (reads_array length read).mono (Nat.le_refl _) (Nat.le_succ limit)
    rw [decoderBelow, toJson]
    exact whole.tagged fun _ => by simp only [carrying]
  | @struct n size fields _ ih =>
    intro limit
    have each : ∀ field ∈ fields, Reads limit n (decoderBelow limit) field.type.toJson field.type :=
      fun field mem => reads_of_succ (ih field mem (names_struct.1 named field mem)) limit
    have whole := (reads_struct size each).mono (Nat.le_refl _) (Nat.le_add_right limit 3)
    rw [decoderBelow, toJson]
    exact whole.tagged fun _ => by simp only [carrying]
  | @union n alternatives _ ih =>
    intro limit
    have each : ∀ t ∈ alternatives, Reads limit n (decoderBelow limit) t.toJson t :=
      fun t mem => reads_of_succ (ih t mem (names_union.1 named t mem)) limit
    have whole := (reads_union each).mono (Nat.le_refl _) (Nat.le_add_right limit 2)
    rw [decoderBelow, toJson]
    exact whole.tagged fun _ => by simp only [carrying]
  | @function n params result untyped _ _ ih ih' =>
    intro limit
    have each : ∀ t ∈ params, Reads limit n (decoderBelow limit) t.toJson t :=
      fun t mem => reads_of_succ (ih t mem ((names_function.1 named).1 t mem)) limit
    have read := reads_of_succ (ih' (names_function.1 named).2) limit
    have whole := (reads_function untyped each read).mono (Nat.le_refl _) (Nat.le_succ limit)
    rw [decoderBelow, toJson]
    exact whole.tagged fun _ => by simp only [carrying]

/-- No type is written as null. -/
lemma toJson_ne_null (t : DataType) : t.toJson ≠ .null := by
  cases t <;> exact Json.noConfusion

/-! ## Renaming -/

/-- Renaming classes leaves the nesting as it is. -/
lemma Nests.mapClasses {n : Nat} {t : DataType} (nests : Nests n t) (f : ClassId → ClassId) :
    Nests n (t.mapClasses f) := by
  induction nests with
  | void => exact .void
  | boolean => exact .boolean
  | integer => exact .integer
  | pointer => exact .pointer
  | array _ ih => exact .array ih
  | struct _ ih =>
    refine .struct fun field mem => ?_
    rw [mapClassesFields_eq] at mem
    obtain ⟨old, inside, rfl⟩ := List.mem_map.1 mem
    exact ih old inside
  | union _ ih =>
    refine .union fun t mem => ?_
    rw [mapClassesList_eq] at mem
    obtain ⟨old, inside, rfl⟩ := List.mem_map.1 mem
    exact ih old inside
  | function _ _ ih ih' =>
    refine .function (fun t mem => ?_) ih'
    rw [mapClassesList_eq] at mem
    obtain ⟨old, inside, rfl⟩ := List.mem_map.1 mem
    exact ih old inside

end DataType

end TypeRecovery
