import TypeRecovery.DataType.Join
import TypeRecovery.Proofs.Alternatives

/-!
# The classes that a type names

`classIds` lists the classes that the pointers in a type name, at any depth. Renaming classes
renames them one by one, and a join names no class that its parts do not name (`names_joinAll`).
-/

namespace TypeRecovery.DataType

mutual

/-- The classes that the pointers in a type name, at any depth. -/
def classIds : DataType → List ClassId
  | .pointer target => [target]
  | .array element _ => classIds element
  | .struct _ fields => classIdsFields fields
  | .union alternatives => classIdsList alternatives
  | .function params result _ => classIdsList params ++ classIds result
  | _ => []

/-- The classes that a list of types names. -/
def classIdsList : List DataType → List ClassId
  | [] => []
  | t :: ts => classIds t ++ classIdsList ts

/-- The classes that the types of fields name. -/
def classIdsFields : List (Field DataType) → List ClassId
  | [] => []
  | ⟨_, type, _⟩ :: fields => classIds type ++ classIdsFields fields

end

mutual

/-- Renaming the classes of a type renames the classes that it names. -/
lemma classIds_mapClasses (f : ClassId → ClassId) :
    ∀ t : DataType, (t.mapClasses f).classIds = t.classIds.map f
  | .void => rfl
  | .boolean => rfl
  | .integer _ _ => rfl
  | .pointer _ => rfl
  | .array element _ => by simp [mapClasses, classIds, classIds_mapClasses f element]
  | .struct _ fields => by simp [mapClasses, classIds, classIdsFields_mapClasses f fields]
  | .union ts => by simp [mapClasses, classIds, classIdsList_mapClasses f ts]
  | .function ts t _ => by
    simp [mapClasses, classIds, classIdsList_mapClasses f ts, classIds_mapClasses f t]

/-- Renaming the classes of a list of types renames the classes that it names. -/
lemma classIdsList_mapClasses (f : ClassId → ClassId) :
    ∀ ts : List DataType, classIdsList (mapClassesList f ts) = (classIdsList ts).map f
  | [] => rfl
  | t :: ts => by
    simp [mapClassesList, classIdsList, classIds_mapClasses f t, classIdsList_mapClasses f ts]

/-- Renaming the classes of a list of fields renames the classes that it names. -/
lemma classIdsFields_mapClasses (f : ClassId → ClassId) :
    ∀ fields : List (Field DataType),
      classIdsFields (mapClassesFields f fields) = (classIdsFields fields).map f
  | [] => rfl
  | ⟨_, t, _⟩ :: fields => by
    simp [mapClassesFields, classIdsFields, classIds_mapClasses f t,
      classIdsFields_mapClasses f fields]

end

/-- A list of types is renamed type by type. -/
lemma mapClassesList_eq (f : ClassId → ClassId) (ts : List DataType) :
    mapClassesList f ts = ts.map (mapClasses f) := by
  induction ts with
  | nil => rfl
  | cons t ts ih => rw [mapClassesList, ih, List.map_cons]

/-- A list of fields is renamed field by field. -/
lemma mapClassesFields_eq (f : ClassId → ClassId) (fields : List (Field DataType)) :
    mapClassesFields f fields =
      fields.map fun field => ⟨field.offset, field.type.mapClasses f, field.padding⟩ := by
  induction fields with
  | nil => rfl
  | cons field fields ih => rw [mapClassesFields, ih, List.map_cons]

/-- All classes that a type names are in `P`. -/
def Names (P : ClassId → Prop) (t : DataType) : Prop :=
  ∀ c ∈ t.classIds, P c

section
variable {P : ClassId → Prop}

/-- A list of types names what its types name. -/
lemma names_list {ts : List DataType} : (∀ c ∈ classIdsList ts, P c) ↔ ∀ t ∈ ts, t.Names P := by
  induction ts with
  | nil => simp [classIdsList]
  | cons t ts ih => simp [classIdsList, Names, or_imp, forall_and, ih]

/-- A list of fields names what the types of its fields name. -/
lemma names_fields {fields : List (Field DataType)} :
    (∀ c ∈ classIdsFields fields, P c) ↔ ∀ field ∈ fields, field.type.Names P := by
  induction fields with
  | nil => simp [classIdsFields]
  | cons field fields ih => simp [classIdsFields, Names, or_imp, forall_and, ih]

/-! ## Single constructors -/

/-- A type without pointers names nothing. -/
lemma names_of_classIds_eq_nil {t : DataType} (none : t.classIds = []) : t.Names P := by
  simp [Names, none]

/-- A pointer names its target. -/
lemma names_pointer {c : ClassId} : (pointer c).Names P ↔ P c := by
  simp [Names, classIds]

/-- An array names what its elements name. -/
lemma names_array {t : DataType} {n : Option UInt64} : (array t n).Names P ↔ t.Names P := by
  simp [Names, classIds]

/-- A structure names what its fields name. -/
lemma names_struct {n : UInt64} {fields : List (Field DataType)} :
    (struct n fields).Names P ↔ ∀ field ∈ fields, field.type.Names P :=
  names_fields

/-- A union names what its alternatives name. -/
lemma names_union {ts : List DataType} : (union ts).Names P ↔ ∀ t ∈ ts, t.Names P :=
  names_list

/-- A function names what its parameters and its result name. -/
lemma names_function {ts : List DataType} {t : DataType} {untyped : Bool} :
    (function ts t untyped).Names P ↔ (∀ t ∈ ts, t.Names P) ∧ t.Names P := by
  rw [← names_list]
  simp [Names, classIds, or_imp, forall_and]

/-! ## Joins -/

/-- A merge of types names no class that the types do not name. -/
def Keeps (P : ClassId → Prop) (merge : DataType → DataType → Option DataType) : Prop :=
  ∀ {a b t}, a.Names P → b.Names P → merge a b = some t → t.Names P

mutual

/-- The alternatives of a type name what the type names. -/
lemma names_leaves : ∀ {t : DataType}, t.Names P → ∀ u ∈ t.leaves, u.Names P
  | .void, _ => by simp [leaves]
  | .boolean, h => by simpa [leaves] using h
  | .integer _ _, h => by simpa [leaves] using h
  | .pointer _, h => by simpa [leaves] using h
  | .array _ _, h => by simpa [leaves] using h
  | .struct _ _, h => by simpa [leaves] using h
  | .union _, h => names_leavesList (names_union.1 h)
  | .function _ _ _, h => by simpa [leaves] using h

/-- The alternatives of a list of types name what the types name. -/
lemma names_leavesList : ∀ {ts : List DataType}, (∀ t ∈ ts, t.Names P) →
    ∀ u ∈ leavesList ts, u.Names P
  | [], _ => by simp [leavesList]
  | t :: ts, h => by
    intro u mem
    rcases List.mem_append.1 mem with mem | mem
    · exact names_leaves (h t List.mem_cons_self) u mem
    · exact names_leavesList (fun t mem => h t (List.mem_cons_of_mem _ mem)) u mem

end

/-- A type names what its alternatives name. -/
lemma names_ofAlternatives {ts : List DataType} (each : ∀ t ∈ ts, t.Names P) :
    (ofAlternatives ts).Names P := by
  match ts with
  | [] => exact names_of_classIds_eq_nil rfl
  | [t] => exact each t (List.mem_singleton_self t)
  | _ :: _ :: _ => exact names_union.2 each

/-- A union that is made by a merge names what its parts name. -/
lemma names_unionWith {merge : DataType → DataType → Option DataType} (keeps : Keeps P merge)
    {ts : List DataType} (each : ∀ t ∈ ts, t.Names P) : (unionWith merge ts).Names P :=
  names_ofAlternatives (Alternatives.forall_mem_insertAll keeps nofun (names_leavesList each))

/-- A join that is made by a merge names what its parts name. -/
lemma names_joinWith {merge : DataType → DataType → Option DataType} (keeps : Keeps P merge)
    {a b : DataType} (ha : a.Names P) (hb : b.Names P) : (joinWith merge a b).Names P := by
  have both : (unionWith merge [a, b]).Names P := by
    apply names_unionWith keeps
    simpa using ⟨ha, hb⟩
  rw [joinWith]
  split
  · exact both
  · cases merged : merge a b with
    | none => exact both
    | some t => exact keeps ha hb merged

/-- Joining two lists type by type names what the lists name. -/
lemma names_zipWith {join : DataType → DataType → DataType}
    (keeps : ∀ {a b}, a.Names P → b.Names P → (join a b).Names P) {ts us : List DataType}
    (hts : ∀ t ∈ ts, t.Names P) (hus : ∀ u ∈ us, u.Names P) :
    ∀ t ∈ List.zipWith join ts us, t.Names P := by
  intro t mem
  rw [← List.map_uncurry_zip_eq_zipWith] at mem
  obtain ⟨⟨a, b⟩, inside, rfl⟩ := List.mem_map.1 mem
  have := List.of_mem_zip inside
  exact keeps (hts a this.1) (hus b this.2)

/-- Merging names no class that the types do not name, if merging one level deeper does not. -/
lemma keeps_mergeWithin_of {depth : Nat}
    (deeper : ∀ d, depth = d + 1 → Keeps P (mergeWithin d)) : Keeps P (mergeWithin depth) := by
  intro a b t ha hb merged
  rw [mergeWithin.eq_def] at merged
  split at merged
  · cases merged
    exact hb
  split at merged
  · cases merged
    exact ha
  split at merged
  · cases merged
    exact ha
  split at merged
  · cases merged
    exact names_of_classIds_eq_nil rfl
  · cases merged
    exact hb
  · cases merged
    exact ha
  · cases merged
    exact ha
  · obtain ⟨joined, inner, rfl⟩ := Option.map_eq_some_iff.1 merged
    exact names_array.2 (deeper _ rfl (names_array.1 ha) (names_array.1 hb) inner)
  · rw [names_function] at ha hb
    split at merged
    · cases merged
      exact names_of_classIds_eq_nil rfl
    · cases merged
      have join := fun {a b} => names_joinWith (a := a) (b := b) (deeper _ rfl)
      exact names_function.2 ⟨names_zipWith join ha.1 hb.1, join ha.2 hb.2⟩
  · cases merged

/-- Merging to any depth names no class that the types do not name. -/
lemma keeps_mergeWithin (depth : Nat) : Keeps P (mergeWithin depth) := by
  induction depth with
  | zero => exact keeps_mergeWithin_of (by simp)
  | succ depth ih =>
    apply keeps_mergeWithin_of
    rintro d ⟨⟩
    exact ih

/-- A join names no class that its parts do not name. -/
lemma names_join {a b : DataType} (ha : a.Names P) (hb : b.Names P) : (join a b).Names P :=
  names_joinWith (keeps_mergeWithin _) ha hb

/-- The join of a list names no class that the list does not name. -/
lemma names_joinAll {ts : List DataType} (each : ∀ t ∈ ts, t.Names P) : (joinAll ts).Names P := by
  suffices h : ∀ acc : DataType, acc.Names P → (ts.foldl join acc).Names P from
    h .void (names_of_classIds_eq_nil rfl)
  induction ts with
  | nil => exact fun acc h => h
  | cons t ts ih =>
    intro acc h
    apply ih
    · exact fun u mem => each u (List.mem_cons_of_mem _ mem)
    · exact names_join h (each t List.mem_cons_self)

end

end TypeRecovery.DataType
