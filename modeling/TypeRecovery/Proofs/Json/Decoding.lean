import Mathlib.Data.List.Nodup
import TypeRecovery.Json.Decoder
import TypeRecovery.Proofs.Json.Text

/-!
# Decoders that read what was written

`Reads limit levels d j x` says that `j` is a plain value of at most `levels` levels of nesting, and
that the decoder `d` finds `x` in it wherever that many levels may still be entered, and fewer than
`limit`. Each way to put decoders together has one lemma, so that a codec is shown to be right by
naming the members of its records (`Supplies`). A decoder that reads a value finds it in whatever a
printer makes of the value, provided that a reader gives back what was printed (`Reads.run_print`).
Nothing else is asked of the two, so texts are one case among others (`Format.text`).
-/

namespace TypeRecovery

open Decoder

namespace Json

/-! ## Levels of nesting -/

/-- A list of values is readable if each of them is. -/
lemma areReadable_iff {room : Nat} {items : List Json} :
    areReadable room items = true ↔ ∀ j ∈ items, j.isReadable room = true := by
  induction items with
  | nil => simp [areReadable]
  | cons item items ih => rw [areReadable, Bool.and_eq_true, ih, List.forall_mem_cons]

/-- A list of members is readable if the value of each of them is. -/
lemma membersReadable_iff {room : Nat} {members : List (String × Json)} :
    membersReadable room members = true ↔ ∀ m ∈ members, m.2.isReadable room = true := by
  induction members with
  | nil => simp [membersReadable]
  | cons member members ih => rw [membersReadable, Bool.and_eq_true, ih, List.forall_mem_cons]

/-- A plain value that takes no more than `levels` levels of nesting. -/
structure Fits (levels : Nat) (j : Json) : Prop where
  plain : j.Plain
  readable : ∀ {room}, levels ≤ room → j.isReadable room = true

namespace Fits

variable {levels : Nat}

/-- A value that fits into some levels fits into more. -/
lemma mono {levels' : Nat} {j : Json} (fits : j.Fits levels) (le : levels ≤ levels') :
    j.Fits levels' :=
  ⟨fits.plain, fun within => fits.readable (le.trans within)⟩

/-- An integer of 64 bits fits anywhere. -/
lemma integer {n : Int} (fits : FitsInteger n) : (Json.integer n).Fits levels :=
  ⟨fits, fun _ => rfl⟩

/-- An array takes one level more than its items. -/
lemma array {items : List Json} (each : ∀ j ∈ items, j.Fits levels) :
    (Json.array items).Fits (levels + 1) := by
  refine ⟨plainItems_iff.2 fun j among => (each j among).plain, fun {room} within => ?_⟩
  obtain _ | room := room
  · exact absurd within (Nat.not_succ_le_zero _)
  · exact areReadable_iff.2 fun j among => (each j among).readable (Nat.le_of_succ_le_succ within)

/-- An object takes one level more than the values of its members. -/
lemma object {members : List (String × Json)} (each : ∀ m ∈ members, m.2.Fits levels) :
    (Json.object members).Fits (levels + 1) := by
  refine ⟨plainMembers_iff.2 fun m among => (each m among).plain, fun {room} within => ?_⟩
  obtain _ | room := room
  · exact absurd within (Nat.not_succ_le_zero _)
  · exact membersReadable_iff.2 fun m among => (each m among).readable (Nat.le_of_succ_le_succ within)

/-- One more member that is a string changes nothing about the levels of an object. -/
lemma cons_string {members : List (String × Json)} (fits : (Json.object members).Fits (levels + 1))
    (key s : String) : (Json.object ((key, .string s) :: members)).Fits (levels + 1) := by
  refine ⟨⟨trivial, fits.plain⟩, fun {room} within => ?_⟩
  obtain _ | room := room
  · exact absurd within (Nat.not_succ_le_zero _)
  · exact fits.readable within

end Fits

/-! ## Printers and readers -/

/-- A printer and a reader that agree on the values that take no more levels of nesting than a reader
enters. -/
structure Format (τ : Type) where
  print : Json → τ
  read : τ → Option Json
  read_print : ∀ {j}, j.Fits depthLimit → read (print j) = some j

/-- The texts of a layout. -/
def Format.text (layout : Layout) : Format String where
  print j := j.textIn layout
  read := Json.read
  read_print fits := read_textIn fits.plain layout

end Json

namespace Decoder

variable {α β γ δ ε : Type} {limit levels : Nat}

/-- A partial map that succeeds for each member of a list succeeds for the list. -/
lemma mapM_map_eq_some {f : α → β} {g : β → Option γ} {h : α → γ} {xs : List α}
    (each : ∀ x ∈ xs, g (f x) = some (h x)) : (xs.map f).mapM g = some (xs.map h) := by
  induction xs with
  | nil => rfl
  | cons x xs ih =>
    rw [List.map_cons, List.mapM_cons, each x List.mem_cons_self,
      ih fun y among => each y (List.mem_cons_of_mem x among)]
    rfl

/-- The decoder `d` finds `x` in `j`. -/
structure Reads (limit levels : Nat) (d : Decoder α) (j : Json) (x : α) : Prop where
  fits : j.Fits levels
  found : ∀ {room}, levels ≤ room → room < limit → d room j = some x

namespace Reads

/-- What is read with some room is read with more levels below a lower limit. -/
lemma mono {levels' limit' : Nat} {d : Decoder α} {j : Json} {x : α} (h : Reads limit levels d j x)
    (le : levels ≤ levels') (less : limit' ≤ limit) : Reads limit' levels' d j x :=
  ⟨h.fits.mono le, fun within below => h.found (le.trans within) (below.trans_le less)⟩

/-- A value is found in what is printed of it, whatever the format. -/
theorem run_print {τ : Type} (format : Json.Format τ) {d : Decoder α} {j : Json} {x : α}
    (h : Reads (depthLimit + 1) depthLimit d j x) :
    (format.read (format.print j)).bind d.run = some x := by
  rw [format.read_print h.fits]
  exact h.found (Nat.le_refl _) (Nat.lt_succ_self _)

/-! ## Scalars -/

/-- A natural number below the bound is read back. -/
lemma nat {n bound : Nat} (small : n < bound) (word : bound ≤ UInt64.size) :
    Reads limit levels (.nat bound) (.ofNat n) n := by
  refine ⟨.integer ⟨?_, by omega⟩, fun _ _ => ?_⟩
  · have : Int64.minValue.toInt ≤ 0 := by decide
    omega
  · have inside : (0 : Int) ≤ n ∧ (n : Int) < bound := by omega
    exact if_pos inside

/-- What is read is mapped. -/
lemma map {d : Decoder α} {j : Json} {x : α} (h : Reads limit levels d j x) (f : α → β) :
    Reads limit levels (d.map f) j (f x) :=
  ⟨h.fits, fun within below => congrArg (Option.map f) (h.found within below)⟩

/-- What is read and kept is mapped. -/
lemma filterMap {d : Decoder α} {f : α → Option β} {j : Json} {x : α} {y : β}
    (h : Reads limit levels d j x) (kept : f x = some y) :
    Reads limit levels (d.filterMap f) j y := by
  refine ⟨h.fits, fun within below => ?_⟩
  rw [Decoder.filterMap, h.found within below]
  exact kept

/-- A number of 8 bits is read back. -/
lemma uint8 (n : UInt8) : Reads limit levels .uint8 (.ofNat n.toNat) n := by
  have h : Reads limit levels (.nat UInt8.size) (.ofNat n.toNat) n.toNat :=
    nat n.toNat_lt (by decide)
  have back := h.map UInt8.ofNat
  rwa [UInt8.ofNat_toNat] at back

/-- A number of 32 bits is read back. -/
lemma uint32 (n : UInt32) : Reads limit levels .uint32 (.ofNat n.toNat) n := by
  have h : Reads limit levels (.nat UInt32.size) (.ofNat n.toNat) n.toNat :=
    nat n.toNat_lt (by decide)
  have back := h.map UInt32.ofNat
  rwa [UInt32.ofNat_toNat] at back

/-- A number of 64 bits is read back. -/
lemma uint64 (n : UInt64) : Reads limit levels .uint64 (.ofNat n.toNat) n := by
  have h : Reads limit levels (.nat UInt64.size) (.ofNat n.toNat) n.toNat :=
    nat n.toNat_lt (by decide)
  have back := h.map UInt64.ofNat
  rwa [UInt64.ofNat_toNat] at back

/-- A signed number of 64 bits is read back. -/
lemma int64 (i : Int64) : Reads limit levels .int64 (.integer i.toInt) i := by
  have low := i.minValue_le_toInt
  have high : i.toInt ≤ Int64.maxValue.toInt := i.toInt_le
  have max : Int64.maxValue.toInt < UInt64.size := by decide
  refine ⟨.integer ⟨low, by omega⟩, fun _ _ => ?_⟩
  have back := Int64.ofInt_toInt i
  exact (if_pos ⟨low, high⟩).trans (congrArg some back)

/-- A truth value is read back. -/
lemma bool (b : Bool) : Reads limit levels .bool (.bool b) b :=
  ⟨⟨trivial, fun _ => rfl⟩, fun _ _ => rfl⟩

/-- A string is read back. -/
lemma string (s : String) : Reads limit levels .string (.string s) s :=
  ⟨⟨trivial, fun _ => rfl⟩, fun _ _ => rfl⟩

/-! ## Composites -/

/-- What is not `null` is read as something. -/
lemma nonnull {d : Decoder α} {j : Json} {x : α} (h : Reads limit levels d j x) (proper : j ≠ .null) :
    Reads limit levels (.option d) j (some x) := by
  refine ⟨h.fits, fun {room} within below => ?_⟩
  rw [Decoder.option.eq_2 d room j proper, h.found within below]
  rfl

/-- A value that may be missing is read back, provided that none is written as `null`. -/
lemma ofOption {d : Decoder α} {encode : α → Json} {o : Option α}
    (each : ∀ x ∈ o, Reads limit levels d (encode x) x) (proper : ∀ x, encode x ≠ .null) :
    Reads limit levels (.option d) (.ofOption encode o) o := by
  cases o with
  | none => exact ⟨⟨trivial, fun _ => rfl⟩, fun _ _ => rfl⟩
  | some x => exact (each x rfl).nonnull (proper x)

/-- A list is read back one level deeper than its members. -/
lemma ofList {d : Decoder α} {encode : α → Json} {xs : List α}
    (each : ∀ x ∈ xs, Reads limit levels d (encode x) x) :
    Reads (limit + 1) (levels + 1) (.list d) (.ofList encode xs) xs := by
  refine ⟨.array fun j among => ?_, fun {room} within below => ?_⟩
  · obtain ⟨x, inside, rfl⟩ := List.mem_map.1 among
    exact (each x inside).fits
  · obtain _ | room := room
    · exact absurd within (Nat.not_succ_le_zero _)
    · have found := mapM_map_eq_some fun x among =>
        (each x among).found (Nat.le_of_succ_le_succ within) (Nat.lt_of_succ_lt_succ below)
      rwa [List.map_id'] at found

/-- An alternative without data. -/
lemma bare {build : Nat → String → Option Json → Option α} {tag : String} {x : α}
    (picks : ∀ room, build room tag none = some x) :
    Reads limit levels (.choice build) (.string tag) x :=
  ⟨⟨trivial, fun _ => rfl⟩, fun {room} _ _ => by rw [choice, picks]⟩

/-- A name is read as what it is listed for. -/
lemma name {names : List (String × α)} {tag : String} {x : α}
    (listed : names.lookup tag = some x) : Reads limit levels (.oneOf names) (.string tag) x :=
  .bare fun _ => by rw [listed, Option.bind_some, Decoder.plain]

/-- An alternative and its data. -/
lemma tagged {d : Decoder α} {build : Nat → String → Option Json → Option α} {tag : String}
    {body : Json} {x : α} (h : Reads limit levels d body x)
    (picks : ∀ room, build room tag (some body) = d room body) :
    Reads (limit + 1) (levels + 1) (.choice build) (.tagged tag body) x := by
  refine ⟨.object (List.forall_mem_singleton.2 h.fits), fun {room} within below => ?_⟩
  obtain _ | room := room
  · exact absurd within (Nat.not_succ_le_zero _)
  · exact (picks room).trans
      (h.found (Nat.le_of_succ_le_succ within) (Nat.lt_of_succ_lt_succ below))

end Reads

/-! ## Records -/

/-- What a text says about a member that an object has or leaves out. -/
def Member.ofOption : Option Json → Member
  | some j => .given j
  | none => .omitted

/-- The members of an object, out of the fields of a record that may be left out. -/
def present (fields : List (String × Option Json)) : List (String × Json) :=
  fields.flatMap fun field => (field.2.map (field.1, ·)).toList

/-- The members of two lists of fields are those of the one and then those of the other. -/
lemma present_append (fields fields' : List (String × Option Json)) :
    present (fields ++ fields') = present fields ++ present fields' :=
  List.flatMap_append

/-- A member that is written if there is a value is a field that may be left out. -/
lemma memberIfSome_eq_present (key : String) (encode : α → Json) (o : Option α) :
    Json.memberIfSome key encode o = present [(key, o.map encode)] := by
  cases o <;> rfl

/-- A member that is written if a flag is set is a field that may be left out. -/
lemma memberIfTrue_eq_present (key : String) (flag : Bool) :
    Json.memberIfTrue key flag = present [(key, if flag then some (.bool true) else none)] := by
  cases flag <;> rfl

/-- The members of some fields are that of the first one and then those of the others. -/
lemma present_cons (field : String × Option Json) (fields : List (String × Option Json)) :
    present (field :: fields) = present [field] ++ present fields :=
  present_append [field] fields

/-- What holds of the values of all fields holds of the members of the object. -/
lemma forall_mem_present {p : Json → Prop} {fields : List (String × Option Json)}
    (each : ∀ field ∈ fields, ∀ j ∈ field.2, p j) : ∀ member ∈ present fields, p member.2 := by
  intro member among
  obtain ⟨⟨key, o⟩, inside, given⟩ := List.mem_flatMap.1 among
  obtain ⟨j, value, rfl⟩ := Option.map_eq_some_iff.1 (Option.mem_toList.1 given)
  exact each _ inside j value

/-- No member has a key that no field has. -/
lemma filter_present_of_not_mem {fields : List (String × Option Json)} {key : String}
    (absent : key ∉ fields.map Prod.fst) :
    (present fields).filter (fun member => member.1 == key) = [] := by
  rw [List.filter_eq_nil_iff]
  intro member among same
  obtain ⟨⟨other, o⟩, inside, given⟩ := List.mem_flatMap.1 among
  obtain ⟨j, value, rfl⟩ := Option.map_eq_some_iff.1 (Option.mem_toList.1 given)
  exact absent (beq_iff_eq.1 same ▸ List.mem_map_of_mem inside)

/-- Only the field with the key is left when others are filtered out. -/
lemma filter_present {fields : List (String × Option Json)} (distinct : (fields.map Prod.fst).Nodup)
    {field : String × Option Json} (among : field ∈ fields) :
    (present fields).filter (fun member => member.1 == field.1) = present [field] := by
  induction fields with
  | nil => exact absurd among List.not_mem_nil
  | cons first fields ih =>
    obtain ⟨fresh, distinct⟩ := List.nodup_cons.1 distinct
    rw [present_cons, List.filter_append]
    rcases List.mem_cons.1 among with rfl | later
    · rw [filter_present_of_not_mem fresh, List.append_nil]
      obtain ⟨key, _ | j⟩ := field
      · rfl
      · simp [present]
    · have ne : field.1 ∉ [first].map Prod.fst := by
        intro same
        exact fresh (List.mem_singleton.1 same ▸ List.mem_map_of_mem later)
      rw [filter_present_of_not_mem ne, ih distinct later, List.nil_append]

/-- A field of a record with different keys is found as it was given or left out. -/
lemma lookup_present {fields : List (String × Option Json)} (distinct : (fields.map Prod.fst).Nodup)
    {field : String × Option Json} (among : field ∈ fields) :
    lookup (present fields) field.1 = some (.ofOption field.2) := by
  rw [lookup, filter_present distinct among]
  obtain ⟨key, _ | j⟩ := field <;> rfl

/-- A field that is given or left out says `x`. -/
structure Supplies (limit levels : Nat) (read : Nat → Member → Option α) (o : Option Json) (x : α) :
    Prop where
  fits : ∀ j ∈ o, j.Fits levels
  found : ∀ {room}, levels ≤ room → room < limit → read room (.ofOption o) = some x

/-- A required field says what is read in it. -/
lemma Reads.required {d : Decoder α} {j : Json} {x : α} (h : Reads limit levels d j x) :
    Supplies limit levels (required d) (some j) x :=
  ⟨fun _ same => Option.mem_some.1 same ▸ h.fits, h.found⟩

/-- An optional field that is given says what is read in it. -/
lemma Reads.optional {d : Decoder α} {j : Json} {o : Option α}
    (h : Reads limit levels (.option d) j o) : Supplies limit levels (optional d) (some j) o :=
  ⟨fun _ same => Option.mem_some.1 same ▸ h.fits, h.found⟩

/-- A field with a default that is given says what is read in it. -/
lemma Reads.defaulted {d : Decoder α} {j : Json} {x : α} (h : Reads limit levels d j x)
    (fallback : α) : Supplies limit levels (defaulted d fallback) (some j) x :=
  ⟨fun _ same => Option.mem_some.1 same ▸ h.fits, h.found⟩

/-- A field with a default that is left out says the default. -/
lemma Supplies.omitted {d : Decoder α} {fallback : α} :
    Supplies limit levels (defaulted d fallback) none fallback :=
  ⟨fun _ given => absurd given (Option.not_mem_none _), fun _ _ => rfl⟩

/-- A field that is written if there is a value says whether there is one, and which. -/
lemma Supplies.ifSome {d : Decoder α} {encode : α → Json} {o : Option α}
    (each : ∀ x ∈ o, Reads limit levels d (encode x) x) (proper : ∀ x, encode x ≠ .null) :
    Supplies limit levels (defaulted (.option d) none) (o.map encode) o := by
  cases o with
  | none => exact omitted
  | some x => exact ((each x rfl).nonnull (proper x)).defaulted none

/-- A field that is written if a flag is set says whether it is. -/
lemma Supplies.ifTrue (flag : Bool) :
    Supplies limit levels (defaulted .bool false) (if flag then some (.bool true) else none) flag := by
  cases flag with
  | false => exact omitted
  | true => exact (Reads.bool true).defaulted false

/-- The members that the fields of a record say have the property `P`. -/
structure SuppliesAll (limit levels : Nat) (fields : List (String × Option Json))
    (P : Nat → List Member → Prop) : Prop where
  fits : ∀ field ∈ fields, ∀ j ∈ field.2, j.Fits levels
  known : ∀ {room}, levels ≤ room → room < limit →
    P room (fields.map fun field => .ofOption field.2)

/-- No fields say nothing. -/
lemma SuppliesAll.nil : SuppliesAll limit levels [] fun _ members => members = [] :=
  ⟨List.forall_mem_nil _, fun _ _ => rfl⟩

/-- A field in front of others says its value, and they say what they did. -/
lemma Supplies.and {key : String} {read : Nat → Member → Option α} {o : Option Json} {x : α}
    {fields : List (String × Option Json)} {P : Nat → List Member → Prop}
    (h : Supplies limit levels read o x) (rest : SuppliesAll limit levels fields P) :
    SuppliesAll limit levels ((key, o) :: fields) fun room members =>
      ∃ m others, members = m :: others ∧ read room m = some x ∧ P room others := by
  refine ⟨List.forall_mem_cons.2 ⟨h.fits, rest.fits⟩, fun within below => ?_⟩
  exact ⟨_, _, rfl, h.found within below, rest.known within below⟩

/-- A record is built from what its fields say. -/
theorem Reads.record {keys : List String} {fields : List (String × Option Json)}
    {P : Nat → List Member → Prop} {build : Nat → List Member → Option α} {x : α}
    (all : SuppliesAll limit levels fields P) (named : fields.map Prod.fst = keys)
    (distinct : keys.Nodup) (built : ∀ room members, P room members → build room members = some x) :
    Reads (limit + 1) (levels + 1) (.record keys build) (.object (present fields)) x := by
  refine ⟨.object (forall_mem_present all.fits), fun {room} within below => ?_⟩
  obtain _ | room := room
  · exact absurd within (Nat.not_succ_le_zero _)
  · subst named
    have found : members? (fields.map Prod.fst) (.object (present fields)) =
        some (fields.map fun field => .ofOption field.2) :=
      mapM_map_eq_some fun field among => lookup_present distinct among
    rw [Decoder.record, found]
    exact built room _ (all.known (Nat.le_of_succ_le_succ within) (Nat.lt_of_succ_lt_succ below))

end Decoder

end TypeRecovery
