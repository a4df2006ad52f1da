import TypeRecovery.Proofs.Json.Decoding
import TypeRecovery.Trace.Codec

/-!
# The text of records

Whatever records are written, the same records are read, with every field that they have and without
those that they lack, in every format that keeps values of few levels (`run_print_list`). So a text of
records has the verdict of the records themselves (`ofText_records`).
-/

namespace TypeRecovery

open Decoder

variable {limit levels : Nat}

/-- A literal operand is read back from its two members. -/
lemma Operand.reads_literal (value : Int64) (width : UInt8) :
    Reads (limit + 1) (levels + 1) literalDecoder
      (.object [("value", .integer value.toInt), ("width", .ofNat width.toNat)])
      (literal value width) := by
  refine Reads.record ((Reads.int64 value).required.and <| (Reads.uint8 width).required.and .nil)
    rfl (by decide) ?_
  rintro room _ ⟨_, _, rfl, value, _, _, rfl, width, rfl⟩
  simp only [value, width]
  rfl

/-- An operand is read back. -/
lemma Operand.reads (o : Operand) : Reads (limit + 2) (levels + 2) decoder o.toJson o := by
  cases o with
  | storage name =>
    exact ((Reads.string name).map storage).tagged fun _ => by simp only [carrying]
  | address place =>
    exact ((Reads.uint64 place).map address).tagged fun _ => by simp only [carrying]
  | result position =>
    exact ((Reads.uint64 position).map result).tagged fun _ => by simp only [carrying]
  | literal value width =>
    exact (reads_literal value width).tagged fun _ => by simp only [carrying]

/-- No operand is written as `null`. -/
lemma Operand.toJson_ne_null (o : Operand) : o.toJson ≠ .null := by
  cases o <;> exact Json.noConfusion

/-- A comparison is read back. -/
lemma Comparison.reads (c : Comparison) : Reads limit levels decoder c.toJson c :=
  .name (by cases c <;> rfl)

/-- An operator on bits is read back. -/
lemma BitOperator.reads (b : BitOperator) : Reads limit levels decoder b.toJson b :=
  .name (by cases b <;> rfl)

/-- The kind of a record is read back. -/
lemma RecordKind.reads (k : RecordKind) : Reads limit levels decoder k.toJson k :=
  .name (by cases k <;> rfl)

namespace TraceRecord

/-- The fields of a record, in order. -/
def fields (r : TraceRecord) : List (String × Option Json) :=
  [("address", some (.ofNat r.address.toNat)),
    ("kind", some (.ofOption RecordKind.toJson r.kind)),
    ("operands", some (.ofList Operand.toJson r.operands)),
    ("offset", r.offset.map fun i => .integer i.toInt),
    ("width", r.width.map fun n => .ofNat n.toNat),
    ("stride", r.stride.map fun n => .ofNat n.toNat),
    ("step", r.step.map fun i => .integer i.toInt),
    ("value", r.value.map fun i => .integer i.toInt),
    ("cmp", r.comparison.map Comparison.toJson),
    ("bit", r.bitOperator.map BitOperator.toJson),
    ("arg_count", r.argCount.map fun i => .integer i.toInt),
    ("result_used", some (.bool r.resultUsed)),
    ("dst", r.destination.map Operand.toJson)]

/-- A record is written as an object of the fields that it has. -/
lemma toJson_eq_present (r : TraceRecord) : r.toJson = .object (present r.fields) := by
  simp only [toJson, fields, memberIfSome_eq_present, present, List.flatMap_cons, List.flatMap_nil,
    List.append_assoc, List.append_nil, List.cons_append, List.nil_append, Option.map_some,
    Option.toList_some]

/-- A record is read back from its fields. -/
lemma reads (r : TraceRecord) : Reads (limit + 4) (levels + 4) decoder r.toJson r := by
  have integer : ∀ o : Option Int64, Supplies (limit + 3) (levels + 3)
      (defaulted (.option .int64) none) (o.map fun i => .integer i.toInt) o :=
    fun o => .ifSome (fun i _ => .int64 i) fun _ => Json.noConfusion
  have kind : Reads (limit + 3) (levels + 3) (.option RecordKind.decoder)
      (.ofOption RecordKind.toJson r.kind) r.kind :=
    .ofOption (fun k _ => k.reads) fun _ => Json.noConfusion
  have operands : Reads (limit + 3) (levels + 3) (.list Operand.decoder)
      (.ofList Operand.toJson r.operands) r.operands :=
    .ofList fun o _ => o.reads
  rw [toJson_eq_present]
  refine Reads.record (((Reads.uint64 r.address).defaulted 0).and <| (kind.defaulted none).and <|
    (operands.defaulted []).and <| (integer r.offset).and <|
    (Supplies.ifSome (fun n _ => Reads.uint8 n) fun _ => Json.noConfusion).and <|
    (Supplies.ifSome (fun n _ => Reads.uint32 n) fun _ => Json.noConfusion).and <|
    (integer r.step).and <| (integer r.value).and <|
    (Supplies.ifSome (fun c _ => c.reads) fun _ => Json.noConfusion).and <|
    (Supplies.ifSome (fun b _ => b.reads) fun _ => Json.noConfusion).and <|
    (integer r.argCount).and <| ((Reads.bool r.resultUsed).defaulted false).and <|
    (Supplies.ifSome (fun o _ => o.reads) Operand.toJson_ne_null).and .nil) rfl (by decide) ?_
  rintro room _ ⟨_, _, rfl, address, _, _, rfl, kind, _, _, rfl, operands, _, _, rfl, offset, _, _,
    rfl, width, _, _, rfl, stride, _, _, rfl, step, _, _, rfl, value, _, _, rfl, comparison, _, _, rfl,
    bitOperator, _, _, rfl, argCount, _, _, rfl, resultUsed, _, _, rfl, destination, rfl⟩
  simp only [address, kind, operands, offset, width, stride, step, value, comparison, bitOperator,
    argCount, resultUsed, destination]
  rfl

/-- A list of records is read back within the levels that a reader enters. -/
lemma reads_list (rs : List TraceRecord) :
    Reads (depthLimit + 1) depthLimit listDecoder (listToJson rs) rs :=
  .ofList fun r _ => r.reads

/-- Records are read back from what is printed of them, whatever the format. -/
lemma run_print_list {τ : Type} (format : Json.Format τ) (rs : List TraceRecord) :
    (format.read (format.print (listToJson rs))).bind listDecoder.run = some rs :=
  (reads_list rs).run_print format

end TraceRecord

/-- A text in which records are found is accepted or refused as they are. -/
lemma Trace.ofText_of_read {text : String} {rs : List TraceRecord}
    (read : (Json.read text).bind TraceRecord.listDecoder.run = some rs) :
    ofText text = (ingest rs).mapError .flawed := by
  obtain ⟨j, there, found⟩ := Option.bind_eq_some_iff.1 read
  rw [ofText, there]
  simp only [ofJson, found]

/-- The records are read back from their JSON form and from its text, in either layout, so that the
text is accepted or refused as the records are. -/
theorem Trace.ofText_records (rs : List TraceRecord) (layout : Json.Layout) :
    TraceRecord.listDecoder.run (TraceRecord.listToJson rs) = some rs ∧
      (Json.read ((TraceRecord.listToJson rs).textIn layout)).bind TraceRecord.listDecoder.run =
        some rs ∧
      Trace.ofText ((TraceRecord.listToJson rs).textIn layout) =
        (Trace.ingest rs).mapError .flawed := by
  have read : (Json.read ((TraceRecord.listToJson rs).textIn layout)).bind
      TraceRecord.listDecoder.run = some rs := TraceRecord.run_print_list (.text layout) rs
  refine ⟨?_, read, ofText_of_read read⟩
  exact (TraceRecord.reads_list rs).found (Nat.le_refl _) (Nat.lt_succ_self _)

end TypeRecovery
