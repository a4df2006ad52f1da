import TypeRecovery.Listing.Codec
import TypeRecovery.Proofs.Resolution.Nesting

/-!
# The text of listings

A listing is portable if its variables and classes have numbers of 32 bits, its positions and counts
have 64 bits, and its types do not nest deeper than verdicts do. Whatever portable listing is written,
the same listing is read (`Listing.Portable.reads`): the use of each variable, a first type that is
known or left out, and remarks, which have their kind among their members. That holds of every format
that keeps values of few levels (`Listing.Portable.run_print`).
-/

namespace TypeRecovery

open Decoder

variable {α β : Type} {limit levels : Nat}

/-- A type of no more levels than verdicts have, of classes with numbers of 32 bits. -/
structure DataType.Portable (t : DataType) : Prop where
  nests : t.Nests 18
  names : t.Names (·.index < UInt32.size)

/-- A portable type is read back. -/
lemma DataType.Portable.reads {t : DataType} (portable : t.Portable) :
    Reads (depthLimit + 1) 18 decoder t.toJson t :=
  DataType.reads portable.nests portable.names _

/-- The state of a class is read back. -/
lemma ClassState.reads (s : ClassState) : Reads limit levels decoder s.toJson s :=
  .name (by cases s <;> rfl)

/-! ## Uses -/

namespace UseSite

/-- A use with a position of 64 bits, or of a pointer with a number of 32 bits. -/
def Portable : UseSite → Prop
  | .literal position _ => position < UInt64.size
  | .expression position _ => position < UInt64.size
  | .pointee pointer => pointer.index < UInt32.size
  | _ => True

/-- A use that is written as one member is read back. -/
lemma reads_oneMember {key : String} {d : Decoder α} {build : α → UseSite} {j : Json} {x : α}
    (read : Reads limit levels d j x) :
    Reads (limit + 1) (levels + 1) (oneMember key d build) (.object [(key, j)]) (build x) := by
  refine Reads.record (read.required.and .nil) rfl (List.nodup_singleton key) ?_
  rintro room _ ⟨_, _, rfl, member, rfl⟩
  simp only [member]
  rfl

/-- A use that is written as a position and one more member is read back. -/
lemma reads_positioned {key : String} (other : key ≠ "position") {d : Decoder α}
    {build : Nat → α → UseSite} {position : Nat} (small : position < UInt64.size) {j : Json} {x : α}
    (read : Reads limit levels d j x) :
    Reads (limit + 1) (levels + 1) (positioned key d build)
      (.object [("position", .ofNat position), (key, j)]) (build position x) := by
  have count : Reads limit levels .count (.ofNat position) position := .nat small (Nat.le_refl _)
  refine Reads.record (count.required.and <| read.required.and .nil) rfl ?_ ?_
  · simpa using other.symm
  · rintro room _ ⟨_, _, rfl, position, _, _, rfl, member, rfl⟩
    simp only [position, member]
    rfl

/-- A portable use is read back. -/
lemma reads {site : UseSite} (portable : site.Portable) :
    Reads (limit + 2) (levels + 2) decoder site.toJson site := by
  cases site with
  | storage name =>
    exact (reads_oneMember (Reads.string name)).tagged fun _ => by simp only [carrying]
  | literal position value =>
    exact (reads_positioned (by decide) portable (Reads.int64 value)).tagged fun _ => by
      simp only [carrying]
  | expression position text =>
    exact (reads_positioned (by decide) portable (Reads.string text)).tagged fun _ => by
      simp only [carrying]
  | address place =>
    exact (reads_oneMember (Reads.uint64 place)).tagged fun _ => by simp only [carrying]
  | segment name =>
    exact (reads_oneMember (Reads.string name)).tagged fun _ => by simp only [carrying]
  | pointee pointer =>
    exact (reads_oneMember (VarId.reads portable)).tagged fun _ => by simp only [carrying]

end UseSite

/-! ## Remarks -/

namespace Remark

/-- A remark about a class and a variable with numbers of 32 bits, with counts of 64 bits. -/
structure Portable (n : Remark) : Prop where
  subject : n.subject.index < UInt32.size
  unknown : ∀ v ∈ n.unknown?, v.index < UInt32.size
  counts : n.Counts

/-- A remark about nothing but a class is read back. -/
lemma reads_alone {build : ClassId → Remark} {c : ClassId} (small : c.index < UInt32.size) :
    Reads (limit + 1) (levels + 1) (alone build) (.object [("class", c.toJson)]) (build c) := by
  refine Reads.record ((ClassId.reads small).required.and .nil) rfl (by decide) ?_
  rintro room _ ⟨_, _, rfl, subject, rfl⟩
  simp only [subject]
  rfl

/-- A remark about a class with one more member is read back. -/
lemma reads_withOne {key : String} (other : key ≠ "class") {d : Decoder α}
    {build : ClassId → α → Remark} {c : ClassId} (small : c.index < UInt32.size) {j : Json} {x : α}
    (read : Reads limit levels d j x) :
    Reads (limit + 1) (levels + 1) (withOne key d build) (.object [("class", c.toJson), (key, j)])
      (build c x) := by
  refine Reads.record ((ClassId.reads small).required.and <| read.required.and .nil) rfl ?_ ?_
  · simpa using other.symm
  · rintro room _ ⟨_, _, rfl, subject, _, _, rfl, member, rfl⟩
    simp only [subject, member]
    rfl

/-- A remark about a class with two more members is read back. -/
lemma reads_withTwo {key key' : String} (distinct : ["class", key, key'].Nodup) {d : Decoder α}
    {d' : Decoder β} {build : ClassId → α → β → Remark} {c : ClassId}
    (small : c.index < UInt32.size) {j j' : Json} {x : α} {y : β} (read : Reads limit levels d j x)
    (read' : Reads limit levels d' j' y) :
    Reads (limit + 1) (levels + 1) (withTwo key d key' d' build)
      (.object [("class", c.toJson), (key, j), (key', j')]) (build c x y) := by
  refine Reads.record ((ClassId.reads small).required.and <| read.required.and <|
    read'.required.and .nil) rfl distinct ?_
  rintro room _ ⟨_, _, rfl, subject, _, _, rfl, first, _, _, rfl, second, rfl⟩
  simp only [subject, first, second]
  rfl

/-- The remark that a variable was not assigned is read back. -/
lemma reads_unassigned {unknown : VarId} (small : unknown.index < UInt32.size) {c : ClassId}
    (small' : c.index < UInt32.size) :
    Reads (limit + 1) (levels + 1) unassignedDecoder
      (.object [("variable", unknown.toJson), ("class", c.toJson)]) (.unassigned unknown c) := by
  refine Reads.record ((VarId.reads small).required.and <| (ClassId.reads small').required.and .nil)
    rfl (by decide) ?_
  rintro room _ ⟨_, _, rfl, unknown, _, _, rfl, subject, rfl⟩
  simp only [unknown, subject]
  rfl

/-- The members of a remark besides its kind. -/
lemma reads_members {n : Remark} (portable : n.Portable) :
    ∃ d, decoderOf n.kindName = some d ∧ Reads (limit + 2) (levels + 2) d (.object n.members) n := by
  have count : ∀ {k : Nat}, k < UInt64.size →
      Reads (limit + 1) (levels + 1) .count (.ofNat k) k := fun small => .nat small (Nat.le_refl _)
  have subject := portable.subject
  have counts := portable.counts
  cases n with
  | kindConflict c scalarAt pointerAt =>
    exact ⟨_, by simp only [kindName, decoderOf],
      reads_withTwo (by decide) subject (count counts.1) (count counts.2)⟩
  | fieldUnion c offset alternatives =>
    exact ⟨_, by simp only [kindName, decoderOf],
      reads_withTwo (by decide) subject (.int64 offset) (count counts)⟩
  | overlappingFields c first second =>
    exact ⟨_, by simp only [kindName, decoderOf],
      reads_withTwo (by decide) subject (.int64 first) (.int64 second)⟩
  | recursiveLayout c offset =>
    exact ⟨_, by simp only [kindName, decoderOf], reads_withOne (by decide) subject (.int64 offset)⟩
  | divergentArity c arities =>
    have each : Reads (limit + 1) (levels + 1) (.list .count) (.ofList Json.ofNat arities) arities :=
      .ofList fun k mem => .nat (counts k mem) (Nat.le_refl _)
    exact ⟨_, by simp only [kindName, decoderOf], reads_withOne (by decide) subject each⟩
  | paramConflict c index =>
    exact ⟨_, by simp only [kindName, decoderOf], reads_withOne (by decide) subject (count counts)⟩
  | mixedCodeData c => exact ⟨_, by simp only [kindName, decoderOf], reads_alone subject⟩
  | unassigned v c =>
    exact ⟨_, by simp only [kindName, decoderOf],
      reads_unassigned (portable.unknown v rfl) subject⟩
  | stridedPointer c step =>
    exact ⟨_, by simp only [kindName, decoderOf], reads_withOne (by decide) subject (.int64 step)⟩

/-- No other member is taken for the kind. -/
lemma splitKind_toJson (n : Remark) : splitKind n.toJson = some (n.kindName, .object n.members) := by
  cases n <;> rfl

/-- A portable remark is read back from its kind and its other members. -/
lemma reads {n : Remark} (portable : n.Portable) :
    Reads (limit + 2) (levels + 2) decoder n.toJson n := by
  obtain ⟨d, named, read⟩ :
      ∃ d, decoderOf n.kindName = some d ∧ Reads (limit + 2) (levels + 2) d (.object n.members) n :=
    reads_members portable
  have fits : n.toJson.Fits (levels + 2) := read.fits.cons_string "kind" n.kindName
  refine ⟨fits, fun within below => ?_⟩
  rw [decoder, if_pos (fits.readable within), splitKind_toJson]
  show (decoderOf n.kindName).bind _ = _
  rw [named]
  exact read.found within below

end Remark

/-! ## Entries -/

/-- A class with a portable type, and with members that have numbers of 32 bits. -/
structure ClassEntry.Portable (c : ClassEntry) : Prop where
  id : c.id.index < UInt32.size
  dataType : c.dataType.Portable
  members : ∀ v ∈ c.members, v.index < UInt32.size

/-- A variable with a portable use and a portable first type, if it has one. -/
structure VariableEntry.Portable (v : VariableEntry) : Prop where
  id : v.id.index < UInt32.size
  site : v.site.Portable
  holder : v.holder.index < UInt32.size
  firstType : ∀ t ∈ v.firstType, t.Portable

/-- A declared portable type of a variable with a number of 32 bits. -/
structure Declaration.Portable (d : Declaration) : Prop where
  subject : d.subject.index < UInt32.size
  dataType : d.dataType.Portable

/-- A portable class is read back. -/
lemma ClassEntry.Portable.reads {c : ClassEntry} (portable : c.Portable) :
    Reads (depthLimit + 2) 19 decoder c.toJson c := by
  have holds : Reads (depthLimit + 1) 18 (.list VarId.decoder) (.ofList VarId.toJson c.members)
      c.members := .ofList fun v mem => VarId.reads (portable.members v mem)
  refine Reads.record ((ClassId.reads portable.id).required.and <| c.state.reads.required.and <|
    portable.dataType.reads.required.and <| holds.required.and .nil) rfl (by decide) ?_
  rintro room _ ⟨_, _, rfl, id, _, _, rfl, state, _, _, rfl, dataType, _, _, rfl, holds, rfl⟩
  simp only [id, state, dataType, holds]
  rfl

/-- A portable variable is read back. -/
lemma VariableEntry.Portable.reads {v : VariableEntry} (portable : v.Portable) :
    Reads (depthLimit + 2) 19 decoder v.toJson v := by
  have site : Reads (depthLimit + 1) 18 UseSite.decoder v.site.toJson v.site :=
    UseSite.reads portable.site
  have firstType : Supplies (depthLimit + 1) 18 (defaulted (.option DataType.decoder) none)
      (v.firstType.map DataType.toJson) v.firstType :=
    .ifSome (fun t mem => (portable.firstType t mem).reads) DataType.toJson_ne_null
  rw [toJson, memberIfSome_eq_present]
  refine Reads.record ((VarId.reads portable.id).required.and <| site.required.and <|
    (ClassId.reads portable.holder).required.and <| firstType.and .nil) rfl (by decide) ?_
  rintro room _ ⟨_, _, rfl, id, _, _, rfl, site, _, _, rfl, holder, _, _, rfl, firstType, rfl⟩
  simp only [id, site, holder, firstType]
  rfl

/-- A portable declaration is read back. -/
lemma Declaration.Portable.reads {d : Declaration} (portable : d.Portable) :
    Reads (depthLimit + 2) 19 decoder d.toJson d := by
  refine Reads.record ((ClassId.reads portable.subject).required.and <|
    portable.dataType.reads.required.and .nil) rfl (by decide) ?_
  rintro room _ ⟨_, _, rfl, subject, _, _, rfl, dataType, rfl⟩
  simp only [subject, dataType]
  rfl

/-! ## Listings -/

/-- A listing of portable entries. -/
structure Listing.Portable (l : Listing) : Prop where
  classes : ∀ c ∈ l.classes, c.Portable
  vars : ∀ v ∈ l.vars, v.Portable
  declarations : ∀ d ∈ l.declarations, d.Portable
  remarks : ∀ n ∈ l.remarks, n.Portable

/-- A portable listing takes 21 levels of nesting: three around each type. -/
theorem Listing.Portable.reads {l : Listing} (portable : l.Portable) :
    Reads (depthLimit + 4) 21 decoder l.toJson l := by
  have classes : Reads (depthLimit + 3) 20 (.list ClassEntry.decoder)
      (.ofList ClassEntry.toJson l.classes) l.classes :=
    .ofList fun c mem => (portable.classes c mem).reads
  have vars : Reads (depthLimit + 3) 20 (.list VariableEntry.decoder)
      (.ofList VariableEntry.toJson l.vars) l.vars :=
    .ofList fun v mem => (portable.vars v mem).reads
  have declarations : Reads (depthLimit + 3) 20 (.list Declaration.decoder)
      (.ofList Declaration.toJson l.declarations) l.declarations :=
    .ofList fun d mem => (portable.declarations d mem).reads
  have remarks : Reads (depthLimit + 3) 20 (.list Remark.decoder)
      (.ofList Remark.toJson l.remarks) l.remarks :=
    .ofList fun n mem => Remark.reads (portable.remarks n mem)
  refine Reads.record ((Reads.string l.function).required.and <| classes.required.and <|
    vars.required.and <| declarations.required.and <| remarks.required.and .nil) rfl (by decide) ?_
  rintro room _ ⟨_, _, rfl, function, _, _, rfl, classes, _, _, rfl, vars, _, _, rfl, declarations,
    _, _, rfl, remarks, rfl⟩
  simp only [function, classes, vars, declarations, remarks]
  rfl

/-- That is fewer levels than a reader enters. -/
lemma Listing.Portable.reads_within {l : Listing} (portable : l.Portable) :
    Reads (depthLimit + 1) depthLimit decoder l.toJson l :=
  portable.reads.mono (by decide) (by decide)

/-- A portable listing is read back from what is printed of it, whatever the format. -/
theorem Listing.Portable.run_print {l : Listing} (portable : l.Portable) {τ : Type}
    (format : Json.Format τ) : (format.read (format.print l.toJson)).bind decoder.run = some l :=
  portable.reads_within.run_print format

/-- So it is read back from its text, in either layout. -/
lemma Listing.Portable.ofJsonText?_textIn {l : Listing} (portable : l.Portable)
    (layout : Json.Layout) : ofJsonText? (l.toJson.textIn layout) = some l :=
  portable.run_print (.text layout)

end TypeRecovery
