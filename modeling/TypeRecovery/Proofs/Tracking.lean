import TypeRecovery.Proofs.Account
import TypeRecovery.Proofs.Collection

/-!
# Collecting observations

What an operation reads and dereferences is collected without failing, and adds its observations to
those that the arena accounts for. The exception is an access that strays (`accessBase_strays`). The
tables of the collection are the part of the naming that later operations look up.
-/

namespace TypeRecovery

/-- An arena was made by a script that accounts for observations. -/
def Arena.Reflects (a : Arena) (obs : List Observation) (ν : Naming) : Prop :=
  ∃ script : Script, script.Gathers a ∧ script.Accounts obs ν

/-- A new variable for a value is accounted for by the use of the value. -/
lemma Arena.Reflects.addVariable {a : Arena} {obs : List Observation} {ν : Naming}
    (re : a.Reflects obs ν) {site : UseSite} {k : Value}
    (unnamed : ν k = none) (has : k.Has site) :
    (a.addVariable site).Reflects (obs ++ [.uses k]) (Function.update ν k (some a.store.next)) ∧
      ∀ {x fact}, a.Holds x fact → (a.addVariable site).Holds x fact := by
  obtain ⟨script, ga, ac⟩ := re
  have next : a.store.next = ⟨script.sites.length⟩ := congrArg VarId.mk ga.size
  have gb := ga.newVariable site
  refine ⟨⟨_, gb, ?_⟩, fun holds => gb.holds_iff.2 (ga.holds_iff.1 holds).append⟩
  rw [next]
  exact ac.newValue unnamed has

/-- An access at a fixed address lies more than the largest offset behind the start of its
segment. -/
def Operand.Strays (memory : MemoryMap) (offset : Int64) (base : Operand) (address : UInt64) :
    Prop :=
  ∃ place, base = .address place ∧ address = place + offset.toUInt64 ∧
    2 ^ 63 ≤ (memory.locate address).offset.toNat

/-- A result that an operand refers to was observed. -/
def Operand.Known (obs : List Observation) (operand : Operand) : Prop :=
  ∀ target, operand = .result target → .uses (.result target.toNat) ∈ obs

/-- What is known stays known when more is observed. -/
lemma Operand.Known.append {obs more : List Observation} {operand : Operand}
    (kn : operand.Known obs) : operand.Known (obs ++ more) :=
  fun target e => List.mem_append_left _ (kn target e)

namespace Collection

/-- The tables hold what a naming says. The operation at position `i` is being collected; it has read
`n` operands, and the results before `r` have names. -/
structure Tables (s : Collection) (ν : Naming) (i n r : Nat) : Prop where
  position : s.results.size = i
  storage : ∀ name, s.storage.lookup name = ν (.storage name)
  address : ∀ place, s.addresses.lookup place = ν (.address place)
  segment : ∀ name, s.segments.lookup name = ν (.segment name)
  result : ∀ {j}, j < i → s.results[j]? = some (ν (.result j))
  literals : ∀ {j m}, i < j ∨ i = j ∧ n ≤ m → ν (.literal j m) = none
  results : ∀ {j}, r ≤ j → ν (.result j) = none

/-- A collection that has made the observations `obs`. -/
structure Tracks (s : Collection) (obs : List Observation) (ν : Naming) (i n r : Nat) : Prop where
  reflects : s.arena.Reflects obs ν
  tables : s.Tables ν i n r

/-- One collection goes on from another: names and facts are kept. -/
structure Continues (s : Collection) (ν : Naming) (t : Collection) (ν' : Naming) : Prop where
  names : ∀ {k x}, ν k = some x → ν' k = some x
  holds : ∀ {x fact}, s.arena.Holds x fact → t.arena.Holds x fact

/-- A collection goes on from itself. -/
lemma Continues.refl (s : Collection) (ν : Naming) : s.Continues ν s ν :=
  ⟨fun name => name, fun holds => holds⟩

/-- A collection goes on from whatever an earlier one went on from. -/
lemma Continues.trans {s t u : Collection} {ν ν' ν'' : Naming} (co : s.Continues ν t ν')
    (co' : t.Continues ν' u ν'') : s.Continues ν u ν'' :=
  ⟨fun name => co'.names (co.names name), fun holds => co'.holds (co.holds holds)⟩

/-- Fewer names may be claimed to be free. -/
lemma Tracks.mono {s : Collection} {obs : List Observation} {ν : Naming} {i n r n' r' : Nat}
    (tr : s.Tracks obs ν i n r) (le : n ≤ n') (le' : r ≤ r') : s.Tracks obs ν i n' r' := by
  obtain ⟨reflects, position, storage, address, segment, result, literals, results⟩ := tr
  refine ⟨reflects, position, storage, address, segment, result, fun later => literals ?_,
    fun later => results (le'.trans later)⟩
  omega

/-- A value that was used has a variable. -/
lemma Tracks.confirms {s : Collection} {obs : List Observation} {ν : Naming} {i n r : Nat}
    (tr : s.Tracks obs ν i n r) {k : Value} (used : .uses k ∈ obs) : ∃ x, ν k = some x := by
  obtain ⟨script, _, ac⟩ := tr.reflects
  exact ac.confirms _ used

/-! ## Tables -/

/-- The tables do not depend on the arena. -/
lemma Tables.withArena {s : Collection} {ν : Naming} {i n r : Nat} (tb : s.Tables ν i n r)
    (b : Arena) : Tables { s with arena := b } ν i n r :=
  ⟨tb.position, tb.storage, tb.address, tb.segment, tb.result, tb.literals, tb.results⟩

/-- A new entry at the end of a table is found under its key, and the others under theirs. -/
lemma lookup_snoc {κ : Type} [DecidableEq κ] {table : List (κ × VarId)} {key : κ} {v : VarId}
    (new : table.lookup key = none) (other : κ) :
    (table ++ [(key, v)]).lookup other = if other = key then some v else table.lookup other := by
  rw [List.lookup_append]
  by_cases e : other = key
  · rw [e, new]
    simp
  · have unequal : (other == key) = false := by simp [e]
    simp [e, List.lookup_cons, unequal]

section
variable {s : Collection} {ν : Naming} {i n r : Nat}

/-- A literal gets a name, and the next operand is up. -/
lemma Tables.nameLiteral (tb : s.Tables ν i n r) (v : VarId) :
    s.Tables (Function.update ν (.literal i n) (some v)) i (n + 1) r where
  position := tb.position
  storage name := by simp [tb.storage]
  address place := by simp [tb.address]
  segment name := by simp [tb.segment]
  result lt := by simp [tb.result lt]
  literals {j m} later := by
    have ne : Value.literal j m ≠ .literal i n := by
      rintro ⟨⟩
      omega
    rw [Function.update_of_ne ne]
    apply tb.literals
    omega
  results later := by simp [tb.results later]

/-- The result of the operation gets a name. -/
lemma Tables.nameResult (tb : s.Tables ν i n i) (v : VarId) :
    s.Tables (Function.update ν (.result i) (some v)) i n (i + 1) where
  position := tb.position
  storage name := by simp [tb.storage]
  address place := by simp [tb.address]
  segment name := by simp [tb.segment]
  result {j} lt := by simp [tb.result lt, lt.ne]
  literals later := by simp [tb.literals later]
  results {j} later := by
    have ne : Value.result j ≠ .result i := by
      rintro ⟨⟩
      omega
    rw [Function.update_of_ne ne]
    apply tb.results
    omega

/-- A name of storage is noted in its table. -/
lemma Tables.nameStorage (tb : s.Tables ν i n r) (b : Arena) {name : String} (v : VarId)
    (unnamed : ν (.storage name) = none) :
    Tables { s with arena := b, storage := s.storage ++ [(name, v)] }
      (Function.update ν (.storage name) (some v)) i n r where
  position := tb.position
  storage other := by
    simp [lookup_snoc ((tb.storage name).trans unnamed), tb.storage, Function.update_apply]
  address place := by simp [tb.address]
  segment other := by simp [tb.segment]
  result lt := by simp [tb.result lt]
  literals later := by simp [tb.literals later]
  results later := by simp [tb.results later]

/-- A fixed address is noted in its table. -/
lemma Tables.nameAddress (tb : s.Tables ν i n r) (b : Arena) {place : UInt64} (v : VarId)
    (unnamed : ν (.address place) = none) :
    Tables { s with arena := b, addresses := s.addresses ++ [(place, v)] }
      (Function.update ν (.address place) (some v)) i n r where
  position := tb.position
  storage name := by simp [tb.storage]
  address other := by
    simp [lookup_snoc ((tb.address place).trans unnamed), tb.address, Function.update_apply]
  segment name := by simp [tb.segment]
  result lt := by simp [tb.result lt]
  literals later := by simp [tb.literals later]
  results later := by simp [tb.results later]

/-- A segment is noted in its table. -/
lemma Tables.nameSegment (tb : s.Tables ν i n r) (b : Arena) {name : String} (v : VarId)
    (unnamed : ν (.segment name) = none) :
    Tables { s with arena := b, segments := s.segments ++ [(name, v)] }
      (Function.update ν (.segment name) (some v)) i n r where
  position := tb.position
  storage other := by simp [tb.storage]
  address place := by simp [tb.address]
  segment other := by
    simp [lookup_snoc ((tb.segment name).trans unnamed), tb.segment, Function.update_apply]
  result lt := by simp [tb.result lt]
  literals later := by simp [tb.literals later]
  results later := by simp [tb.results later]

end

/-- The collection starts with nothing observed. -/
lemma start_tracks : (start .empty).Tracks [] (fun _ => none) 0 0 0 where
  reflects := ⟨[], .empty, .empty⟩
  tables := by
    refine ⟨rfl, fun _ => rfl, fun _ => rfl, fun _ => rfl, ?_, fun _ => rfl, fun _ => rfl⟩
    intro j lt
    omega

end Collection

namespace CollectM

open Collection

section
variable {s t : Collection} {obs more : List Observation} {ν : Naming} {i n r : Nat}

/-! ## Steps on the arena -/

/-- A step that a longer script accounts for succeeds. -/
lemma perform_reflects {a : Arena} {script : Script} {step : Step} {ν' : Naming}
    (ga : script.Gathers a) (sc : step.Scoped a.size)
    (ac : Script.Accounts (script ++ [step]) more ν') :
    ∃ b, step.perform a = .ok () b ∧ b.Reflects more ν' ∧
      (∀ {x fact}, a.Holds x fact → b.Holds x fact) ∧
      ∀ {x position fact}, step = .constrain x position fact → b.Holds x fact := by
  obtain ⟨b, run, gb⟩ := ga.perform_step sc
  refine ⟨b, run, ⟨_, gb, ac⟩, fun holds => ?_, ?_⟩
  · exact gb.holds_iff.2 (ga.holds_iff.1 holds).append
  · rintro x position fact rfl
    exact gb.holds_iff.2 ⟨position, List.mem_append_right _ List.mem_cons_self⟩

/-- A new fact that is accounted for. -/
lemma constrain_tracks {script : Script} {x : VarId} {position : Nat} {fact : Fact}
    (tables : s.Tables ν i n r) (ga : script.Gathers s.arena)
    (sc : (Step.constrain x position fact).Scoped s.arena.size)
    (ac : Script.Accounts (script ++ [.constrain x position fact]) more ν) :
    ∃ t, constrain x position fact s = .ok () t ∧ t.Tracks more ν i n r ∧
      s.Continues ν t ν ∧ t.arena.Holds x fact := by
  obtain ⟨b, run, reflects, holds, added⟩ := perform_reflects ga sc ac
  exact ⟨_, onArena_eq_ok.2 ⟨_, run, rfl⟩, ⟨reflects, tables.withArena b⟩, ⟨fun name => name, holds⟩,
    added rfl⟩

/-- Something is told of a value. -/
lemma tell_tracks (tr : s.Tracks obs ν i n r) {k : Value} {x : VarId} (name : ν k = some x)
    (position : Nat) (fact : Fact) (about : fact.isAboutPointee = false)
    (plain : fact.target? = none) :
    ∃ t, constrain x position fact s = .ok () t ∧ t.Tracks (obs ++ [.tells k fact]) ν i n r ∧
      s.Continues ν t ν := by
  obtain ⟨script, ga, ac⟩ := tr.reflects
  obtain ⟨t, run, tracks, continues, _⟩ := constrain_tracks tr.tables ga
    ⟨ac.lt_of_named ga name, by simp [plain]⟩ (ac.tell name about plain position)
  exact ⟨t, run, tracks, continues⟩

/-- A fact about what a pointer points into that forces nothing together. -/
lemma note_tracks (tr : s.Tracks obs ν i n r) {p : Value} {x target : VarId} (name : ν p = some x)
    (points : s.arena.Holds x (.pointsTo target)) (position : Nat) (fact : Fact)
    (about : fact.isAboutPointee = true) (whole : fact.linked? = none)
    (code : ∀ {site}, fact = .callSite site → p.isSegment = false) :
    ∃ t, constrain target position fact s = .ok () t ∧ t.Tracks obs ν i n r ∧
      s.Continues ν t ν := by
  obtain ⟨script, ga, ac⟩ := tr.reflects
  have stated := ga.holds_iff.1 points
  have plain : fact.target? = none := by cases fact <;> first | rfl | cases whole
  obtain ⟨t, run, tracks, continues, _⟩ := constrain_tracks tr.tables ga
    ⟨ac.lt_of_pointsTo ga stated, by simp [plain]⟩ (ac.note name stated about whole code position)
  exact ⟨t, run, tracks, continues⟩

/-- A part of what a pointer points into is accessed. -/
lemma access_tracks (tr : s.Tracks obs ν i n r) {p k : Value} {x target y : VarId}
    (name : ν p = some x) (points : s.arena.Holds x (.pointsTo target)) (name' : ν k = some y)
    (position : Nat) (part : Part) :
    ∃ t, constrain target position (part.fact y) s = .ok () t ∧
      t.Tracks (obs ++ [.accesses p part k]) ν i n r ∧ s.Continues ν t ν := by
  obtain ⟨script, ga, ac⟩ := tr.reflects
  have stated := ga.holds_iff.1 points
  have sc : (Step.constrain target position (part.fact y)).Scoped s.arena.size :=
    ⟨ac.lt_of_pointsTo ga stated, by cases part <;> rintro t ⟨⟩⟩
  obtain ⟨t, run, tracks, continues, _⟩ :=
    constrain_tracks tr.tables ga sc (ac.access name stated name' position)
  exact ⟨t, run, tracks, continues⟩

/-- Two values are made equal. -/
lemma unify_tracks (tr : s.Tracks obs ν i n r) {k l : Value} {x y : VarId} (name : ν k = some x)
    (name' : ν l = some y) :
    ∃ t, unify x y s = .ok () t ∧ t.Tracks (obs ++ [.equates k l]) ν i n r ∧
      s.Continues ν t ν := by
  obtain ⟨script, ga, ac⟩ := tr.reflects
  have sc : (Step.unify x y).Scoped s.arena.size :=
    ⟨ac.lt_of_named ga name, ac.lt_of_named ga name'⟩
  obtain ⟨b, run, reflects, holds, _⟩ := perform_reflects ga sc (ac.equate name name')
  obtain ⟨c, m, merged, same⟩ := bind_eq_ok.1 run
  obtain ⟨_, rfl⟩ := pure_eq_ok.1 same
  refine ⟨_, ?_, ⟨reflects, tr.tables.withArena m⟩, ⟨fun name => name, holds⟩⟩
  rw [unify, bind_of_ok (onArena_eq_ok.2 ⟨_, merged, rfl⟩)]
  rfl

/-- A variable is made for a value that has none, and the tables take notice. -/
lemma fresh_tracks (note : VarId → Collection → Collection) (tr : s.Tracks obs ν i n r)
    {site : UseSite} {k : Value} {n' r' : Nat} (unnamed : ν k = none) (has : k.Has site)
    (arena : ∀ v m, (note v m).arena = m.arena)
    (tables : ∀ v b, Tables (note v { s with arena := b }) (Function.update ν k (some v)) i n' r') :
    ∃ v t ν', newVariable site s = .ok v t ∧ (note v t).Tracks (obs ++ [.uses k]) ν' i n' r' ∧
      s.Continues ν (note v t) ν' ∧ ν' k = some v := by
  obtain ⟨reflects, holds⟩ := tr.reflects.addVariable unnamed has
  refine ⟨s.arena.store.next, { s with arena := s.arena.addVariable site }, _, rfl,
    ⟨?_, tables _ _⟩, ⟨Script.extends_update unnamed, fun held => ?_⟩, Function.update_self ..⟩
  · rw [arena]
    exact reflects
  · rw [arena]
    exact holds held

/-! ## Operands -/

/-- A value that has a variable is used again. -/
lemma use_tracks (tr : s.Tracks obs ν i n r) {k : Value} {x : VarId} (name : ν k = some x) :
    s.Tracks (obs ++ [.uses k]) ν i n r := by
  obtain ⟨⟨script, ga, ac⟩, tables⟩ := tr
  exact ⟨⟨script, ga, ac.use name⟩, tables⟩

/-- A variable that is looked up in a table, or made and noted in it. -/
lemma lookup_tracks {κ β : Type} [BEq κ] {table : List (κ × VarId)} {key : κ} {k : Value}
    (site : UseSite) (note : VarId → Collection → Collection) (old new : VarId → β)
    (tr : s.Tracks obs ν i n r) (known : table.lookup key = ν k) (has : k.Has site)
    (arena : ∀ v m, (note v m).arena = m.arena)
    (tables : ∀ v b, ν k = none →
      Tables (note v { s with arena := b }) (Function.update ν k (some v)) i n r) :
    ∃ v q t ν', (match table.lookup key with
      | some v => pure (old v)
      | none => do
        let v ← newVariable site
        modify (note v)
        return new v : CollectM β) s = .ok q t ∧ (q = old v ∨ q = new v) ∧
      t.Tracks (obs ++ [.uses k]) ν' i n r ∧ s.Continues ν t ν' ∧ ν' k = some v := by
  cases found : table.lookup key with
  | some v =>
    rw [known] at found
    exact ⟨v, old v, s, ν, rfl, .inl rfl, use_tracks tr found, .refl s ν, found⟩
  | none =>
    rw [known] at found
    obtain ⟨v, t, ν', made, tracks, continues, name⟩ :=
      fresh_tracks note tr found has arena fun v b => tables v b found
    refine ⟨v, new v, note v t, ν', ?_, .inr rfl, tracks, continues, name⟩
    show (newVariable site >>= _) s = _
    rw [bind_of_ok made]
    rfl

/-- A name of storage has a variable after it was read. -/
lemma storage_tracks (tr : s.Tracks obs ν i n r) (name : String) :
    ∃ v t ν', storage name s = .ok v t ∧ t.Tracks (obs ++ [.uses (.storage name)]) ν' i n r ∧
      s.Continues ν t ν' ∧ ν' (.storage name) = some v := by
  obtain ⟨_, v, t, ν', run, rfl | rfl, rest⟩ := lookup_tracks (.storage name)
    (fun v s => { s with storage := s.storage ++ [(name, v)] }) (fun v => v) (fun v => v) tr
    (tr.tables.storage name) ⟨rfl, by simp, by simp⟩ (fun _ _ => rfl) fun v b => tr.tables.nameStorage b v
  · exact ⟨v, t, ν', run, rest⟩
  · exact ⟨v, t, ν', run, rest⟩

/-- A fixed address has a variable after it was read. -/
lemma address_tracks (tr : s.Tracks obs ν i n r) (place : UInt64) :
    ∃ v t ν', address place s = .ok v t ∧ t.Tracks (obs ++ [.uses (.address place)]) ν' i n r ∧
      s.Continues ν t ν' ∧ ν' (.address place) = some v := by
  obtain ⟨_, v, t, ν', run, rfl | rfl, rest⟩ := lookup_tracks (.address place)
    (fun v s => { s with addresses := s.addresses ++ [(place, v)] }) (fun v => v) (fun v => v) tr
    (tr.tables.address place) ⟨rfl, by simp, by simp⟩ (fun _ _ => rfl) fun v b => tr.tables.nameAddress b v
  · exact ⟨v, t, ν', run, rest⟩
  · exact ⟨v, t, ν', run, rest⟩

/-- A segment has a variable after it was accessed. -/
lemma segment_tracks (tr : s.Tracks obs ν i n r) (name : String) :
    ∃ v new t ν', segment name s = .ok (v, new) t ∧
      t.Tracks (obs ++ [.uses (.segment name)]) ν' i n r ∧
      s.Continues ν t ν' ∧ ν' (.segment name) = some v := by
  obtain ⟨v, _, t, ν', run, rfl | rfl, rest⟩ := lookup_tracks (.segment name)
    (fun v s => { s with segments := s.segments ++ [(name, v)] }) (fun v => (v, false))
    (fun v => (v, true)) tr (tr.tables.segment name) ⟨rfl, by simp, by simp⟩ (fun _ _ => rfl)
    fun v b => tr.tables.nameSegment b v
  · exact ⟨v, false, t, ν', run, rest⟩
  · exact ⟨v, true, t, ν', run, rest⟩

/-- A literal gets a new variable, and something is told of it. -/
lemma literal_tracks (tr : s.Tracks obs ν i n r) {k : Value} {n' r' : Nat} (value : Int64)
    (width : UInt8) (unnamed : ν k = none) (has : k.Has (.literal i value))
    (tables : ∀ v, s.Tables (Function.update ν k (some v)) i n' r') :
    ∃ v t ν', literal i value width s = .ok v t ∧
      t.Tracks (obs ++ [.uses k, .tells k (Operand.literalFact value width)]) ν' i n' r' ∧
      s.Continues ν t ν' ∧ ν' k = some v := by
  obtain ⟨v, m, ν', made, tracks, continues, name⟩ :=
    fresh_tracks (fun _ m => m) tr unnamed has (fun _ _ => rfl)
      fun v b => (tables v).withArena b
  have about : (Operand.literalFact value width).isAboutPointee = false := by
    rw [Operand.literalFact]
    split <;> rfl
  have plain : (Operand.literalFact value width).target? = none := by
    rw [Operand.literalFact]
    split <;> rfl
  obtain ⟨t, told, tracks, continues'⟩ := tell_tracks tracks name i _ about plain
  rw [List.append_assoc] at tracks
  refine ⟨v, t, ν', ?_, tracks, continues.trans continues', name⟩
  rw [literal, bind_of_ok made]
  exact bind_of_ok told

/-- An operand is read. -/
lemma operand_tracks (tr : s.Tracks obs ν i n i) {this : Operand} (known : this.Known obs) :
    ∃ v t ν', operand i this s = .ok v t ∧ t.Tracks (obs ++ this.observations i n) ν' i (n + 1) i ∧
      s.Continues ν t ν' ∧ ν' (this.value i n) = some v := by
  cases this with
  | storage name =>
    obtain ⟨v, t, ν', run, tracks, rest⟩ := storage_tracks tr name
    exact ⟨v, t, ν', run, tracks.mono (Nat.le_succ n) (le_refl i), rest⟩
  | literal value width =>
    have unnamed : ν (.literal i n) = none := tr.tables.literals (.inr ⟨rfl, le_refl n⟩)
    exact literal_tracks tr value width unnamed ⟨rfl, by simp, by simp⟩ tr.tables.nameLiteral
  | address place =>
    obtain ⟨v, t, ν', run, tracks, rest⟩ := address_tracks tr place
    exact ⟨v, t, ν', run, tracks.mono (Nat.le_succ n) (le_refl i), rest⟩
  | result target =>
    obtain ⟨v, name⟩ := tr.confirms (known target rfl)
    have earlier : target.toNat < i := by
      apply Nat.lt_of_not_le
      intro later
      rw [tr.tables.results later] at name
      cases name
    refine ⟨v, s, ν, ?_, ?_, .refl s ν, name⟩
    · rw [operand, bind_of_ok (get_run s), tr.tables.result earlier, name]
      rfl
    · rw [Operand.observations, List.append_nil]
      exact tr.mono (Nat.le_succ n) (le_refl i)

/-- Operands are read one after the other. -/
lemma operands_tracks {these : List Operand} (tr : s.Tracks obs ν i n i)
    (known : ∀ this ∈ these, this.Known obs) :
    ∃ vs t ν' n', these.mapM (operand i) s = .ok vs t ∧
      t.Tracks (obs ++ Operand.observationsFrom i n these) ν' i n' i ∧ s.Continues ν t ν' := by
  induction these generalizing s obs ν n with
  | nil =>
    refine ⟨[], s, ν, n, rfl, ?_, .refl s ν⟩
    rw [Operand.observationsFrom, List.append_nil]
    exact tr
  | cons this these ih =>
    obtain ⟨v, m, ν', run, tracks, continues, _⟩ :=
      operand_tracks tr (known this List.mem_cons_self)
    obtain ⟨vs, t, ν'', n', run', tracks', continues'⟩ := ih tracks fun other mem =>
      (known other (List.mem_cons_of_mem _ mem)).append
    rw [List.append_assoc] at tracks'
    refine ⟨v :: vs, t, ν'', n', ?_, tracks', continues.trans continues'⟩
    rw [List.mapM_cons, bind_of_ok run, bind_of_ok run']
    rfl

/-! ## Bases of accesses -/

/-- A value is dereferenced. -/
lemma pointee_tracks (tr : s.Tracks obs ν i n r) {k : Value} {x : VarId} (name : ν k = some x)
    (position : Nat) :
    ∃ target t, pointee x position s = .ok target t ∧
      t.Tracks (obs ++ [.dereferences k]) ν i n r ∧ s.Continues ν t ν ∧
      t.arena.Holds x (.pointsTo target) := by
  obtain ⟨script, ga, ac⟩ := tr.reflects
  have lt := ac.lt_of_named ga name
  obtain ⟨record, _, found, gathered⟩ := ga.gathered lt
  have looked : onArena (ArenaM.classFor x) s = .ok record s :=
    onArena_eq_ok.2 ⟨_, ArenaM.classFor_eq_ok.2 ⟨found, rfl⟩, rfl⟩
  rw [pointee, bind_of_ok looked]
  cases known : record.target? with
  | some target =>
    obtain ⟨c, mem, points⟩ := List.exists_of_findSome?_eq_some known
    obtain ⟨mem, linked⟩ := (gathered.mem_constraints c).1 mem
    have stated : script.States c.subject (.pointsTo target) := by
      rw [← ga.holds_iff, ga.coherent.holds_iff]
      exact ⟨c, mem, rfl, Fact.target?_eq_some.1 points⟩
    obtain ⟨t, run, rest⟩ := constrain_tracks tr.tables ga
      ⟨lt, by rintro u ⟨⟩; exact ac.lt_of_pointsTo ga stated⟩
      (ac.dereference name stated linked position)
    exact ⟨target, t, bind_of_ok run, rest⟩
  | none =>
    -- the variable for the pointee and the pointer to it are one step of the account
    have gb := ga.newVariable (.pointee x)
    have next : s.arena.store.next = ⟨script.sites.length⟩ := congrArg VarId.mk ga.size
    have ac' := ac.dereferenceNew name position
    rw [← next, List.append_cons] at ac'
    have sc : (Step.constrain x position (.pointsTo s.arena.store.next)).Scoped
        (s.arena.addVariable (.pointee x)).size := by
      rw [Arena.size_addVariable]
      refine ⟨Nat.lt_succ_of_lt lt, ?_⟩
      rintro u ⟨⟩
      exact Nat.lt_succ_self _
    let made : Collection :=
      { s with
        arena := s.arena.addVariable (.pointee x)
        pointees := s.pointees ++ [s.arena.store.next] }
    have tables : made.Tables ν i n r :=
      ⟨tr.tables.position, tr.tables.storage, tr.tables.address, tr.tables.segment,
        tr.tables.result, tr.tables.literals, tr.tables.results⟩
    obtain ⟨t, run, tracks, continues, holds⟩ := constrain_tracks (s := made) tables gb sc ac'
    refine ⟨s.arena.store.next, t, bind_of_ok run, tracks, ⟨fun name => name, fun held => ?_⟩,
      holds⟩
    exact continues.holds (gb.holds_iff.2 (ga.holds_iff.1 held).append)

/-- An access at a fixed address that is in range. -/
lemma fixedBase_tracks {memory : MemoryMap} {place : UInt64} {offset : Int64} {location : Location}
    (tr : s.Tracks obs ν i n r) (here : memory.locate (place + offset.toUInt64) = location)
    (fits : location.offset.toNat < 2 ^ 63) :
    ∃ target t ν' x, fixedBase memory i place offset s = .ok (target, location.offset.toInt64) t ∧
      t.Tracks (obs ++ [.uses (.segment location.segment),
        .dereferences (.segment location.segment)]) ν' i n r ∧
      s.Continues ν t ν' ∧ ν' (.segment location.segment) = some x ∧
      t.arena.Holds x (.pointsTo target) := by
  have inside : ¬ Int64.maxValue.toInt < location.offset.toNat := by
    have max : Int64.maxValue.toInt = 2 ^ 63 - 1 := rfl
    omega
  obtain ⟨x, new, m, ν', run₁, tr₁, co₁, name⟩ := segment_tracks tr location.segment
  obtain ⟨target, m', run₂, tr₂, co₂, points⟩ := pointee_tracks tr₁ name i
  rw [List.append_assoc] at tr₂
  simp only [fixedBase, here, if_neg inside, bind_of_ok run₁, bind_of_ok run₂]
  cases new with
  | true =>
    cases location.size with
    | some size =>
      obtain ⟨t, run₃, tr₃, co₃⟩ :=
        note_tracks tr₂ name points i (.extent size) rfl rfl fun call => by cases call
      exact ⟨target, t, ν', x, bind_of_ok run₃, tr₃, co₁.trans (co₂.trans co₃), name,
        co₃.holds points⟩
    | none => exact ⟨target, m', ν', x, rfl, tr₂, co₁.trans co₂, name, points⟩
  | false => exact ⟨target, m', ν', x, rfl, tr₂, co₁.trans co₂, name, points⟩

/-- An access that does not stray gets to what it goes to. -/
lemma accessBase_tracks {memory : MemoryMap} {base : Operand} {offset : Int64}
    (tr : s.Tracks obs ν i n i) (known : base.Known obs)
    (fits : ∀ address, ¬ base.Strays memory offset address) :
    ∃ target t ν' x, accessBase memory i base offset s = .ok (target, base.place memory offset) t ∧
      t.Tracks (obs ++ base.baseObservations memory i n offset) ν' i (n + 1) i ∧
      s.Continues ν t ν' ∧ ν' (base.pointer memory i n offset) = some x ∧
      t.arena.Holds x (.pointsTo target) := by
  have through : ∃ target t ν' x, (do
      let pointer ← operand i base
      return (← pointee pointer i, offset) : CollectM (VarId × Int64)) s = .ok (target, offset) t ∧
      t.Tracks (obs ++ (base.observations i n ++ [.dereferences (base.value i n)])) ν' i (n + 1) i ∧
      s.Continues ν t ν' ∧ ν' (base.value i n) = some x ∧ t.arena.Holds x (.pointsTo target) := by
    obtain ⟨x, m, ν', run, tr₁, co₁, name⟩ := operand_tracks tr known
    obtain ⟨target, t, run', tr₂, co₂, points⟩ := pointee_tracks tr₁ name i
    rw [List.append_assoc] at tr₂
    refine ⟨target, t, ν', x, ?_, tr₂, co₁.trans co₂, name, points⟩
    rw [bind_of_ok run, bind_of_ok run']
    rfl
  cases base with
  | address place =>
    have inside : (memory.locate (place + offset.toUInt64)).offset.toNat < 2 ^ 63 :=
      Nat.lt_of_not_le fun strays => fits _ ⟨place, rfl, rfl, strays⟩
    obtain ⟨target, t, ν', x, run, tracks, rest⟩ := fixedBase_tracks tr rfl inside
    exact ⟨target, t, ν', x, run, tracks.mono (Nat.le_succ n) (le_refl i), rest⟩
  | storage name => exact through
  | literal value width => exact through
  | result target => exact through

/-- An access that strays fails with the address. -/
lemma accessBase_strays {memory : MemoryMap} {base : Operand} {offset : Int64} {address : UInt64}
    (strays : base.Strays memory offset address) (s : Collection) :
    accessBase memory i base offset s = .error (.addressOutOfRange i address) s := by
  obtain ⟨place, rfl, rfl, outside⟩ := strays
  have beyond : Int64.maxValue.toInt <
      (memory.locate (place + offset.toUInt64)).offset.toNat := by
    have max : Int64.maxValue.toInt = 2 ^ 63 - 1 := rfl
    omega
  show fixedBase memory i place offset s = _
  simp only [fixedBase, if_pos beyond]
  rfl

end

end CollectM

end TypeRecovery
