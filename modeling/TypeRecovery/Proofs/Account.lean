import TypeRecovery.Proofs.Arena.Kinds
import TypeRecovery.Proofs.Arena.MergeOrder
import TypeRecovery.Proofs.Observation

/-!
# Scripts that account for observations

A naming gives the values that were observed their variables. `Accounts` ties a script to
observations both ways: every observation is confirmed by a step of the script, and every step is
explained by an observation. What pointers point into has no name; it is known by the pointers.

The main statement is `congruent_iff`: what the evidence of the arena forces together is what the
observations join, whatever variables were made on the way.
-/

namespace TypeRecovery

/-- The variables of the values that were observed. -/
abbrev Naming :=
  Value → Option VarId

/-- A use that a value has. Named storage and segments are used under their names. -/
structure Value.Has (k : Value) (site : UseSite) : Prop where
  value : site.isPointee = false
  storage : ∀ name, site = .storage name ↔ k = .storage name
  segment : ∀ name, site = .segment name ↔ k = .segment name

namespace Script

/-- A script adds a fact about a variable. -/
def States (script : Script) (x : VarId) (fact : Fact) : Prop :=
  ∃ position, Step.constrain x position fact ∈ script

/-- A script does what an observation calls for. -/
def Confirms (script : Script) (ν : Naming) : Observation → Prop
  | .uses k => ∃ x, ν k = some x
  | .tells k fact => ∃ x, ν k = some x ∧ script.States x fact
  | .equates k l => ∃ x y, ν k = some x ∧ ν l = some y ∧ (x, y) ∈ script.pairs
  | .dereferences k => ∃ x t, ν k = some x ∧ script.States x (.pointsTo t)
  | .accesses p part k => ∃ x t y, ν p = some x ∧ script.States x (.pointsTo t) ∧
    ν k = some y ∧ script.States t (part.fact y)

/-- A fact about a variable is called for by an observation. -/
structure Explains (script : Script) (obs : List Observation) (ν : Naming) (x : VarId)
    (fact : Fact) : Prop where
  told : fact.isAboutPointee = false → fact.target? = none →
    ∃ k, ν k = some x ∧ .tells k fact ∈ obs
  pointer : ∀ {t}, fact = .pointsTo t → (∃ k, ν k = some x ∧ .dereferences k ∈ obs) ∧
    ∃ site, script.sites[t.index]? = some site ∧ site.isPointee = true
  part : ∀ {part y}, fact = Part.fact part y → ∃ p q k, ν p = some q ∧
    script.States q (.pointsTo x) ∧ ν k = some y ∧ .accesses p part k ∈ obs
  called : ∀ {site}, fact = .callSite site → ∃ p q, ν p = some q ∧
    script.States q (.pointsTo x) ∧ p.isSegment = false

/-- A script and a naming account for observations. -/
structure Accounts (script : Script) (obs : List Observation) (ν : Naming) : Prop where
  confirms : ∀ o ∈ obs, script.Confirms ν o
  explains : ∀ {x fact}, script.States x fact → script.Explains obs ν x fact
  pairs : ∀ {x y}, (x, y) ∈ script.pairs →
    ∃ k l, ν k = some x ∧ ν l = some y ∧ .equates k l ∈ obs
  named : ∀ {k x}, ν k = some x → .uses k ∈ obs ∧
    ∃ site, script.sites[x.index]? = some site ∧ k.Has site
  unique : ∀ {k l x}, ν k = some x → ν l = some x → k = l
  made : ∀ {x : VarId} {site}, script.sites[x.index]? = some site →
    (∃ k, ν k = some x) ∨ site.isPointee = true ∧ ∃ p, script.States p (.pointsTo x)
  owners : ∀ {x y t}, script.States x (.pointsTo t) → script.States y (.pointsTo t) →
    script.Linked x y

/-! ## Longer scripts -/

section
variable {script steps : Script} {obs more : List Observation} {ν ν' : Naming}

/-- A longer script states what its parts state. -/
lemma states_append {x : VarId} {fact : Fact} :
    States (script ++ steps) x fact ↔ script.States x fact ∨ steps.States x fact := by
  simp only [States, List.mem_append, exists_or]

/-- A longer script states what it stated before. -/
lemma States.append {x : VarId} {fact : Fact} (st : script.States x fact) :
    States (script ++ steps) x fact :=
  states_append.2 (.inl st)

/-- Uses keep their numbers when a script gets longer. -/
lemma sites_append_of_some {i : Nat} {site : UseSite} (here : script.sites[i]? = some site) :
    (Script.sites (script ++ steps))[i]? = some site := by
  rw [sites_append, List.getElem?_append_left (List.getElem?_eq_some_iff.1 here).1]
  exact here

/-- A naming that names more values. -/
def Extends (ν ν' : Naming) : Prop :=
  ∀ {k x}, ν k = some x → ν' k = some x

/-- A longer script and more names still confirm an observation. -/
lemma Confirms.append {o : Observation} (co : script.Confirms ν o) (ext : Extends ν ν') :
    Confirms (script ++ steps) ν' o := by
  cases o with
  | uses k =>
    obtain ⟨x, name⟩ := co
    exact ⟨x, ext name⟩
  | tells k fact =>
    obtain ⟨x, name, st⟩ := co
    exact ⟨x, ext name, st.append⟩
  | equates k l =>
    obtain ⟨x, y, name, name', mem⟩ := co
    refine ⟨x, y, ext name, ext name', ?_⟩
    rw [pairs_append]
    exact List.mem_append_left _ mem
  | dereferences k =>
    obtain ⟨x, t, name, st⟩ := co
    exact ⟨x, t, ext name, st.append⟩
  | accesses p part k =>
    obtain ⟨x, t, y, name, st, name', st'⟩ := co
    exact ⟨x, t, y, ext name, st.append, ext name', st'.append⟩

/-- A longer script, more observations and more names still explain a fact. -/
lemma Explains.append {x : VarId} {fact : Fact} (ex : script.Explains obs ν x fact)
    (ext : Extends ν ν') : Explains (script ++ steps) (obs ++ more) ν' x fact where
  told value none := by
    obtain ⟨k, name, mem⟩ := ex.told value none
    exact ⟨k, ext name, List.mem_append_left _ mem⟩
  pointer e := by
    obtain ⟨⟨k, name, mem⟩, site, here, pointee⟩ := ex.pointer e
    exact ⟨⟨k, ext name, List.mem_append_left _ mem⟩, site, sites_append_of_some here, pointee⟩
  part e := by
    obtain ⟨p, q, k, name, st, name', mem⟩ := ex.part e
    exact ⟨p, q, k, ext name, st.append, ext name', List.mem_append_left _ mem⟩
  called e := by
    obtain ⟨p, q, name, st, code⟩ := ex.called e
    exact ⟨p, q, ext name, st.append, code⟩

/-- More steps for more observations, without new names. Only what is new has to be looked at. -/
lemma Accounts.extend (ac : script.Accounts obs ν)
    (confirmed : ∀ o ∈ more, Confirms (script ++ steps) ν o)
    (explained : ∀ {x fact}, steps.States x fact →
      Explains (script ++ steps) (obs ++ more) ν x fact)
    (pairs : ∀ {x y}, (x, y) ∈ steps.pairs →
      ∃ k l, ν k = some x ∧ ν l = some y ∧ .equates k l ∈ more)
    (made : ∀ {x : VarId} {site}, script.sites.length ≤ x.index →
      steps.sites[x.index - script.sites.length]? = some site →
      site.isPointee = true ∧ ∃ p, steps.States p (.pointsTo x))
    (owners : ∀ {x y t}, steps.States x (.pointsTo t) → States (script ++ steps) y (.pointsTo t) →
      Linked (script ++ steps) x y) :
    Accounts (script ++ steps) (obs ++ more) ν where
  confirms o mem := by
    rcases List.mem_append.1 mem with mem | mem
    · exact (ac.confirms o mem).append fun name => name
    · exact confirmed o mem
  explains st := by
    rcases states_append.1 st with st | st
    · exact (ac.explains st).append fun name => name
    · exact explained st
  pairs mem := by
    rw [pairs_append] at mem
    rcases List.mem_append.1 mem with mem | mem
    · obtain ⟨k, l, name, name', mem⟩ := ac.pairs mem
      exact ⟨k, l, name, name', List.mem_append_left _ mem⟩
    · obtain ⟨k, l, name, name', mem⟩ := pairs mem
      exact ⟨k, l, name, name', List.mem_append_right _ mem⟩
  named name := by
    obtain ⟨used, site, here, has⟩ := ac.named name
    exact ⟨List.mem_append_left _ used, site, sites_append_of_some here, has⟩
  unique := ac.unique
  made {x site} here := by
    -- a use is an old one, or stands behind the old ones, where only pointees are made
    rw [sites_append, List.getElem?_append] at here
    split at here
    · rcases ac.made here with name | ⟨pointee, p, st⟩
      · exact .inl name
      · exact .inr ⟨pointee, p, st.append⟩
    · obtain ⟨pointee, p, st⟩ := made (by omega) here
      exact .inr ⟨pointee, p, states_append.2 (.inr st)⟩
  owners {x y t} stx sty := by
    rcases states_append.1 stx with oldx | newx
    · rcases states_append.1 sty with oldy | newy
      · exact (ac.owners oldx oldy).append steps
      · exact .symm _ _ (owners newy stx)
    · exact owners newx sty

/-- One more fact. -/
lemma Accounts.constrain (ac : script.Accounts obs ν) {x : VarId} {position : Nat} {fact : Fact}
    (confirmed : ∀ o ∈ more, Confirms (script ++ [.constrain x position fact]) ν o)
    (explained : Explains (script ++ [.constrain x position fact]) (obs ++ more) ν x fact)
    (owners : ∀ {y t}, fact = .pointsTo t → script.States y (.pointsTo t) → script.Linked x y) :
    Accounts (script ++ [.constrain x position fact]) (obs ++ more) ν := by
  have only : ∀ {y other}, States [.constrain x position fact] y other → y = x ∧ other = fact := by
    rintro y other ⟨p, mem⟩
    cases List.mem_singleton.1 mem
    exact ⟨rfl, rfl⟩
  refine ac.extend confirmed (fun st => ?_) (fun mem => ?_) (fun _ here => ?_) fun st st' => ?_
  · obtain ⟨rfl, rfl⟩ := only st
    exact explained
  · cases mem
  · cases here
  · obtain ⟨rfl, e⟩ := only st
    rcases states_append.1 st' with old | new
    · exact (owners e.symm old).append _
    · rw [(only new).1]
      exact .refl _

/-! ## Steps -/

/-- The empty script accounts for no observations. -/
lemma Accounts.empty : Accounts [] [] fun _ => none where
  confirms o mem := by cases mem
  explains := by
    rintro x fact ⟨p, mem⟩
    cases mem
  pairs mem := by cases mem
  named name := by cases name
  unique name := by cases name
  made here := by cases here
  owners := by
    rintro x y t ⟨p, mem⟩
    cases mem

/-- A name for a value that had none makes a naming larger. -/
lemma extends_update {k : Value} {x : VarId} (unnamed : ν k = none) :
    Extends ν (Function.update ν k (some x)) := by
  intro l y name
  have ne : l ≠ k := by
    rintro rfl
    rw [unnamed] at name
    cases name
  rw [Function.update_of_ne ne, name]

/-- A name after an update is the new one or an older one. -/
lemma update_eq_some {k l : Value} {x y : VarId}
    (name : Function.update ν k (some x) l = some y) : (l = k ∧ y = x) ∨ ν l = some y := by
  by_cases e : l = k
  · subst e
    rw [Function.update_self] at name
    exact .inl ⟨rfl, (Option.some.inj name).symm⟩
  · rw [Function.update_of_ne e] at name
    exact .inr name

/-- What stands behind `n` uses in a list with one more. -/
lemma eq_next {x : VarId} {n : Nat} {site other : UseSite} (le : n ≤ x.index)
    (here : [site][x.index - n]? = some other) : x = ⟨n⟩ ∧ site = other := by
  obtain ⟨lt, e⟩ := List.getElem?_eq_some_iff.1 here
  have last : x.index - n < 1 := lt
  have index : x.index = n := by omega
  simp only [index, Nat.sub_self, List.getElem_cons_zero] at e
  exact ⟨congrArg VarId.mk index, e⟩

/-- A variable is made for a value. -/
lemma Accounts.newValue (ac : script.Accounts obs ν) {site : UseSite} {k : Value}
    (unnamed : ν k = none) (has : k.Has site) :
    Accounts (script ++ [.newVariable site]) (obs ++ [.uses k])
      (Function.update ν k (some ⟨script.sites.length⟩)) := by
  have ext : Extends ν (Function.update ν k (some ⟨script.sites.length⟩)) :=
    extends_update unnamed
  have none : ∀ {x fact}, ¬ States [.newVariable site] x fact := by
    rintro x fact ⟨p, mem⟩
    cases List.mem_singleton.1 mem
  have states : ∀ {x fact}, States (script ++ [.newVariable site]) x fact → script.States x fact :=
    fun st => (states_append.1 st).resolve_right none
  have sites : Script.sites (script ++ [.newVariable site]) = script.sites ++ [site] :=
    sites_append script [.newVariable site]
  have pairs : Script.pairs (script ++ [.newVariable site]) = script.pairs :=
    pairs_snoc_of_none script rfl
  -- the new variable has a number that no value has so far
  have fresh : ∀ {l}, ν l ≠ some ⟨script.sites.length⟩ := by
    intro l name
    obtain ⟨_, site, here, _⟩ := ac.named name
    exact absurd (List.getElem?_eq_some_iff.1 here).1 (lt_irrefl _)
  constructor
  case confirms =>
    intro o mem
    rcases List.mem_append.1 mem with mem | mem
    · exact (ac.confirms o mem).append ext
    · rw [List.mem_singleton.1 mem]
      exact ⟨_, Function.update_self ..⟩
  case explains => exact fun st => (ac.explains (states st)).append ext
  case pairs =>
    intro x y mem
    rw [pairs] at mem
    obtain ⟨l, m, name, name', mem⟩ := ac.pairs mem
    exact ⟨l, m, ext name, ext name', List.mem_append_left _ mem⟩
  case named =>
    intro l x name
    rcases update_eq_some name with ⟨rfl, rfl⟩ | old
    · refine ⟨List.mem_append_right _ List.mem_cons_self, site, ?_, has⟩
      rw [sites, List.getElem?_concat_length]
    · obtain ⟨used, other, here, fits⟩ := ac.named old
      exact ⟨List.mem_append_left _ used, other, sites_append_of_some here, fits⟩
  case unique =>
    intro l m x name name'
    rcases update_eq_some name with ⟨rfl, rfl⟩ | old
    · rcases update_eq_some name' with ⟨rfl, _⟩ | old'
      · rfl
      · exact absurd old' fresh
    · rcases update_eq_some name' with ⟨rfl, rfl⟩ | old'
      · exact absurd old fresh
      · exact ac.unique old old'
  case made =>
    intro x other here
    rw [sites, List.getElem?_append] at here
    split at here
    · rcases ac.made here with ⟨l, name⟩ | ⟨pointee, p, st⟩
      · exact .inl ⟨l, ext name⟩
      · exact .inr ⟨pointee, p, st.append⟩
    · obtain ⟨rfl, _⟩ := eq_next (by omega) here
      exact .inl ⟨k, Function.update_self ..⟩
  case owners => exact fun st st' => (ac.owners (states st) (states st')).append _

/-- A value is used again. -/
lemma Accounts.use (ac : script.Accounts obs ν) {k : Value} {x : VarId} (name : ν k = some x) :
    script.Accounts (obs ++ [.uses k]) ν := by
  have none : ∀ {x fact}, ¬ States [] x fact := by
    rintro x fact ⟨p, mem⟩
    cases mem
  have ext : Accounts (script ++ []) (obs ++ [.uses k]) ν := by
    refine ac.extend (fun o mem => ?_) (fun st => (none st).elim) (fun mem => ?_) (fun _ here => ?_)
      fun st => (none st).elim
    · rw [List.mem_singleton.1 mem]
      exact ⟨x, name⟩
    · cases mem
    · cases here
  rwa [List.append_nil] at ext

/-- Something is told of a value. -/
lemma Accounts.tell (ac : script.Accounts obs ν) {k : Value} {x : VarId} {fact : Fact}
    (name : ν k = some x) (about : fact.isAboutPointee = false) (plain : fact.target? = none)
    (position : Nat) :
    Accounts (script ++ [.constrain x position fact]) (obs ++ [.tells k fact]) ν := by
  have told : Observation.tells k fact ∈ obs ++ [.tells k fact] :=
    List.mem_append_right _ List.mem_cons_self
  refine ac.constrain (fun o mem => ?_) ⟨fun _ _ => ⟨k, name, told⟩, ?_, ?_, ?_⟩ ?_
  · rw [List.mem_singleton.1 mem]
    exact ⟨x, name, position, List.mem_append_right _ List.mem_cons_self⟩
  · rintro t rfl
    cases plain
  · rintro part y rfl
    cases part <;> cases about
  · rintro site rfl
    cases about
  · rintro y t rfl
    cases plain

/-- A fact about what a pointer points into that forces nothing together. What a segment holds is not
called. -/
lemma Accounts.note (ac : script.Accounts obs ν) {p : Value} {q x : VarId} {fact : Fact}
    (name : ν p = some q) (points : script.States q (.pointsTo x))
    (about : fact.isAboutPointee = true) (whole : fact.linked? = none)
    (code : ∀ {site}, fact = .callSite site → p.isSegment = false) (position : Nat) :
    Accounts (script ++ [.constrain x position fact]) obs ν := by
  have noted : Accounts (script ++ [.constrain x position fact]) (obs ++ []) ν := by
    refine ac.constrain (by simp) ⟨?_, ?_, ?_, ?_⟩ ?_
    · intro value
      rw [value] at about
      cases about
    · rintro t rfl
      cases whole
    · rintro part y rfl
      cases part <;> cases whole
    · exact fun call => ⟨p, q, name, points.append, code call⟩
    · rintro y t rfl
      cases whole
  rwa [List.append_nil] at noted

/-- Two values are made equal. -/
lemma Accounts.equate (ac : script.Accounts obs ν) {k l : Value} {x y : VarId}
    (name : ν k = some x) (name' : ν l = some y) :
    Accounts (script ++ [.unify x y]) (obs ++ [.equates k l]) ν := by
  have none : ∀ {z fact}, ¬ States [.unify x y] z fact := by
    rintro z fact ⟨p, mem⟩
    cases List.mem_singleton.1 mem
  refine ac.extend (fun o mem => ?_) (fun st => (none st).elim) (fun mem => ?_) (fun _ here => ?_)
    fun st => (none st).elim
  · rw [List.mem_singleton.1 mem]
    refine ⟨x, y, name, name', ?_⟩
    rw [pairs_append]
    exact List.mem_append_right _ List.mem_cons_self
  · cases List.mem_singleton.1 mem
    exact ⟨k, l, name, name', List.mem_cons_self⟩
  · cases here

/-- A pointer is dereferenced whose class points into something already. -/
lemma Accounts.dereference (ac : script.Accounts obs ν) {k : Value} {x y t : VarId}
    (name : ν k = some x) (known : script.States y (.pointsTo t)) (linked : script.Linked x y)
    (position : Nat) :
    Accounts (script ++ [.constrain x position (.pointsTo t)]) (obs ++ [.dereferences k]) ν := by
  have added : States (script ++ [.constrain x position (.pointsTo t)]) x (.pointsTo t) :=
    ⟨position, List.mem_append_right _ List.mem_cons_self⟩
  have seen : Observation.dereferences k ∈ obs ++ [.dereferences k] :=
    List.mem_append_right _ List.mem_cons_self
  refine ac.constrain (fun o mem => ?_) ⟨?_, ?_, ?_, ?_⟩ ?_
  · rw [List.mem_singleton.1 mem]
    exact ⟨x, t, name, added⟩
  · rintro _ ⟨⟩
  · rintro u ⟨⟩
    obtain ⟨_, site, here, pointee⟩ := (ac.explains known).pointer rfl
    exact ⟨⟨k, name, seen⟩, site, sites_append_of_some here, pointee⟩
  · rintro part z e
    cases part <;> cases e
  · rintro site ⟨⟩
  · rintro z u ⟨⟩ other
    exact linked.trans _ _ _ (ac.owners known other)

/-- A pointer is dereferenced for the first time. -/
lemma Accounts.dereferenceNew (ac : script.Accounts obs ν) {k : Value} {x : VarId}
    (name : ν k = some x) (position : Nat) :
    Accounts (script ++ [.newVariable (.pointee x),
      .constrain x position (.pointsTo ⟨script.sites.length⟩)]) (obs ++ [.dereferences k]) ν := by
  generalize fresh : (⟨script.sites.length⟩ : VarId) = t
  have only : ∀ {z fact}, States [.newVariable (.pointee x), .constrain x position (.pointsTo t)]
      z fact → z = x ∧ fact = .pointsTo t := by
    rintro z fact ⟨p, mem⟩
    simp only [List.mem_cons, reduceCtorEq, Step.constrain.injEq, List.not_mem_nil, or_false,
      false_or] at mem
    exact ⟨mem.1, mem.2.2⟩
  have added : States [.newVariable (.pointee x), .constrain x position (.pointsTo t)] x
      (.pointsTo t) := ⟨position, by simp⟩
  have here : (Script.sites (script ++ [.newVariable (.pointee x),
      .constrain x position (.pointsTo t)]))[t.index]? = some (.pointee x) := by
    rw [sites_append, ← fresh]
    exact List.getElem?_concat_length
  -- nothing was known of the new variable before
  have unknown : ∀ {z}, ¬ script.States z (.pointsTo t) := by
    intro z st
    obtain ⟨_, site, here, _⟩ := (ac.explains st).pointer rfl
    rw [← fresh] at here
    exact absurd (List.getElem?_eq_some_iff.1 here).1 (lt_irrefl _)
  refine ac.extend (fun o mem => ?_) (fun st => ?_) (fun mem => ?_) (fun le place => ?_)
    fun st st' => ?_
  · rw [List.mem_singleton.1 mem]
    exact ⟨x, t, name, states_append.2 (.inr added)⟩
  · obtain ⟨rfl, rfl⟩ := only st
    refine ⟨?_, ?_, ?_, ?_⟩
    · rintro _ ⟨⟩
    · rintro u ⟨⟩
      exact ⟨⟨k, name, List.mem_append_right _ List.mem_cons_self⟩, _, here, rfl⟩
    · rintro part z e
      cases part <;> cases e
    · rintro site ⟨⟩
  · cases mem
  · obtain ⟨rfl, rfl⟩ := eq_next le place
    exact ⟨rfl, x, fresh ▸ added⟩
  · obtain ⟨rfl, e⟩ := only st
    cases e
    rcases states_append.1 st' with old | new
    · exact (unknown old).elim
    · rw [(only new).1]
      exact .refl _

/-- A part of what a pointer points into is accessed. -/
lemma Accounts.access (ac : script.Accounts obs ν) {p k : Value} {x t y : VarId} {part : Part}
    (name : ν p = some x) (points : script.States x (.pointsTo t)) (name' : ν k = some y)
    (position : Nat) :
    Accounts (script ++ [.constrain t position (part.fact y)]) (obs ++ [.accesses p part k]) ν := by
  have seen : Observation.accesses p part k ∈ obs ++ [.accesses p part k] :=
    List.mem_append_right _ List.mem_cons_self
  refine ac.constrain (fun o mem => ?_) ⟨?_, ?_, ?_, ?_⟩ ?_
  · rw [List.mem_singleton.1 mem]
    exact ⟨x, t, y, name, points.append, name', position,
      List.mem_append_right _ List.mem_cons_self⟩
  · cases part <;> rintro ⟨⟩
  · cases part <;> rintro u ⟨⟩
  · intro other z e
    obtain ⟨rfl, rfl⟩ := Part.fact_inj e
    exact ⟨p, x, k, name, points.append, name', seen⟩
  · cases part <;> rintro site ⟨⟩
  · cases part <;> rintro z u ⟨⟩

/-! ## What is forced together -/

/-- The arena of a script holds the facts that the script states. -/
lemma Gathers.holds_iff {a : Arena} (ga : script.Gathers a) {x : VarId} {fact : Fact} :
    a.Holds x fact ↔ script.States x fact := by
  rw [ga.coherent.holds_iff]
  constructor
  · rintro ⟨c, mem, rfl, rfl⟩
    obtain ⟨i, lt, rfl⟩ := List.mem_mapIdx.1 mem
    have inside : (script.filterMap Step.constraint?)[i] ∈ script.filterMap Step.constraint? :=
      List.getElem_mem lt
    generalize (script.filterMap Step.constraint?)[i] = added at inside
    obtain ⟨step, performed, e⟩ := List.mem_filterMap.1 inside
    cases step <;> cases e
    exact ⟨_, performed⟩
  · rintro ⟨position, mem⟩
    have inside : (x, position, fact) ∈ script.filterMap Step.constraint? :=
      List.mem_filterMap.2 ⟨_, mem, rfl⟩
    obtain ⟨i, lt, e⟩ := List.mem_iff_getElem.1 inside
    refine ⟨⟨position, i, x, fact⟩, List.mem_mapIdx.2 ⟨i, lt, ?_⟩, rfl, rfl⟩
    rw [e]

/-- Variables of the arena share a class if the script links them. -/
lemma Gathers.sameClass_iff {a : Arena} (ga : script.Gathers a) {x y : VarId} :
    a.SameClass x y ↔ x.index < a.size ∧ y.index < a.size ∧ script.Linked x y := by
  rw [ga.coherent.sameClass_iff, ga.linked]

/-- The value that a variable is known by: the value itself, or a pointer to what it stands for. -/
inductive Stands (script : Script) (ν : Naming) (x : VarId) : (pointee : Bool) → Value → Prop
  | value {k} : ν k = some x → Stands script ν x false k
  | pointee {k p} : ν k = some p → script.States p (.pointsTo x) → Stands script ν x true k

/-- Linked variables are equal, or the names of joined values. -/
lemma Accounts.linked_cases (ac : script.Accounts obs ν) {x y : VarId} (li : script.Linked x y) :
    x = y ∨ ∃ k l, ν k = some x ∧ ν l = some y ∧ Joined obs k l := by
  induction li with
  | rel x y mem =>
    obtain ⟨k, l, name, name', mem⟩ := ac.pairs mem
    exact .inr ⟨k, l, name, name', .equal mem⟩
  | refl x => exact .inl rfl
  | symm x y _ ih =>
    rcases ih with rfl | ⟨k, l, name, name', joined⟩
    · exact .inl rfl
    · exact .inr ⟨l, k, name', name, joined.symm⟩
  | trans x y z _ _ ih ih' =>
    rcases ih with rfl | ⟨k, l, name, name', joined⟩
    · exact ih'
    · rcases ih' with rfl | ⟨l', m, again, name'', joined'⟩
      · exact .inr ⟨k, l, name, name', joined⟩
      · cases ac.unique again name'
        exact .inr ⟨k, m, name, name'', joined.trans joined'⟩

/-- Values whose variables are linked are joined. -/
lemma Accounts.joined_of_linked (ac : script.Accounts obs ν) {x y : VarId} {k l : Value}
    (li : script.Linked x y) (name : ν k = some x) (name' : ν l = some y) : Joined obs k l := by
  rcases ac.linked_cases li with rfl | ⟨k', l', again, again', joined⟩
  · cases ac.unique name name'
    exact .used (ac.named name).1
  · cases ac.unique name again
    cases ac.unique name' again'
    exact joined

/-- A variable is known by joined values only. -/
lemma Accounts.stands_unique (ac : script.Accounts obs ν) {x : VarId} {b c : Bool} {k l : Value}
    (st : script.Stands ν x b k) (st' : script.Stands ν x c l) : b = c ∧ Joined obs k l := by
  -- no variable of a value is pointed into
  have apart : ∀ {k p}, ν k = some x → ¬ script.States p (.pointsTo x) := by
    intro k p name points
    obtain ⟨_, site, here, has⟩ := ac.named name
    obtain ⟨_, other, here', pointee⟩ := (ac.explains points).pointer rfl
    cases here.symm.trans here'
    rw [has.value] at pointee
    cases pointee
  cases st with
  | value name =>
    cases st' with
    | value name' => exact ⟨rfl, ac.joined_of_linked (.refl x) name name'⟩
    | pointee _ points => exact (apart name points).elim
  | pointee name points =>
    cases st' with
    | value name' => exact (apart name' points).elim
    | pointee name' points' =>
      exact ⟨rfl, ac.joined_of_linked (ac.owners points points') name name'⟩

/-- Every variable is known by a value. -/
lemma Accounts.exists_stands (ac : script.Accounts obs ν) {x : VarId}
    (lt : x.index < script.sites.length) : ∃ b k, script.Stands ν x b k := by
  rcases ac.made (List.getElem?_eq_getElem lt) with ⟨k, name⟩ | ⟨_, p, points⟩
  · exact ⟨false, k, .value name⟩
  · obtain ⟨⟨k, name, _⟩, _⟩ := (ac.explains points).pointer rfl
    exact ⟨true, k, .pointee name points⟩

end

end Script

/-- Facts force targets of pointers together, or values of one part. -/
lemma Fact.Forces.cases {p q : Fact} {v w : VarId} (forces : Forces p q v w) :
    (p = .pointsTo v ∧ q = .pointsTo w) ∨ ∃ part : Part, p = part.fact v ∧ q = part.fact w := by
  cases forces with
  | targets => exact .inl ⟨rfl, rfl⟩
  | @fields f g offset width =>
    refine .inr ⟨.field f.offset f.width, rfl, ?_⟩
    rw [offset, width]
    rfl
  | @elements e g offset stride width =>
    refine .inr ⟨.element e.offset e.stride e.width, rfl, ?_⟩
    rw [offset, stride, width]
    rfl

/-- Two values of one part are forced together. -/
lemma Part.forces (part : Part) (v w : VarId) : Fact.Forces (part.fact v) (part.fact w) v w := by
  cases part with
  | field offset width => exact .fields rfl rfl
  | element offset stride width => exact .elements rfl rfl rfl

namespace Script

section
variable {script : Script} {obs : List Observation} {ν : Naming} {a : Arena}

/-- The variable that a value has is in the arena. -/
lemma Accounts.lt_of_named (ac : script.Accounts obs ν) (ga : script.Gathers a) {k : Value}
    {x : VarId} (name : ν k = some x) : x.index < a.size := by
  obtain ⟨_, site, here, _⟩ := ac.named name
  rw [ga.size]
  exact (List.getElem?_eq_some_iff.1 here).1

/-- The variable that a pointer points to is in the arena. -/
lemma Accounts.lt_of_pointsTo (ac : script.Accounts obs ν) (ga : script.Gathers a)
    {x target : VarId} (points : script.States x (.pointsTo target)) : target.index < a.size := by
  obtain ⟨_, site, here, _⟩ := (ac.explains points).pointer rfl
  rw [ga.size]
  exact (List.getElem?_eq_some_iff.1 here).1

/-- What the evidence forces together is known by joined values. -/
lemma Accounts.joined_of_congruent (ac : script.Accounts obs ν) (ga : script.Gathers a)
    {x y : VarId} (cong : a.Congruent x y) :
    ∃ b k l, script.Stands ν x b k ∧ script.Stands ν y b l ∧ Joined obs k l := by
  induction cong with
  | @same x y same =>
    obtain ⟨ltx, _, li⟩ := ga.sameClass_iff.1 same
    rcases ac.linked_cases li with rfl | ⟨k, l, name, name', joined⟩
    · obtain ⟨b, k, st⟩ := ac.exists_stands (ga.size ▸ ltx)
      exact ⟨b, k, k, st, st, (ac.stands_unique st st).2⟩
    · exact ⟨false, k, l, .value name, .value name', joined⟩
  | symm _ ih =>
    obtain ⟨b, k, l, st, st', joined⟩ := ih
    exact ⟨b, l, k, st', st, joined.symm⟩
  | trans _ _ ih ih' =>
    obtain ⟨b, k, l, st, mid, joined⟩ := ih
    obtain ⟨c, l', m, mid', st', joined'⟩ := ih'
    obtain ⟨rfl, between⟩ := ac.stands_unique mid mid'
    exact ⟨b, k, m, st, st', joined.trans (between.trans joined')⟩
  | force _ holdsx holdsy forces ih =>
    obtain ⟨b, k, l, st, st', joined⟩ := ih
    rw [ga.holds_iff] at holdsx holdsy
    rcases forces.cases with ⟨rfl, rfl⟩ | ⟨part, rfl, rfl⟩
    · obtain ⟨⟨k', name, _⟩, _⟩ := (ac.explains holdsx).pointer rfl
      obtain ⟨⟨l', name', _⟩, _⟩ := (ac.explains holdsy).pointer rfl
      have left := (ac.stands_unique (.value name) st).2
      have right := (ac.stands_unique st' (.value name')).2
      exact ⟨true, k', l', .pointee name holdsx, .pointee name' holdsy,
        left.trans (joined.trans right)⟩
    · obtain ⟨p, _, k', pointer, points, name, seen⟩ := (ac.explains holdsx).part rfl
      obtain ⟨q, _, l', pointer', points', name', seen'⟩ := (ac.explains holdsy).part rfl
      have left := (ac.stands_unique (.pointee pointer points) st).2
      have right := (ac.stands_unique st' (.pointee pointer' points')).2
      exact ⟨false, k', l', .value name, .value name',
        .part (left.trans (joined.trans right)) seen seen'⟩

/-- Joined values have variables that the evidence forces together. -/
lemma Accounts.congruent_of_joined (ac : script.Accounts obs ν) (ga : script.Gathers a)
    {k l : Value} (jo : Joined obs k l) :
    ∃ x y, ν k = some x ∧ ν l = some y ∧ a.Congruent x y := by
  have linked : ∀ {k l x y}, ν k = some x → ν l = some y → script.Linked x y →
      a.Congruent x y :=
    fun name name' li =>
      .same (ga.sameClass_iff.2 ⟨ac.lt_of_named ga name, ac.lt_of_named ga name', li⟩)
  induction jo with
  | used mem =>
    obtain ⟨x, name⟩ := ac.confirms _ mem
    exact ⟨x, x, name, name, linked name name (.refl x)⟩
  | symm _ ih =>
    obtain ⟨x, y, name, name', cong⟩ := ih
    exact ⟨y, x, name', name, cong.symm⟩
  | trans _ _ ih ih' =>
    obtain ⟨x, y, name, name', cong⟩ := ih
    obtain ⟨y', z, again, name'', cong'⟩ := ih'
    cases name'.symm.trans again
    exact ⟨x, z, name, name'', cong.trans cong'⟩
  | equal mem =>
    obtain ⟨x, y, name, name', mem⟩ := ac.confirms _ mem
    exact ⟨x, y, name, name', linked name name' (.rel x y mem)⟩
  | part _ here there ih =>
    obtain ⟨x, y, name, name', cong⟩ := ih
    obtain ⟨x', t, v, again, points, namev, holds⟩ := ac.confirms _ here
    obtain ⟨y', u, w, again', points', namew, holds'⟩ := ac.confirms _ there
    cases name.symm.trans again
    cases name'.symm.trans again'
    have targets : a.Congruent t u :=
      .force cong (ga.holds_iff.2 points) (ga.holds_iff.2 points') .targets
    exact ⟨v, w, namev, namew,
      .force targets (ga.holds_iff.2 holds) (ga.holds_iff.2 holds') (Part.forces _ v w)⟩

/-- What the evidence of an arena forces together is what the observations join. -/
lemma Accounts.congruent_iff (ac : script.Accounts obs ν) (ga : script.Gathers a) {k l : Value}
    {x y : VarId} (name : ν k = some x) (name' : ν l = some y) :
    a.Congruent x y ↔ Joined obs k l := by
  constructor
  · intro cong
    obtain ⟨b, k', l', st, st', joined⟩ := ac.joined_of_congruent ga cong
    have left := (ac.stands_unique (.value name) st).2
    have right := (ac.stands_unique st' (.value name')).2
    exact left.trans (joined.trans right)
  · intro joined
    obtain ⟨x', y', again, again', cong⟩ := ac.congruent_of_joined ga joined
    cases name.symm.trans again
    cases name'.symm.trans again'
    exact cong

end

end Script

end TypeRecovery
