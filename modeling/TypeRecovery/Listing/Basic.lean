import TypeRecovery.Remark
import TypeRecovery.Arena.Basic
import TypeRecovery.DataType.Text

/-!
# Listings

The result of the analysis of one function: every class with its type and members, every variable
with its use and its first type, the declarations worth writing down, and the remarks. A listing is
a text for readers and a JSON value for programs.
-/

namespace TypeRecovery

/-- A class in a listing. -/
structure ClassEntry where
  id : ClassId
  state : ClassState
  dataType : DataType
  members : List VarId
  deriving DecidableEq, Repr, Inhabited

/-- A type variable in a listing. -/
structure VariableEntry where
  id : VarId
  site : UseSite
  holder : ClassId
  firstType : Option DataType
  deriving DecidableEq, Repr, Inhabited

/-- A class whose type is worth a declaration. -/
structure Declaration where
  subject : ClassId
  dataType : DataType
  deriving DecidableEq, Repr, Inhabited

/-- The result of the analysis of one function. -/
structure Listing where
  function : String
  /-- In the order of their numbers. -/
  classes : List ClassEntry
  /-- In the order of their numbers. -/
  vars : List VariableEntry
  declarations : List Declaration
  remarks : List Remark
  deriving DecidableEq, Repr, Inhabited

namespace Listing

/-! ## From an arena -/

/-- The class of an arena that stands for a class that may have been merged. -/
def liveClass (a : Arena) (c : ClassId) : ClassId :=
  (a.representative? c).getD c

/-- The entry of a class; without a verdict its type is `void`. -/
def classEntry (a : Arena) (c : ClassRecord) : ClassEntry where
  id := c.id
  state := c.state
  dataType := (c.dataType.getD .void).mapClasses (liveClass a)
  members := c.members

/-- The entry of a variable. -/
def variableEntry (a : Arena) (v : Variable) : VariableEntry where
  id := v.id
  site := v.site
  holder := liveClass a ⟨v.id.index⟩
  firstType := v.firstType.map fun t => t.mapClasses (liveClass a)

/-- Whether a type is worth a declaration. -/
def isDeclared : DataType → Bool
  | .struct .. | .union _ | .pointer _ | .array .. | .function .. => true
  | _ => false

/-- What is known in an arena, with remarks. Types may name classes that were merged later, so they
are brought up to date. -/
def ofArena (function : String) (a : Arena) (remarks : List Remark) : Listing :=
  let classes := a.liveClasses.map (classEntry a)
  { function
    classes
    vars := a.store.toList.map (variableEntry a)
    declarations := (classes.filter fun c => isDeclared c.dataType).map fun c => ⟨c.id, c.dataType⟩
    remarks := Ascending.dropRepeated (Remark.sort remarks) }

/-! ## Lookup -/

/-- The class with a number. -/
def class? (l : Listing) (c : ClassId) : Option ClassEntry :=
  Ascending.bisect (·.id.index) c.index l.classes

/-- The variable with a number. -/
def var? (l : Listing) (v : VarId) : Option VariableEntry :=
  l.vars[v.index]?

/-- The class that holds a variable. -/
def classOf? (l : Listing) (v : VarId) : Option ClassId :=
  (l.var? v).map (·.holder)

/-- The type of a variable. -/
def typeOf? (l : Listing) (v : VarId) : Option DataType :=
  (l.classOf? v).bind fun c => (l.class? c).map (·.dataType)

/-- The variable of named storage. -/
def storage? (l : Listing) (name : String) : Option VarId :=
  (l.vars.find? fun v => v.site = .storage name).map (·.id)

/-! ## Written form -/

/-- A class and its members. -/
def classLines (l : Listing) (c : ClassEntry) : List String :=
  (c.id.text ++ ": " ++ c.dataType.text) ::
    (c.members.filterMap l.var?).map fun v => "\t" ++ v.id.text ++ " (in " ++ v.site.text ++ ")"

/-- A variable and what is known of it. -/
def variableLines (l : Listing) (v : VariableEntry) : List String :=
  let firstType := v.firstType.map DataType.text
  let implied := match firstType with
    | some t => " : " ++ t
    | none => ""
  [v.id.text ++ ": (in " ++ v.site.text ++ implied ++ ")", "  Class: " ++ v.holder.text] ++
    ((l.class? v.holder).map fun c => "  DataType: " ++ c.dataType.text).toList ++
    (firstType.map fun t => "  OrigDataType: " ++ t).toList

/-- Lines under a heading; there is no heading over nothing. -/
def underHeading (heading : String) (lines : List String) : List String :=
  if lines.isEmpty then [] else heading :: lines

/-- The lines of a listing. -/
def lines (l : Listing) : List String :=
  ["// " ++ l.function, "// Equivalence classes"] ++ l.classes.flatMap l.classLines ++
    ["// Type Variables"] ++ l.vars.flatMap l.variableLines ++
    underHeading "// Declarations"
      (l.declarations.map fun d => d.subject.text ++ " := " ++ d.dataType.text) ++
    underHeading "// Annotations" (l.remarks.map Remark.text)

/-- How a listing is written: each line ends with a line feed. -/
def text (l : Listing) : String :=
  String.join (l.lines.map fun line => line ++ "\n")

end Listing

namespace ArenaM

/-- Freeze every live class, and list what is known. -/
def emit (function : String) (remarks : List Remark) : ArenaM Listing := do
  finalizeAll
  return Listing.ofArena function (← get) remarks

end ArenaM

end TypeRecovery
