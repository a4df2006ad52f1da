import TypeRecovery.Json.Reader
import TypeRecovery.Json.Writer
import TypeRecovery.Listing.Basic

/-!
# Listings as JSON
-/

namespace TypeRecovery

namespace ClassEntry

/-- A class as JSON. -/
def toJson (c : ClassEntry) : Json :=
  .object [("id", c.id.toJson), ("state", c.state.toJson), ("data_type", c.dataType.toJson),
    ("members", .ofList VarId.toJson c.members)]

/-- Read a class. -/
def decoder : Decoder ClassEntry :=
  .record ["id", "state", "data_type", "members"] fun room members =>
    match members with
    | [id, state, dataType, holds] => do
      let id ← Decoder.required ClassId.decoder room id
      let state ← Decoder.required ClassState.decoder room state
      let dataType ← Decoder.required DataType.decoder room dataType
      let holds ← Decoder.required (.list VarId.decoder) room holds
      return ⟨id, state, dataType, holds⟩
    | _ => none

end ClassEntry

namespace VariableEntry

/-- A variable as JSON; an unknown first type is left out. -/
def toJson (v : VariableEntry) : Json :=
  .object ([("id", v.id.toJson), ("site", v.site.toJson), ("class", v.holder.toJson)] ++
    Json.memberIfSome "original" DataType.toJson v.firstType)

/-- Read a variable. -/
def decoder : Decoder VariableEntry :=
  .record ["id", "site", "class", "original"] fun room members =>
    match members with
    | [id, site, holder, firstType] => do
      let id ← Decoder.required VarId.decoder room id
      let site ← Decoder.required UseSite.decoder room site
      let holder ← Decoder.required ClassId.decoder room holder
      let firstType ← Decoder.defaulted (.option DataType.decoder) none room firstType
      return ⟨id, site, holder, firstType⟩
    | _ => none

end VariableEntry

namespace Declaration

/-- A declaration as JSON. -/
def toJson (d : Declaration) : Json :=
  .object [("class", d.subject.toJson), ("data_type", d.dataType.toJson)]

/-- Read a declaration. -/
def decoder : Decoder Declaration :=
  .record ["class", "data_type"] fun room members =>
    match members with
    | [subject, dataType] => do
      let subject ← Decoder.required ClassId.decoder room subject
      let dataType ← Decoder.required DataType.decoder room dataType
      return ⟨subject, dataType⟩
    | _ => none

end Declaration

namespace Listing

/-- A listing as JSON. -/
def toJson (l : Listing) : Json :=
  .object [("function", .string l.function), ("classes", .ofList ClassEntry.toJson l.classes),
    ("variables", .ofList VariableEntry.toJson l.vars),
    ("declarations", .ofList Declaration.toJson l.declarations),
    ("annotations", .ofList Remark.toJson l.remarks)]

/-- Read a listing. -/
def decoder : Decoder Listing :=
  .record ["function", "classes", "variables", "declarations", "annotations"] fun room members =>
    match members with
    | [function, classes, vars, declarations, remarks] => do
      let function ← Decoder.required .string room function
      let classes ← Decoder.required (.list ClassEntry.decoder) room classes
      let vars ← Decoder.required (.list VariableEntry.decoder) room vars
      let declarations ← Decoder.required (.list Declaration.decoder) room declarations
      let remarks ← Decoder.required (.list Remark.decoder) room remarks
      return ⟨function, classes, vars, declarations, remarks⟩
    | _ => none

/-- The indented JSON text of a listing. -/
def toJsonText (l : Listing) : String :=
  l.toJson.pretty

/-- The listing of a JSON text. -/
def ofJsonText? (text : String) : Option Listing :=
  (Json.read text).bind decoder.run

end Listing

end TypeRecovery
