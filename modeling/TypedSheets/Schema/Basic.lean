import TypedSheets.Cell
import TypedSheets.Type.Basic

/-!
# Blocks and schemas

What the schema part of a sheet declares. A block is one declaration, with the
cells it was read from; a schema is the list of blocks of one sheet, in the order
of the sheet. A sheet has an entity when it declares a design, which describes its
data rows, or constants.

## Main definitions

* `Block`, `BlockContent` — one declaration.
* `Schema` — the declarations of a sheet.
* `Schema.enums`, `Schema.records`, `Schema.interfaces` — declarations by kind.
* `Schema.design?`, `Schema.constants?`, `Schema.description?` — the single ones.
-/

namespace TypedSheets

/-- The kinds of blocks. -/
inductive BlockKind where
  | description
  | enum
  | record
  | interface
  | constant
  | design
  deriving DecidableEq, Repr

namespace BlockKind

/-- The kinds, in the order in which messages list them. -/
def all : List BlockKind := [description, enum, record, interface, constant, design]

/-- The tag a header names a kind by. -/
def tag : BlockKind → String
  | description => "Description"
  | enum => "Enum"
  | record => "Record"
  | interface => "Interface"
  | constant => "Constant"
  | design => "Design"

/-- The kind of a tag. -/
def ofTag? (text : String) : Option BlockKind := all.find? fun kind => kind.tag == text

/-- Whether a sheet may hold several blocks of a kind. -/
def repeats : BlockKind → Bool
  | enum | record | interface => true
  | description | constant | design => false

/-- Whether blocks of a kind have a name. -/
def isNamed : BlockKind → Bool
  | enum | record | interface => true
  | description | constant | design => false

end BlockKind

/-- A member of an enumeration. -/
structure Member where
  name : String
  /-- The number written for it, if any. -/
  explicit : Option Int
  /-- Its number: the one written, or one more than that of the member before. -/
  value : Int
  comment : Option String
  origin : Cell
  deriving DecidableEq, Repr

/-- An enumeration. -/
structure EnumDecl where
  /-- Whether other sheets see it. -/
  isGlobal : Bool
  /-- The integer type of its numbers. -/
  backing : Scalar
  members : List Member
  deriving DecidableEq, Repr

/-- The member of a given name. -/
def EnumDecl.member? (block : EnumDecl) (name : String) : Option Member :=
  block.members.find? fun member => member.name == name

/-- A field of a record. -/
structure FieldDecl where
  name : String
  type : WrittenType
  /-- Whether data leaves it out when it has no value. -/
  optional : Bool
  comment : Option String
  origin : Cell
  typeCell : Cell
  deriving DecidableEq, Repr

/-- A record. -/
structure RecordDecl where
  /-- Whether other sheets see it. -/
  isGlobal : Bool
  fields : List FieldDecl
  deriving DecidableEq, Repr

/-- A constant and the text of its value. -/
structure ConstantDecl where
  name : String
  type : WrittenType
  value : String
  comment : Option String
  origin : Cell
  typeCell : Cell
  valueCell : Cell
  deriving DecidableEq, Repr

/-- A field of the data rows of a sheet. -/
structure EntityField where
  name : String
  type : WrittenType
  /-- Whether it is part of the key of a row. -/
  isKey : Bool
  /-- The sheet whose rows it refers to. -/
  reference : Option String
  /-- Whether data leaves it out when it has no value. -/
  optional : Bool
  comment : Option String
  origin : Cell
  typeCell : Cell
  deriving DecidableEq, Repr

/-- The design of the data rows of a sheet. -/
structure DesignDecl where
  /-- Names of the interfaces a row implements. -/
  interfaces : List String
  fields : List EntityField
  deriving DecidableEq, Repr

namespace DesignDecl

/-- The fields that make up the key of a row. -/
def keys (design : DesignDecl) : List EntityField := design.fields.filter (·.isKey)

/-- The field of a given name. -/
def field? (design : DesignDecl) (name : String) : Option EntityField :=
  design.fields.find? fun field => field.name == name

end DesignDecl

/-- What a block declares. -/
inductive BlockContent where
  | description (text : String)
  | enum (block : EnumDecl)
  | record (block : RecordDecl)
  | interface
  | constant (fields : List ConstantDecl)
  | design (block : DesignDecl)
  deriving DecidableEq, Repr

/-- The kind of a declaration. -/
def BlockContent.kind : BlockContent → BlockKind
  | description _ => .description
  | enum _ => .enum
  | record _ => .record
  | interface => .interface
  | constant _ => .constant
  | design _ => .design

/-- One declaration of a sheet. -/
structure Block where
  /-- Its name, for the kinds that have one. -/
  name : Option String
  /-- What its header says after the tag. -/
  options : List String
  summary : Option String
  /-- Its header cell. -/
  origin : Cell
  body : BlockContent
  deriving DecidableEq, Repr

namespace Block

/-- The kind of a block. -/
def kind (block : Block) : BlockKind := block.body.kind

/-- The name of a block, empty for the kinds without one. -/
def label (block : Block) : String := block.name.getD ""

end Block

/-- The declarations of one sheet. -/
structure Schema where
  /-- The name of the sheet. -/
  sheet : String
  blocks : List Block
  deriving DecidableEq, Repr

namespace Schema

/-- The text that describes the sheet. -/
def description? (schema : Schema) : Option String :=
  schema.blocks.findSome? fun block => match block.body with
    | .description text => some text
    | _ => none

/-- The enumerations of the sheet. -/
def enums (schema : Schema) : List (Block × EnumDecl) :=
  schema.blocks.filterMap fun block => match block.body with
    | .enum body => some (block, body)
    | _ => none

/-- The records of the sheet. -/
def records (schema : Schema) : List (Block × RecordDecl) :=
  schema.blocks.filterMap fun block => match block.body with
    | .record body => some (block, body)
    | _ => none

/-- The interfaces of the sheet. -/
def interfaces (schema : Schema) : List Block :=
  schema.blocks.filter fun block => block.kind = .interface

/-- The design of the sheet, with its block. -/
def design? (schema : Schema) : Option (Block × DesignDecl) :=
  schema.blocks.findSome? fun block => match block.body with
    | .design body => some (block, body)
    | _ => none

/-- The constants of the sheet. -/
def constants? (schema : Schema) : Option (List ConstantDecl) :=
  schema.blocks.findSome? fun block => match block.body with
    | .constant fields => some fields
    | _ => none

/-- Whether the sheet declares an entity: a design or constants. -/
def hasEntity (schema : Schema) : Bool := schema.design?.isSome || schema.constants?.isSome

end Schema
end TypedSheets
