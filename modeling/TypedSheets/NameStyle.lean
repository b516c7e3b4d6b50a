import TypedSheets.Settings

/-!
# Generated names

Names declared in a sheet and the fixed names of generated code, in the casing that
the settings ask for. A declared name comes in the casing of the sheet, a fixed one
in Pascal or camel.

## Main definitions

* `NameStyle` — the casing of the sheets and the settings.
* `NameStyle.recordField`, `NameStyle.publicName`, … — declared names.
* `NameStyle.ofClass`, `NameStyle.ofFunction`, … — fixed names.
* `NameStyle.accessor` — the name under which a reference is followed.
-/

namespace TypedSheets

/-- How names are generated. -/
structure NameStyle where
  /-- The casing of declared names. -/
  casing : Casing
  settings : NamingSettings
  deriving DecidableEq, Repr

/-- The naming that settings ask for. -/
def Settings.names (settings : Settings) : NameStyle := ⟨settings.sheet.casing, settings.naming⟩

namespace NameStyle

/-! ### Declared names -/

/-- The name of a record. -/
def recordName (naming : NameStyle) (name : String) : String :=
  naming.casing.convert naming.settings.recordName name

/-- The name of a field of a record. -/
def recordField (naming : NameStyle) (name : String) : String :=
  naming.casing.convert naming.settings.recordField name

/-- The name of an enumeration. -/
def enumName (naming : NameStyle) (name : String) : String :=
  naming.casing.convert naming.settings.enumName name

/-- The name of a member of an enumeration. -/
def enumMember (naming : NameStyle) (name : String) : String :=
  naming.casing.convert naming.settings.enumMember name

/-- The name of a public field. -/
def publicName (naming : NameStyle) (name : String) : String :=
  naming.casing.convert naming.settings.publicName name

/-- The name of a private field. -/
def privateName (naming : NameStyle) (name : String) : String :=
  naming.settings.privateLead ++ naming.casing.convert naming.settings.privateName name

/-- The name of an interface. -/
def interfaceName (naming : NameStyle) (name : String) : String :=
  naming.settings.interfaceLead ++ naming.casing.convert naming.settings.interfaceName name

/-! ### Fixed names -/

/-- A fixed name of a class, given in Pascal casing. -/
def ofClass (naming : NameStyle) (name : String) : String :=
  Casing.pascal.convert naming.settings.className name

/-- A fixed name of an interface, given in Pascal casing. -/
def ofInterface (naming : NameStyle) (name : String) : String :=
  naming.settings.interfaceLead ++ Casing.pascal.convert naming.settings.interfaceName name

/-- A fixed name of a function, given in Pascal casing. -/
def ofFunction (naming : NameStyle) (name : String) : String :=
  Casing.pascal.convert naming.settings.functionName name

/-- A fixed name of a public member, given in Pascal casing. -/
def ofMember (naming : NameStyle) (name : String) : String :=
  Casing.pascal.convert naming.settings.publicName name

/-- A fixed name of a private member, given in camel casing. -/
def ofPrivate (naming : NameStyle) (name : String) : String :=
  naming.settings.privateLead ++ Casing.camel.convert naming.settings.privateName name

/-! ### Accessors of references -/

/-- Characters with the last occurrence of `symbol` replaced by `word`; `none` when
there is none. -/
def replaceLast? (symbol word : List Char) : List Char → Option (List Char)
  | [] => none
  | c :: cs =>
    match replaceLast? symbol word cs with
    | some replaced => some (c :: replaced)
    | none =>
      if symbol.isPrefixOf (c :: cs) then some (word ++ (c :: cs).drop symbol.length) else none

/-- The name under which a reference is followed: the name of its field with the last
occurrence of the symbol replaced by the word, or with the word at its end. -/
def accessor (naming : NameStyle) (name : String) : String :=
  let symbol := naming.settings.referenceSymbol.toList
  let word := naming.settings.referenceWord
  let replaced := if symbol.isEmpty then none else replaceLast? symbol word.toList name.toList
  match replaced with
  | some cs => String.ofList cs
  | none => name ++ word

end NameStyle
end TypedSheets
