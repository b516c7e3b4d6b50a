import TypedSheets.Fault
import TypedSheets.Settings

/-!
# Errors of a run

What keeps a sheet, or a whole run, from being compiled: a fault of the sheet, a file
that cannot be used, a name without a sheet or with two of them, or an invalid
configuration.

## Main definitions

* `FileError`, `SourceError`, `ConfigError` — what goes wrong outside of sheets.
* `RunError` — all errors, with their wording.
* `RunError.sheet?` — the sheet an error belongs to.
-/

namespace TypedSheets

/-- Why a file or folder cannot be used. -/
inductive FileError where
  | notFound
  | isFolder
  | notFolder
  /-- A file where a folder is to be created. -/
  | taken
  /-- A name or path with too many bytes. -/
  | longName
  /-- A path with a zero byte. -/
  | zeroByte
  /-- A text file whose bytes are no text. -/
  | notText
  /-- Any other reason, by its wording. -/
  | other (reason : String)
  deriving DecidableEq, Repr

/-- The wording of a file error. -/
def FileError.message : FileError → String
  | notFound => "No such file or directory (os error 2)"
  | isFolder => "Is a directory (os error 21)"
  | notFolder => "Not a directory (os error 20)"
  | taken => "File exists (os error 17)"
  | longName => "File name too long (os error 36)"
  | zeroByte => "file name contained an unexpected NUL byte"
  | notText => "stream did not contain valid UTF-8"
  | other reason => reason

/-- Why the sheets of a source cannot be read. -/
inductive SourceError where
  /-- A file that is no table of texts. -/
  | unreadableFile (path : String)
  /-- A workbook that cannot be opened. -/
  | unopenableBook (path : String)
  /-- A worksheet that is missing or cannot be read. -/
  | unreadableWorksheet (sheet path : String)
  /-- Any other reason, by its wording. -/
  | other (reason : String)
  deriving DecidableEq, Repr

/-- The wording of a source error. -/
def SourceError.message : SourceError → String
  | unreadableFile path => s!"Failed to read `{path}`"
  | unopenableBook path => s!"Failed to open `{path}`"
  | unreadableWorksheet sheet path => s!"Failed to read worksheet `{sheet}` of `{path}`"
  | other reason => reason

/-- Why a configuration cannot be used. -/
inductive ConfigError where
  /-- A setting that makes no sense. -/
  | settings (error : SettingsError)
  /-- A file that is no configuration. -/
  | unparsable (path : String)
  /-- A file that does not exist. -/
  | missingFile (path : String)
  /-- A file that cannot be read. -/
  | unreadable (path : String) (error : FileError)
  deriving DecidableEq, Repr

/-- The wording of a configuration error. -/
def ConfigError.message : ConfigError → String
  | settings error => error.message
  | unparsable path => s!"Failed to parse TOML configuration `{path}`"
  | missingFile path => s!"Missing configuration file: {path}"
  | unreadable path error => s!"Failed to read configuration `{path}`: {error.message}"

/-- What keeps a sheet or a run from being compiled. -/
inductive RunError where
  /-- A file or folder that cannot be used. -/
  | file (error : FileError)
  /-- Faults of a sheet. -/
  | faulty (sheet : String) (diagnostics : List Diagnostic)
  /-- A source that cannot be read. -/
  | source (error : SourceError)
  /-- A name without a sheet. -/
  | unknownSheet (name : String)
  /-- A name with two sheets, and where these are. -/
  | repeatedSheet (name first second : String)
  /-- A configuration that cannot be used. -/
  | config (error : ConfigError)
  deriving DecidableEq, Repr

namespace RunError

/-- The error of a fault of a sheet. -/
def ofFault (sheet : String) (fault : Fault) : RunError := faulty sheet [fault.diagnostic]

/-- The wording of an error. -/
def message : RunError → String
  | file error => "I/O error: " ++ error.message
  | faulty _ diagnostics => Diagnostic.displayAll diagnostics
  | source error => "Sheet source error: " ++ error.message
  | unknownSheet name => s!"Unknown sheet `{name}`"
  | repeatedSheet name first second =>
    s!"Sheet `{name}` is defined in both `{first}` and `{second}`"
  | config error => "Configuration error: " ++ error.message

/-- The sheet an error belongs to. -/
def sheet? : RunError → Option String
  | faulty sheet _ => some sheet
  | unknownSheet name => some name
  | repeatedSheet name .. => some name
  | file _ | source _ | config _ => none

end RunError
end TypedSheets
