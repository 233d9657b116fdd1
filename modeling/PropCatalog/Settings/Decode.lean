import PropCatalog.Json.Number
import PropCatalog.Json.Reading
import PropCatalog.Settings.Basic
import PropCatalog.Text.Shown

/-!
# Settings from JSON text

A record is written as an object, whose unknown members are skipped, or as an array of its fields in
order.  Fields that are missing keep their defaults.  Values are checked as they are met, so the
first problem in the order of the text is the one reported.
-/

namespace PropCatalog.Settings

open Json

/-- Why a text does not give settings. -/
inductive DecodeError where
  | malformed (fault : Fault)
  | duplicateField (name : String)
  | invalidType (found wanted : String)
deriving DecidableEq, Repr

/-- The wording of an error. -/
def DecodeError.message : DecodeError → String
  | malformed fault => fault.message
  | duplicateField name => "duplicate field `" ++ name ++ "`"
  | invalidType found wanted => "invalid type: " ++ found ++ ", expected " ++ wanted

/-- What was decoded, or why nothing was. -/
abbrev Decoded (α : Type) := Except DecodeError α

/-! ## Faults of what is skipped -/

mutual

/-- The first fault met when a value is skipped. -/
def skipFault? : Reading → Option Fault
  | .array items ending => (skipItems? items).or (ending.map Break.skipped)
  | .object members ending => (skipMembers? members).or (ending.map Break.skipped)
  | .broken place => some place.skipped
  | _ => none

/-- The first fault met when items are skipped. -/
def skipItems? : List Reading → Option Fault
  | [] => none
  | r :: rs => (skipFault? r).or (skipItems? rs)

/-- The first fault met when members are skipped. -/
def skipMembers? : List (Except Fault String × Reading) → Option Fault
  | [] => none
  | (_, r) :: ms => (skipFault? r).or (skipMembers? ms)

end

/-! ## Values -/

/-- What a number is called when something else was wanted. -/
def describeNumber (n : Number) : String :=
  match n with
  | .whole _ => "integer `" ++ n.render ++ "`"
  | .floating _ _ => "floating point `" ++ n.render ++ "`"

/-- The error for a value of the wrong type. -/
def mismatch (wanted : String) : Reading → DecodeError
  | .null => .invalidType "null" wanted
  | .bool b => .invalidType ("boolean `" ++ (if b then "true" else "false") ++ "`") wanted
  | .number lexeme =>
      match Number.read? lexeme with
      | some n => .invalidType (describeNumber n) wanted
      | none => .malformed .numberOutOfRange
  | .text (.ok s) => .invalidType ("string " ++ Text.shown s) wanted
  | .text (.error fault) => .malformed fault
  | .array _ _ => .invalidType "sequence" wanted
  | .object _ _ => .invalidType "map" wanted
  | .broken place => .malformed place.used

/-- A text. -/
def text : Reading → Decoded String
  | .text (.ok s) => .ok s
  | r => .error (mismatch "a string" r)

/-- A truth value. -/
def truth : Reading → Decoded Bool
  | .bool b => .ok b
  | r => .error (mismatch "a boolean" r)

/-- The end of an array or object, all of which was read. -/
def ended : Option Break → Decoded Unit
  | none => .ok ()
  | some place => .error (.malformed place.used)

/-- A list of texts. -/
def texts : Reading → Decoded (List String)
  | .array items ending => do
      let values ← items.mapM text
      ended ending
      return values
  | r => .error (mismatch "a sequence" r)

/-! ## Records -/

/-- A field of a record that is being decoded into a draft. -/
structure Field (σ : Type) where
  name : String
  /-- Whether the draft has a value for the field. -/
  isSet : σ → Bool
  /-- The draft with the value of the field. -/
  put : σ → Reading → Decoded σ

variable {σ : Type}

/-- Take a member of an object into a draft. -/
def takeMember (fields : List (Field σ)) (draft : σ) (member : Except Fault String × Reading) :
    Decoded σ :=
  match member.1 with
  | .error fault => .error (.malformed fault)
  | .ok key =>
      match fields.find? fun f => f.name == key with
      | some f => if f.isSet draft then .error (.duplicateField key) else f.put draft member.2
      | none =>
          match skipFault? member.2 with
          | some fault => .error (.malformed fault)
          | none => .ok draft

/-- The end of an array that was read only as far as the record has fields. -/
def endedEarly : Option Break → Decoded Unit
  | none => .ok ()
  | some place =>
      .error (.malformed (match place.used with
        | .endInList => .endInList
        | .trailingComma => .trailingComma
        | _ => .trailingCharacters))

/-- Take the items of an array into a draft, field by field. -/
def takeItems (ending : Option Break) : List (Field σ) → List Reading → σ → Decoded σ
  | f :: fields, item :: items, draft => do takeItems ending fields items (← f.put draft item)
  | _ :: _, [], draft => (ended ending).map fun _ => draft
  | [], [], draft => (endedEarly ending).map fun _ => draft
  | [], _ :: _, _ => .error (.malformed .trailingCharacters)

/-- A record, decoded into a draft. -/
def record (wanted : String) (fields : List (Field σ)) (draft : σ) : Reading → Decoded σ
  | .object members ending => do
      let result ← members.foldlM (takeMember fields) draft
      ended ending
      return result
  | .array items ending => takeItems ending fields items draft
  | r => .error (mismatch wanted r)

/-! ## Names -/

/-- The names decoded so far. -/
structure OptionsDraft where
  librarySource : Option String := none
  defaultAlias : Option String := none
  metadataField : Option String := none
  libraryBaseName : Option String := none

/-- The fields of the names. -/
def optionsFields : List (Field OptionsDraft) := [
  ⟨"librarySource", fun d => d.librarySource.isSome,
    fun d r => (text r).map fun s => { d with librarySource := some s }⟩,
  ⟨"defaultAlias", fun d => d.defaultAlias.isSome,
    fun d r => (text r).map fun s => { d with defaultAlias := some s }⟩,
  ⟨"metadataField", fun d => d.metadataField.isSome,
    fun d r => (text r).map fun s => { d with metadataField := some s }⟩,
  ⟨"libraryBaseName", fun d => d.libraryBaseName.isSome,
    fun d r => (text r).map fun s => { d with libraryBaseName := some s }⟩]

/-- The names of a draft, with defaults for what is missing. -/
def OptionsDraft.finish (d : OptionsDraft) : Options :=
  let default : Options := {}
  ⟨d.librarySource.getD default.librarySource, d.defaultAlias.getD default.defaultAlias,
    d.metadataField.getD default.metadataField, d.libraryBaseName.getD default.libraryBaseName⟩

/-- The names. -/
def decodeOptions (r : Reading) : Decoded Options :=
  (record "struct TransformOptions" optionsFields {} r).map OptionsDraft.finish

/-! ## Settings -/

/-- The settings decoded so far. -/
structure Draft where
  ignores : Option (List String) := none
  includes : Option (List String) := none
  sourceRoot : Option String := none
  ignoreTestFiles : Option Bool := none
  options : Option Options := none

/-- The fields of the settings. -/
def fields : List (Field Draft) := [
  ⟨"ignores", fun d => d.ignores.isSome,
    fun d r => (texts r).map fun s => { d with ignores := some s }⟩,
  ⟨"includes", fun d => d.includes.isSome,
    fun d r => (texts r).map fun s => { d with includes := some s }⟩,
  ⟨"sourceRoot", fun d => d.sourceRoot.isSome,
    fun d r => (text r).map fun s => { d with sourceRoot := some s }⟩,
  ⟨"ignoreTestFiles", fun d => d.ignoreTestFiles.isSome,
    fun d r => (truth r).map fun b => { d with ignoreTestFiles := some b }⟩,
  ⟨"transform", fun d => d.options.isSome,
    fun d r => (decodeOptions r).map fun o => { d with options := some o }⟩]

/-- The settings of a draft, with defaults for what is missing. -/
def Draft.finish (d : Draft) : Settings :=
  let default : Settings := {}
  ⟨d.ignores.getD default.ignores, d.includes.getD default.includes,
    d.sourceRoot.getD default.sourceRoot, d.ignoreTestFiles.getD default.ignoreTestFiles,
    d.options.getD default.options⟩

/-- The settings that a reading gives. -/
def ofReading (r : Reading) : Decoded Settings :=
  (record "struct Config" fields {} r).map Draft.finish

/-- The settings that a JSON value gives. -/
def ofJson (j : Json) : Decoded Settings := ofReading (.ofJson j)

/-- The settings that a text gives.  Nothing may follow the value. -/
def parse (s : String) : Decoded Settings := do
  let (reading, rest) := Reading.ofText s
  let settings ← ofReading reading
  match rest with
  | some cs =>
      if (Reading.skipBlank cs).isEmpty then .ok settings
      else .error (.malformed .trailingCharacters)
  | none => .ok settings

end PropCatalog.Settings
