import InfusedModbus.Server.ClientTrust

/-! The lines of the admin socket and the file of approved clients. A line names a
command and at most one fingerprint. The file lists fingerprints as TOML strings; how
TOML is written and read is left to a parameter. -/

namespace InfusedModbus.Server

open Foundation Foundation.Outcome Protocol Datafs

/-! ### Commands -/

inductive AdminCommand where
  | approve (fingerprint : Fingerprint)
  | revoke (fingerprint : Fingerprint)
  | list
  deriving DecidableEq

inductive AdminCommandParseError where
  | emptyCommand
  | missingFingerprint (verb : List Char)
  | takesOneArgument (verb : List Char)
  | listTakesNoArguments
  | invalidFingerprint (error : Fingerprint.ParseError)
  | unknownCommand (verb : List Char)
  deriving DecidableEq, Repr

/-- The one fingerprint that follows a verb. -/
def parseArgument (verb : List Char) (arguments : List (List Char)) : Outcome AdminCommandParseError Fingerprint :=
  match arguments with
  | [] => .err (.missingFingerprint verb)
  | fingerprintText :: arguments =>
    if arguments ≠ [] then .err (.takesOneArgument verb)
    else (Fingerprint.fromStr fingerprintText).mapErr .invalidFingerprint

def AdminCommand.parse (line : List Char) : Outcome AdminCommandParseError AdminCommand :=
  match splitWhitespace line with
  | [] => .err .emptyCommand
  | verb :: arguments =>
    if verb = "APPROVE".toList then (parseArgument verb arguments).map .approve
    else if verb = "REVOKE".toList then (parseArgument verb arguments).map .revoke
    else if verb = "LIST".toList then if arguments ≠ [] then .err .listTakesNoArguments else .ok .list
    else .err (.unknownCommand verb)

/-! ### The file of approved clients -/

/-- TOML as the list of strings under the key of the file is written and read. -/
structure TomlFormat where
  toString : List (List Char) → List Char
  fromStr : List Char → Option (List (List Char))

inductive LoadError where
  | toml
  | invalidFingerprint (error : Fingerprint.ParseError)

/-- The fingerprints in a file; a missing file has none. -/
def load (toml : TomlFormat) (file : Option (List Char)) : Outcome LoadError (List Fingerprint) :=
  match file with
  | none => .ok []
  | some source =>
    match toml.fromStr source with
    | none => .err .toml
    | some texts => texts.mapM' fun text => (Fingerprint.fromStr text).mapErr .invalidFingerprint

/-- The text that `save_atomically` writes. -/
def serialized (toml : TomlFormat) (fingerprints : List Fingerprint) : List Char :=
  toml.toString (fingerprints.map Fingerprint.toText)

/-- What is written is read back, if TOML keeps the printed fingerprints. -/
theorem load_serialized {toml : TomlFormat}
    (htoml : ∀ fingerprints : List Fingerprint,
      toml.fromStr (toml.toString (fingerprints.map Fingerprint.toText)) = some (fingerprints.map Fingerprint.toText))
    (fingerprints : List Fingerprint) : load toml (some (serialized toml fingerprints)) = .ok fingerprints := by
  rw [load, serialized, htoml]
  dsimp only
  rw [mapM_map]
  have hread := @mapM_of_forall_ok LoadError _ _
    (fun fingerprint => (Fingerprint.fromStr fingerprint.toText).mapErr .invalidFingerprint) id fingerprints
    fun fingerprint _ => by rw [Fingerprint.fromStr_toText, mapErr_ok, id]
  rwa [List.map_id] at hread

end InfusedModbus.Server
