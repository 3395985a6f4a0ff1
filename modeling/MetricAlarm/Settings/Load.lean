import MetricAlarm.Data.Decode
import MetricAlarm.Data.Json
import MetricAlarm.Data.Literal
import MetricAlarm.Data.Toml
import MetricAlarm.Data.Yaml

/-!
# Loading settings

Settings come from the defaults, from a file and from the environment, later sources over earlier
ones, and are checked at the end. The extension of the file names its format. Tables of two sources
are merged. Main statement: `check_of_load`, what was loaded has passed the check.
-/

namespace MetricAlarm.Settings

open Data

/-! ## Files -/

/-- A file by its path; without content there is no such file. -/
structure File where
  path : String
  content : Option String

/-- The names between the slashes of a path, without those that stay in place. -/
def pathNames (cs : List Char) : List (List Char) :=
  (cs.foldr
    (fun c names =>
      match names with
      | [] => [[c]]
      | n :: ns => if c = '/' then [] :: n :: ns else (c :: n) :: ns)
    [[]]).filter fun n => n ≠ [] ∧ n ≠ ['.']

/-- What stands behind the last point of the last name; a point in front of the name does not
count. -/
def extension? (path : String) : Option String :=
  match (pathNames path.toList).getLast? with
  | none => none
  | some name =>
    let ending := (name.reverse.takeWhile (· ≠ '.')).reverse
    if name = ['.', '.'] ∨ name.length ≤ ending.length + 1 then none
    else some (String.ofList ending)

inductive Format
  | toml
  | yaml
  | json
  deriving DecidableEq, Repr

def Format.ofExtension? : String → Option Format
  | "toml" => some .toml
  | "yaml" | "yml" => some .yaml
  | "json" => some .json
  | _ => none

/-- The table that a text holds in a format. -/
def Format.read? (f : Format) (content : String) : Option (List Entry) :=
  match f with
  | .toml => Toml.parse? content
  | .yaml => Yaml.parse? content
  | .json =>
    match Json.parse? content with
    | some (.table es) => some es
    | _ => none

/-- The content of a file and its format. -/
def File.source (f : File) : Except SettingsError (Format × String) :=
  match extension? f.path with
  | none => .error .noExtension
  | some ext =>
    match f.content with
    | none => .error (.fileNotFound f.path)
    | some content =>
      match Format.ofExtension? ext with
      | none => .error (.unsupportedFormat ext)
      | some format => .ok (format, content)

/-! ## The environment -/

/-- What the names of variables begin with. -/
def environmentMark : String := "THRESH_"

/-- The setting that a variable gives, under its name in small letters. Points in the name part the
names of nested tables; none of them may be empty. -/
def ofVariable? (e : String × String) : Option Entry :=
  let name := Text.trim e.1.toList
  let mark := environmentMark.toList
  if (name.take mark.length).map Char.toLower = mark.map Char.toLower then
    let key := String.ofList ((Text.trim (name.drop mark.length)).map Char.toLower)
    match key.splitOn "." with
    | first :: below =>
      if (first :: below).contains "" then none
      else some (first, nested below (Literal.parse e.2))
    | [] => none
  else none

/-- The settings that the variables give; a later variable takes the place of an earlier one. -/
def overrides (environment : List (String × String)) : List Entry :=
  entriesOf (environment.filterMap ofVariable?)

/-! ## Loading -/

/-- The entry of a table that comes first in the order of names. -/
def leading? : List Entry → Option Entry
  | [] => none
  | e :: es =>
    match leading? es with
    | none => some e
    | some e' => some (if e'.1 < e.1 then e' else e)

/-- A setting whose value is one of some names: of a table, only the leading entry counts. -/
def choice : Value → Value
  | .table es => .table (leading? es).toList
  | v => v

/-- Entries as a source of settings has them. -/
def ofSource (e : Entry) : Entry :=
  if e.1 = "resolution" then (e.1, choice e.2) else e

/-- Read settings out of entries and check them; `blame` is the error of entries that
cannot be read. -/
def ofEntries (blame : SettingsError) (es : Option (List Entry)) :
    Except SettingsError Settings :=
  match es with
  | none => .error blame
  | some es =>
    match settingsOf? (es.map ofSource) with
    | none => .error blame
    | some s =>
      match s.check with
      | .error e => .error e
      | .ok _ => .ok s

/-- Settings from a file alone. -/
def loadFile (f : File) : Except SettingsError Settings :=
  match f.source with
  | .error e => .error e
  | .ok (format, content) => ofEntries .unreadableFile ((format.read? content).map entriesOf)

/-- Settings from a file, if there is one, and the environment. -/
def load (file : Option File) (environment : List (String × String)) :
    Except SettingsError Settings :=
  match file with
  | none => ofEntries .unreadable (some (overrides environment))
  | some f =>
    match f.source with
    | .error e => .error e
    | .ok (format, content) =>
      ofEntries .unreadable
        ((format.read? content).map fun es => merge (entriesOf es) (overrides environment))

theorem check_of_ofEntries {blame : SettingsError} {es : Option (List Entry)} {s : Settings}
    (h : ofEntries blame es = .ok s) : s.check = .ok () := by
  unfold ofEntries at h
  split at h
  · simp at h
  · split at h
    · simp at h
    · split at h
      · simp at h
      · next hc => cases h; exact hc

theorem check_of_load {file : Option File} {environment : List (String × String)} {s : Settings}
    (h : load file environment = .ok s) : s.check = .ok () := by
  unfold load at h
  split at h
  · exact check_of_ofEntries h
  · split at h
    · simp at h
    · exact check_of_ofEntries h

end MetricAlarm.Settings
