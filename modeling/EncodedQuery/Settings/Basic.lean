/-
  EncodedQuery.Settings.Basic
  ───────────────────────────
  **SETTINGS.**

  What the builder can be told to do differently.  `Settings.ofDocument` reads
  them from a settings document; what the document does not set keeps its
  default, and so does a count that is not positive.
-/
import EncodedQuery.Json.Take
import EncodedQuery.Settings.Document
import EncodedQuery.Settings.Path

namespace EncodedQuery

/-- The settings of the program. -/
structure Settings where
  /-- Days are picked from a calendar, not typed. -/
  useAdvancedDate : Bool := true
  /-- Times have seconds. -/
  showSeconds : Bool := true
  /-- Both ends of a range may lie on one day. -/
  allowSameDay : Bool := true
  /-- The number of rows in the window of a list. -/
  maxVisibleItems : Int := 15
  /-- The query is shown while it is built. -/
  showPreview : Bool := false
  /-- The findings are shown while the query is built. -/
  showValidation : Bool := false
  /-- The shortest text that is searched for. -/
  minSearchLength : Int := 2
  /-- The most records that a search asks for. -/
  searchLimit : Int := 20
  /-- How long a search may take, in seconds. -/
  searchTimeout : Float := 10.0
  /-- How long a search waits for more typing, in seconds. -/
  searchDebounce : Float := 0.25
  /-- The file of saved filters. -/
  savedFiltersPath : Text := "~/.snquery/saved_filters.json"
  /-- The least level that is logged. -/
  logLevel : Text := "INFO"
  /-- The entries of a document outside the known sections. -/
  extra : List (Text × Json) := []

namespace Settings

/-! ## §1. Reading. -/

/-- The members of a section; a missing section has none. -/
def sectionOf (name : Text) (document : List (Text × Json)) : Except Fault (List (Text × Json)) :=
  ((Json.lookup? name document).getD (.object [])).members

/-- A truth value. -/
def flagOr (ms : List (Text × Json)) (name : Text) (fallback : Bool) : Bool :=
  match Json.lookup? name ms with
  | some v => !v.isEmptyValue
  | none => fallback

/-- A positive count. -/
def countOr (ms : List (Text × Json)) (name : Text) (fallback : Int) : Except Fault Int :=
  match Json.lookup? name ms with
  | none => .ok fallback
  | some v => do
      let n ← v.toInt
      return if 0 < n then n else fallback

/-- A number of seconds. -/
def secondsOr (ms : List (Text × Json)) (name : Text) (fallback : Float) : Except Fault Float :=
  match Json.lookup? name ms with
  | none => .ok fallback
  | some v => v.toReal

/-- A text. -/
def textOr (ms : List (Text × Json)) (name fallback : Text) : Text :=
  ((Json.lookup? name ms).map Json.shown).getD fallback

/-- The sections that a document may have. -/
def knownSections : List Text := ["builder", "reference", "storage", "logging"]

/-- The settings of a document. -/
def ofDocument (document : List (Text × Json)) : Except Fault Settings := do
  let d : Settings := {}
  let builder ← sectionOf "builder" document
  let maxVisibleItems ← countOr builder "max_visible_items" d.maxVisibleItems
  let reference ← sectionOf "reference" document
  let minSearchLength ← countOr reference "min_search_length" d.minSearchLength
  let searchLimit ← countOr reference "search_limit" d.searchLimit
  let searchTimeout ← secondsOr reference "search_timeout" d.searchTimeout
  let searchDebounce ← secondsOr reference "search_debounce" d.searchDebounce
  let storage ← sectionOf "storage" document
  let logging ← sectionOf "logging" document
  return {
    useAdvancedDate := flagOr builder "use_advanced_date" d.useAdvancedDate
    showSeconds := flagOr builder "show_seconds" d.showSeconds
    allowSameDay := flagOr builder "allow_same_day" d.allowSameDay
    maxVisibleItems
    showPreview := flagOr builder "show_preview" d.showPreview
    showValidation := flagOr builder "show_validation" d.showValidation
    minSearchLength
    searchLimit
    searchTimeout
    searchDebounce
    savedFiltersPath := textOr storage "saved_filters_path" d.savedFiltersPath
    logLevel := Text.upper (textOr logging "level" d.logLevel)
    extra := document.filter (fun m => !Text.isOneOf m.1 knownSections) }

/-- The settings that a text writes, with values nested up to `deepest`. -/
def ofText (t : Text) (deepest : Nat) : Except Fault Settings :=
  read (Text.withLineFeeds t) deepest >>= ofDocument

/-! ## §2. Files. -/

/-- The document with all settings at their defaults. -/
def defaultText : Text :=
"
[builder]
use_advanced_date = true
show_seconds = true
allow_same_day = true
max_visible_items = 15
show_preview = false
show_validation = false

[reference]
min_search_length = 2
search_limit = 20
search_timeout = 10.0
search_debounce = 0.25

[storage]
saved_filters_path = \"~/.snquery/saved_filters.json\"

[logging]
level = \"INFO\"
"

/-- Where the settings of a home directory are. -/
def homePath (home : Text) : Text := home ++ "/.config/snquery/config.toml"

/-- Where settings are looked for, in this order: a path that is asked for, a path that the
environment names, and the home directory. -/
def searchPaths (home : Text) (asked named : Option Text) : Except Fault (List Text) := do
  let asked ← asked.toList.mapM (expandPath home)
  let named ← (named.toList.filter (fun t => !t.isEmpty)).mapM (expandPath home)
  return asked ++ named ++ [homePath home]

/-- The file of saved filters, with the home directory in place. -/
def savedFiltersFile (s : Settings) (home : Text) : Except Fault Text :=
  expandPath home s.savedFiltersPath

end Settings

end EncodedQuery
