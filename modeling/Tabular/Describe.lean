import Tabular.Engine.Deferred
import Tabular.Join

/-!
# Descriptions

One-line texts of tables, joins and deferred connections for people who look for faults. What a
description leaves out is marked by two dots.
-/

namespace Tabular

namespace Describe

/-- A text in quotes. -/
def quoted (s : String) : String :=
  "\"" ++ String.join (s.toList.map fun c =>
    match c with
    | '"' => "\\\""
    | '\\' => "\\\\"
    | '\n' => "\\n"
    | '\r' => "\\r"
    | '\t' => "\\t"
    | '\x00' => "\\0"
    | c => String.singleton c) ++ "\""

/-- A named structure with its fields. -/
def fields (name : String) (fields : List (String × String)) (complete : Bool) : String :=
  let shown := fields.map fun (field, text) => field ++ ": " ++ text
  name ++ " \x7b " ++ ", ".intercalate (if complete then shown else shown ++ [".."]) ++ " \x7d"

/-- The name of a level in a description. -/
def level : Level → String
  | .error => "Level(Error)"
  | .warn => "Level(Warn)"
  | .info => "Level(Info)"
  | .debug => "Level(Debug)"
  | .trace => "Level(Trace)"

/-- The settings of a table. -/
def settings (s : TableSettings) : String :=
  let most := match s.maxLogged with
    | some n => "Some(" ++ toString n ++ ")"
    | none => "None"
  fields "TableConfig" [("insert_many_limit", toString s.batchLimit),
    ("log_sql", if s.logStatements then "true" else "false"), ("max_sql_length", most),
    ("level", level s.level)] true

/-- A table by its name and settings. -/
def table {ρ : Type} (t : Table ρ) : String :=
  fields "Table" [("table", quoted t.name), ("config", settings t.settings)] false

/-- A join by the names of its tables. -/
def join {ρ τ : Type} (j : Join ρ τ) : String :=
  fields "Join" [("primary", quoted j.primary.name), ("secondary", quoted j.secondary.name),
    ("kind", "Left")] false

/-- A deferred connection by whether it is up. -/
def deferred {ι σ : Type} (d : Deferred ι σ) : String :=
  fields "LazyConnection" [("initialized", if d.isReady then "true" else "false")] false

end Describe

end Tabular
