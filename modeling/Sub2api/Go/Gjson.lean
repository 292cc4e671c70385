/-!
# Lookups in a JSON text

A `Result` is what a path lookup of the gjson package finds, seen through the accessors that the
callers use. Lookups below a found value are part of it, so a text is known by its root value and
nothing has to be assumed about the package.
-/

namespace Sub2api.Go.Gjson

/-- `gjson.Type`. -/
inductive ResultType where
  | null
  | false
  | number
  | string
  | true
  | json
  deriving DecidableEq

/-- `gjson.Result`: its type, `Raw`, `String()`, `Int()` and `Get`. -/
inductive Result where
  | missing
  | found (type : ResultType) (raw str : String) (int : Int) (get : String → Result)

namespace Result

def present : Result → Bool
  | .missing => false
  | .found .. => true

def type : Result → ResultType
  | .missing => .null
  | .found type .. => type

def raw : Result → String
  | .missing => ""
  | .found _ raw .. => raw

def str : Result → String
  | .missing => ""
  | .found _ _ str .. => str

def int : Result → Int
  | .missing => 0
  | .found _ _ _ int _ => int

def get : Result → String → Result
  | .missing, _ => .missing
  | .found _ _ _ _ get, path => get path

/-- The second lookup where the first finds nothing. -/
def orElse (first second : Result) : Result := if first.present then first else second

/-- A string value. -/
def ofString (value : String) : Result := .found .string ("\"" ++ value ++ "\"") value 0 fun _ => .missing

/-- A number. -/
def ofInt (value : Int) : Result := .found .number (toString value) (toString value) value fun _ => .missing

/-- An object, looked up by the paths in it. -/
def ofPaths (paths : List (String × Result)) : Result :=
  .found .json "{}" "{}" 0 fun path => (paths.lookup path).getD .missing

end Result

end Sub2api.Go.Gjson
