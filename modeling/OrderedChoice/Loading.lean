import OrderedChoice.Error
import OrderedChoice.Json.Library

/-!
# Loading

Data are loaded from a text or from a file of JSON.  It is an error of the configuration if that
fails.
-/

namespace OrderedChoice

variable {α : Type}

/-- What a text stands for. -/
def fromText (L : Json.Library) (C : Json.Coding α) (text : String) : Except Error α :=
  match L.fromText C.visit text with
  | .ok a => .ok a
  | .error message => .error (.config ("Failed to parse config: " ++ message))

/-- What a file stands for, given what came of opening it: its bytes, or a reason why it cannot be
opened. -/
def fromFile (L : Json.Library) (C : Json.Coding α) (path : String)
    (opened : Except String ByteArray) : Except Error α :=
  match opened with
  | .error reason =>
    .error (.config ("Failed to open config file " ++ path ++ ": " ++ reason))
  | .ok bytes =>
    match L.fromBytes C.visit bytes with
    | .ok a => .ok a
    | .error message => .error (.config ("Failed to parse config file: " ++ message))

end OrderedChoice
